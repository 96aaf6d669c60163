import ShadowDataPlane.Foundation.Transition

/-!
# The operation lock

`EdgeService._storage_loop`, `_midnight_loop` and `_on_discovery` take the
operation lock.  `_on_discovery` is awaited by the discovery loop of the
sources, and a start of the sources is ready only when that loop has come back
from it once.

At a boot the sources are started without the lock.  When the storage loop
starts them again it holds the lock while it waits for them, so they cannot
become ready (`recovery_never_ready`).  If the discovery loop has come as far
as the lock when the readiness times out, the storage loop waits for a task
which waits for the lock of the storage loop (`recovery_deadlock`).

A storage check runs from one await to the next.  The tasks of a start other
than its discovery loop may become ready, return or raise at any time.
-/

namespace ShadowDataPlane.Edge

open ShadowDataPlane.Foundation

/-! ## The sources -/

/-- What `SourceManager._run` expects to become ready. -/
def expectedNames (shards : Nat) : List String :=
  (List.range shards).map (fun index => "public-" ++ toString index) ++
    ["market-0", "open_interest", "discovery", "clock"]

/-- Where the discovery loop of a start stands. -/
inductive DiscoveryPhase where
  | fetching
  /-- `_on_discovery` waits for the lock. -/
  | locking
  /-- `_on_discovery` holds the lock. -/
  | planning
  /-- Until the next discovery, or after an error. -/
  | resting
  | ended
deriving DecidableEq, Repr

/-- The tasks of one `SourceManager.start`. -/
structure SourceRun where
  readyNames : List String := []
  stopSet : Bool := false
  /-- A task has raised; `gather` raises with it and leaves the others. -/
  raised : Bool := false
  /-- Every task but the discovery loop has returned. -/
  othersReturned : Bool := false
  discovery : DiscoveryPhase := .fetching
deriving DecidableEq

/-- The task of `_run` is done. -/
def SourceRun.Done (run : SourceRun) : Prop :=
  run.raised = true ∨ run.othersReturned = true ∧ run.discovery = .ended

/-- `mark_ready` has set the event. -/
def SourceRun.Ready (shards : Nat) (run : SourceRun) : Prop :=
  ∀ name ∈ expectedNames shards, name ∈ run.readyNames

instance (run : SourceRun) : Decidable run.Done :=
  inferInstanceAs (Decidable (_ ∨ _))

instance (shards : Nat) (run : SourceRun) : Decidable (run.Ready shards) :=
  inferInstanceAs (Decidable (∀ name ∈ _, _))

/-- What the discovery loop of a start does. -/
inductive DiscoveryLabel where
  /-- It has its snapshot. -/
  | fetched
  | fetchFails
  | wakes
  | acquires
  | planned
  /-- The queue is overloaded when the decision is emitted. -/
  | overloaded
  /-- `_on_discovery` raises what the loop does not catch. -/
  | planFails
deriving DecidableEq, Repr

/-- `RestPollers._discovery_loop`, from one await to the next. -/
def DiscoveryPhase.step (stopSet : Bool) :
    DiscoveryPhase → DiscoveryLabel → Option DiscoveryPhase
  | .fetching, .fetched => some .locking
  | .fetching, .fetchFails => some .resting
  | .locking, .acquires => some .planning
  | .planning, .planned => some .resting
  | .planning, .overloaded => some .resting
  | .planning, .planFails => some .ended
  | .resting, .wakes => some (if stopSet then .ended else .fetching)
  | _, _ => none

/-- The steps of the sources between their start and their stop. -/
inductive SourceLabel where
  /-- A route, the open interest or the clock calls `on_ready`. -/
  | othersReady (name : String)
  | othersReturn
  | otherRaises
  | discovery (label : DiscoveryLabel)
deriving DecidableEq

/-- What the other tasks see of the discovery loop. -/
def SourceRun.discover (run : SourceRun) (discovery : DiscoveryPhase) :
    DiscoveryLabel → SourceRun
  | .planned =>
      { run with discovery, readyNames := "discovery" :: run.readyNames }
  | .planFails => { run with discovery, raised := true }
  | .fetched | .fetchFails | .wakes | .acquires | .overloaded =>
      { run with discovery }

/-- What a label does to the tasks of a start. -/
def SourceRun.step (run : SourceRun) : SourceLabel → Option SourceRun
  | .othersReady name =>
      if name = "discovery" then none
      else some { run with readyNames := name :: run.readyNames }
  | .othersReturn =>
      if run.stopSet then some { run with othersReturned := true } else none
  | .otherRaises => some { run with raised := true }
  | .discovery label =>
      (run.discovery.step run.stopSet label).map fun discovery =>
        run.discover discovery label

/-- Where a label of the discovery loop leads from and to. -/
def DiscoveryPhase.Leads (stopSet : Bool) (before after : DiscoveryPhase) :
    DiscoveryLabel → Prop
  | .fetched => before = .fetching ∧ after = .locking
  | .fetchFails => before = .fetching ∧ after = .resting
  | .wakes => before = .resting ∧ after = if stopSet then .ended else .fetching
  | .acquires => before = .locking ∧ after = .planning
  | .planned | .overloaded => before = .planning ∧ after = .resting
  | .planFails => before = .planning ∧ after = .ended

theorem DiscoveryPhase.step_leads
    {stopSet : Bool} {before after : DiscoveryPhase} {label : DiscoveryLabel}
    (stepped : before.step stopSet label = some after) :
    Leads stopSet before after label := by
  cases before <;> cases label <;> cases stepped <;> exact ⟨rfl, rfl⟩

/-! ## The service -/

/-- The task which holds the operation lock. -/
inductive LockHolder where
  | storageLoop
  | midnightLoop
  /-- `_on_discovery` of a start. -/
  | discoveryLoop (run : Nat)
deriving DecidableEq

/-- The await at which the storage loop stands. -/
inductive StorageLoopPhase where
  /-- Between two checks, without the lock. -/
  | waiting
  | opening
  /-- `SourceManager.stop`. -/
  | stopping
  /-- `SourceManager.wait_ready`. -/
  | readying
  /-- Stale gaps, completed days and the formal start. -/
  | recovering
  | closing
deriving DecidableEq, Repr

/-- What the tasks which share the lock may bring about. -/
inductive LockEvent where
  /-- `wait_ready` has returned to the storage loop. -/
  | becameReady
  /-- The storage gap was closed. -/
  | gapClosed
  /-- A midnight boundary was applied and its day sealed. -/
  | boundary
deriving DecidableEq, Repr

/-- A boot after its sources became ready, or were left out. -/
structure LockState where
  up : Bool := true
  holder : Option LockHolder := none
  storage : StorageLoopPhase := .waiting
  storageGapId : Option String := none
  /-- Every start of the boot. -/
  runs : List SourceRun := []
  /-- The start which is running, by its number. -/
  current : Option Nat := none
  trace : List LockEvent := []
deriving DecidableEq

/-- The steps of the tasks which share the operation lock. -/
inductive LockLabel where
  /-- The storage loop takes the lock and reads the spool. -/
  | check (hardLimited : Bool)
  | opened (gapId : String)
  | stopReturns
  | readyReturns
  | readyTimesOut
  /-- `wait_ready` finds that the task of the sources is done. -/
  | readyFails
  | recovered
  | closed
  /-- What the storage loop awaits for itself raises. -/
  | storageRaises
  | midnightBegins
  | midnightEnds
  | source (run : Nat) (label : SourceLabel)
  | serviceStops
deriving DecidableEq

namespace LockState

/-- The tasks of the start which is running. -/
def currentRun (state : LockState) : Option SourceRun :=
  state.current.bind fun index => state.runs[index]?

def down (state : LockState) : LockState := { state with up := false }

/-- The storage loop leaves the lock. -/
def leave (state : LockState) : LockState :=
  { state with holder := none, storage := .waiting }

/-- The storage loop holds the lock at an await. -/
def hold (state : LockState) (phase : StorageLoopPhase) : LockState :=
  { state with holder := some .storageLoop, storage := phase }

/-- `SourceManager.stop` sets the event and waits, if there is a task. -/
def stopSources (state : LockState) : LockState :=
  match state.current with
  | none => state.leave
  | some index =>
      { state.hold .stopping with
        runs := state.runs.modify index fun run =>
          { run with stopSet := true } }

/-- `SourceManager.start` and `wait_ready`. -/
def startSources (state : LockState) : LockState :=
  { state.hold .readying with
    runs := state.runs ++ [{}]
    current := some state.runs.length }

/-- A check of the storage loop, from the lock to the next await. -/
def check (state : LockState) (hardLimited : Bool) : LockState :=
  if hardLimited then
    if state.storageGapId = none then state.hold .opening
    else state.stopSources
  else if state.storageGapId = none then state
  else if state.current = none then state.startSources
  else state.hold .closing

/-- Who holds the lock after a label of a start. -/
def holderAfter (state : LockState) (index : Nat) :
    SourceLabel → Option (Option LockHolder)
  | .discovery .acquires =>
      if state.holder = none then some (some (.discoveryLoop index)) else none
  | .discovery .planned | .discovery .overloaded | .discovery .planFails =>
      if state.holder = some (.discoveryLoop index) then some none else none
  | _ => some state.holder

/-- A label of the tasks of a start. -/
def sourceStep (state : LockState) (index : Nat) (label : SourceLabel) :
    Option LockState := do
  let run ← state.runs[index]?
  let next ← run.step label
  let holder ← state.holderAfter index label
  return { state with holder, runs := state.runs.set index next }

end LockState

/-- One step of the service. -/
def lockStep (shards : Nat) (state : LockState) (label : LockLabel) :
    Option LockState :=
  if state.up = false then none
  else
    match label with
    | .check hardLimited =>
        if state.storage = .waiting ∧ state.holder = none then
          -- `raise_if_failed` ends the service.
          if ∃ run ∈ state.currentRun, run.Done then some state.down
          else some (state.check hardLimited)
        else none
    | .opened gapId =>
        if state.storage = .opening then
          some { state with storageGapId := some gapId }.stopSources
        else none
    | .stopReturns =>
        if state.storage = .stopping ∧ ∃ run ∈ state.currentRun, run.Done then
          some { state.leave with current := none }
        else none
    | .readyReturns =>
        if state.storage = .readying ∧
            ∃ run ∈ state.currentRun, ¬run.Done ∧ run.Ready shards then
          some { state with
            storage := .recovering
            trace := .becameReady :: state.trace }
        else none
    | .readyTimesOut =>
        if state.storage = .readying ∧
            ∃ run ∈ state.currentRun, ¬run.Done ∧ ¬run.Ready shards then
          some state.stopSources
        else none
    | .readyFails =>
        if state.storage = .readying ∧ ∃ run ∈ state.currentRun, run.Done then
          some state.down
        else none
    | .recovered =>
        if state.storage = .recovering then
          some { state with storage := .closing }
        else none
    | .closed =>
        if state.storage = .closing then
          some { state.leave with
            storageGapId := none
            trace := .gapClosed :: state.trace }
        else none
    | .storageRaises =>
        if state.storage = .opening ∨ state.storage = .recovering ∨
            state.storage = .closing then
          some state.down
        else none
    | .midnightBegins =>
        if state.holder = none then
          some { state with holder := some .midnightLoop }
        else none
    | .midnightEnds =>
        if state.holder = some .midnightLoop then
          some { state with
            holder := none
            trace := .boundary :: state.trace }
        else none
    | .source index label => state.sourceStep index label
    | .serviceStops => some state.down

/-! ## What a step of the sources can do -/

/-- The lock and the discovery loop of a start, before and after a label. -/
inductive SourceMove (index : Nat) (holder : Option LockHolder)
    (run : SourceRun) : Option LockHolder → SourceRun → Prop where
  | quiet {next : SourceRun}
      (plans : next.discovery = .planning ↔ run.discovery = .planning)
      (names : "discovery" ∈ next.readyNames ↔
        "discovery" ∈ run.readyNames) :
      SourceMove index holder run holder next
  | acquires {next : SourceRun} (free : holder = none)
      (plans : next.discovery = .planning)
      (names : next.readyNames = run.readyNames) :
      SourceMove index holder run (some (.discoveryLoop index)) next
  | releases {next : SourceRun}
      (held : holder = some (.discoveryLoop index))
      (plans : next.discovery ≠ .planning) :
      SourceMove index holder run none next

theorem sourceStep_cases
    {state after : LockState} {index : Nat} {label : SourceLabel}
    (stepped : state.sourceStep index label = some after) :
    ∃ run next holder, state.runs[index]? = some run ∧
      run.step label = some next ∧
      SourceMove index state.holder run holder next ∧
      after = { state with holder, runs := state.runs.set index next } := by
  unfold LockState.sourceStep at stepped
  simp only [Option.bind_eq_bind, Option.bind_eq_some_iff,
    Option.pure_def, Option.some.injEq] at stepped
  rcases stepped with ⟨run, found, next, moved, holder, held, rfl⟩
  refine ⟨run, next, holder, found, moved, ?_, rfl⟩
  cases label with
  | othersReady name =>
      simp only [SourceRun.step] at moved
      split at moved
      next => cases moved
      next other =>
        cases moved
        cases held
        exact .quiet Iff.rfl (by simp [Ne.symm other])
  | othersReturn =>
      simp only [SourceRun.step] at moved
      split at moved
      next =>
        cases moved
        cases held
        exact .quiet Iff.rfl Iff.rfl
      next => cases moved
  | otherRaises =>
      cases moved
      cases held
      exact .quiet Iff.rfl Iff.rfl
  | discovery label =>
      rcases Option.map_eq_some_iff.mp moved with ⟨discovery, went, rfl⟩
      have phases := DiscoveryPhase.step_leads went
      cases label with
      | fetched | fetchFails =>
          rcases phases with ⟨fetching, rfl⟩
          cases held
          exact .quiet (by simp [SourceRun.discover, fetching]) Iff.rfl
      | wakes =>
          rcases phases with ⟨resting, rfl⟩
          cases held
          refine .quiet ?_ Iff.rfl
          cases run.stopSet <;> simp [SourceRun.discover, resting]
      | acquires =>
          rcases phases with ⟨-, rfl⟩
          simp only [LockState.holderAfter] at held
          split at held
          next free =>
            cases held
            exact .acquires free rfl rfl
          next => cases held
      | planned | overloaded | planFails =>
          rcases phases with ⟨-, rfl⟩
          simp only [LockState.holderAfter] at held
          split at held
          next isHeld =>
            cases held
            exact .releases isHeld (by simp [SourceRun.discover])
          next => cases held

/-! ## The invariant -/

/-- What every state of a boot satisfies. -/
structure LockSound (state : LockState) : Prop where
  /-- The storage loop is at an await exactly while it holds the lock. -/
  storage : state.storage = .waiting ↔ state.holder ≠ some .storageLoop
  planning : ∀ index run, state.runs[index]? = some run →
    (run.discovery = .planning ↔
      state.holder = some (.discoveryLoop index))
  current : ∀ index ∈ state.current, index < state.runs.length
  opening : state.storage = .opening → state.storageGapId = none
  stopping : state.storage = .stopping → state.storageGapId.isSome
  closing : state.storage = .closing → state.current.isSome
  /-- A start of the storage loop has not met the lock. -/
  readying : state.storage = .readying →
    state.storageGapId.isSome ∧
      ∃ run ∈ state.currentRun, "discovery" ∉ run.readyNames
  recovering : state.storage ≠ .recovering
  trace : .becameReady ∉ state.trace

/-- The service at the end of a boot. -/
structure Booted (state : LockState) : Prop where
  waiting : state.storage = .waiting
  trace : state.trace = []
  sources :
    (state.runs = [] ∧ state.current = none ∧ state.holder = none) ∨
      ∃ run, state.runs = [run] ∧ state.current = some 0 ∧
        state.holder =
          if run.discovery = .planning then some (.discoveryLoop 0) else none

namespace LockSound

variable {state after : LockState}

theorem booted (boot : Booted state) : LockSound state := by
  have notHeld : state.holder ≠ some .storageLoop := by
    rcases boot.sources with ⟨-, -, holder⟩ | ⟨run, -, -, holder⟩
    · rw [holder]
      simp
    · rw [holder]
      split <;> simp
  constructor
  · exact iff_of_true boot.waiting notHeld
  · intro index run found
    rcases boot.sources with ⟨runs, -⟩ | ⟨first, runs, -, holder⟩
    · simp [runs] at found
    · rw [runs] at found
      cases index with
      | zero =>
          cases found
          rw [holder]
          split
          next planning => simp [planning]
          next planning => simp [planning]
      | succ index => simp at found
  · intro index isCurrent
    rcases boot.sources with ⟨-, current, -⟩ | ⟨first, runs, current, -⟩
    · rw [current] at isCurrent
      cases isCurrent
    · rw [current] at isCurrent
      cases isCurrent
      simp [runs]
  · rw [boot.waiting]
    simp
  · rw [boot.waiting]
    simp
  · rw [boot.waiting]
    simp
  · rw [boot.waiting]
    simp
  · rw [boot.waiting]
    simp
  · rw [boot.trace]
    simp

/-- The storage loop holds the lock at every await. -/
theorem held (sound : LockSound state) (busy : state.storage ≠ .waiting) :
    state.holder = some .storageLoop :=
  not_not.mp fun notHeld => busy (sound.storage.mpr notHeld)

/-- The storage loop leaves the lock. -/
theorem leave
    (sound : LockSound state) (held : state.holder = some .storageLoop) :
    LockSound state.leave where
  storage := by simp [LockState.leave]
  planning index run found := by
    rw [sound.planning index run found, held]
    simp [LockState.leave]
  current := sound.current
  opening := by simp [LockState.leave]
  stopping := by simp [LockState.leave]
  closing := by simp [LockState.leave]
  readying := by simp [LockState.leave]
  recovering := by simp [LockState.leave]
  trace := sound.trace

/-- The storage loop takes the lock for an await of its own. -/
theorem hold
    (sound : LockSound state) {phase : StorageLoopPhase}
    (free : state.holder = none ∨ state.holder = some .storageLoop)
    (opening : phase = .opening → state.storageGapId = none)
    (stopping : phase = .stopping → state.storageGapId.isSome)
    (closing : phase = .closing → state.current.isSome)
    (isAwait : phase ≠ .waiting ∧ phase ≠ .readying ∧ phase ≠ .recovering) :
    LockSound (state.hold phase) where
  storage := by simp [LockState.hold, isAwait.1]
  planning index run found := by
    rw [sound.planning index run found]
    rcases free with free | free <;> simp [LockState.hold, free]
  current := sound.current
  opening := opening
  stopping := stopping
  closing := closing
  readying := fun isReadying => absurd isReadying isAwait.2.1
  recovering := isAwait.2.2
  trace := sound.trace

/-- The discovery loops are not told that the sources stop. -/
theorem stopSources
    (sound : LockSound state)
    (free : state.holder = none ∨ state.holder = some .storageLoop)
    (gap : state.storageGapId.isSome) : LockSound state.stopSources := by
  have held : LockSound (state.hold .stopping) :=
    sound.hold free (by simp) (fun _ => gap) (by simp) (by simp)
  cases isCurrent : state.current with
  | none =>
      simp only [LockState.stopSources, isCurrent]
      exact held.leave rfl
  | some stopped =>
      simp only [LockState.stopSources, isCurrent]
      refine { held with planning := ?_, current := ?_, readying := ?_ }
      · intro index run found
        rw [List.getElem?_modify] at found
        rcases Option.map_eq_some_iff.mp found with ⟨before, wasFound, isRun⟩
        rw [← held.planning index before wasFound, ← isRun]
        split <;> rfl
      · intro index isStart
        rw [List.length_modify]
        exact sound.current index isStart
      · rintro ⟨⟩

/-- A start of the storage loop begins under the lock. -/
theorem startSources
    (sound : LockSound state) (free : state.holder = none)
    (gap : state.storageGapId.isSome) : LockSound state.startSources where
  storage := by simp [LockState.startSources, LockState.hold]
  planning index run found := by
    have notHeld : state.startSources.holder ≠
        some (.discoveryLoop index) := by
      simp [LockState.startSources, LockState.hold]
    refine iff_of_false (fun planning => ?_) notHeld
    simp only [LockState.startSources, List.getElem?_append] at found
    split at found
    next =>
      rw [sound.planning index run found, free] at planning
      cases planning
    next =>
      rw [List.getElem?_singleton] at found
      split at found
      next =>
        cases found
        cases planning
      next => cases found
  current index isStart := by
    cases isStart
    simp [LockState.startSources]
  opening := by simp [LockState.startSources, LockState.hold]
  stopping := by simp [LockState.startSources, LockState.hold]
  closing := by simp [LockState.startSources, LockState.hold]
  readying _ := by
    refine ⟨gap, {}, ?_, List.not_mem_nil⟩
    simp [LockState.startSources, LockState.currentRun]
  recovering := by simp [LockState.startSources, LockState.hold]
  trace := sound.trace

theorem check
    (sound : LockSound state) (free : state.holder = none)
    (hardLimited : Bool) : LockSound (state.check hardLimited) := by
  unfold LockState.check
  by_cases gap : state.storageGapId = none
  · simp only [if_pos gap]
    split
    next =>
      exact sound.hold (.inl free) (fun _ => gap) (by simp) (by simp)
        (by simp)
    next => exact sound
  · have isOpen : state.storageGapId.isSome :=
      Option.isSome_iff_ne_none.mpr gap
    simp only [if_neg gap]
    split
    next => exact sound.stopSources (.inl free) isOpen
    next =>
      split
      next => exact sound.startSources free isOpen
      next running =>
        exact sound.hold (.inl free) (by simp) (by simp)
          (fun _ => Option.isSome_iff_ne_none.mpr running) (by simp)

/-- The gap which was opened is named. -/
theorem opened
    (sound : LockSound state) (isOpening : state.storage = .opening)
    (gapId : String) :
    LockSound { state with storageGapId := some gapId }.stopSources := by
  have held := sound.held (by simp [isOpening])
  have named : LockSound { state with
      storageGapId := some gapId
      storage := .stopping } :=
    { sound with
      storage := by simp [held]
      opening := by simp
      stopping := by simp
      closing := by simp
      readying := by simp
      recovering := by simp }
  exact named.stopSources (.inr held) rfl

/-- A label of a start touches the lock and the phase of its discovery loop. -/
theorem sourceStep
    (sound : LockSound state) {index : Nat} {label : SourceLabel}
    (stepped : state.sourceStep index label = some after) :
    LockSound after := by
  rcases sourceStep_cases stepped with
    ⟨run, next, holder, found, -, moved, rfl⟩
  have planning := sound.planning index run found
  have bound := (List.getElem?_eq_some_iff.mp found).1
  have kept : holder ≠ some .storageLoop ↔
      state.holder ≠ some .storageLoop := by
    cases moved with
    | quiet => rfl
    | acquires free => simp [free]
    | releases isHeld => simp [isHeld]
  refine { sound with
    storage := sound.storage.trans kept.symm
    planning := ?_
    current := ?_
    readying := ?_ }
  · intro other otherRun otherFound
    simp only at otherFound ⊢
    by_cases same : index = other
    · subst same
      rw [List.getElem?_set_self bound] at otherFound
      cases otherFound
      cases moved with
      | quiet plans => exact plans.trans planning
      | acquires _ plans => exact iff_of_true plans rfl
      | releases _ plans => exact iff_of_false plans (by simp)
    · rw [List.getElem?_set_ne same] at otherFound
      rw [sound.planning other otherRun otherFound]
      cases moved with
      | quiet => rfl
      | acquires free => simp [free, same]
      | releases isHeld => simp [isHeld, same]
  · intro other isCurrent
    simpa using sound.current other isCurrent
  · intro isReadying
    change state.storage = .readying at isReadying
    rcases sound.readying isReadying with ⟨gap, old, isCurrent, notReady⟩
    refine ⟨gap, ?_⟩
    have held := sound.held (by simp [isReadying])
    rcases Option.bind_eq_some_iff.mp isCurrent with ⟨start, isStart, isOld⟩
    simp only [LockState.currentRun, isStart, Option.bind_some,
      Option.mem_def]
    by_cases same : index = start
    · subst same
      rw [found] at isOld
      cases isOld
      refine ⟨next, List.getElem?_set_self bound, ?_⟩
      cases moved with
      | quiet _ names => exact fun isReady => notReady (names.mp isReady)
      | acquires free =>
          rw [held] at free
          cases free
      | releases isHeld =>
          rw [held] at isHeld
          cases isHeld
    · exact ⟨old, (List.getElem?_set_ne same).trans isOld, notReady⟩

/-- One step of the service. -/
theorem step
    (sound : LockSound state) {shards : Nat} {label : LockLabel}
    (stepped : lockStep shards state label = some after) :
    LockSound after := by
  unfold lockStep at stepped
  split at stepped
  next => cases stepped
  next isUp =>
    cases label with
    | check hardLimited =>
        simp only at stepped
        split at stepped
        next ready =>
          split at stepped
          next =>
            cases stepped
            exact { sound with }
          next =>
            cases stepped
            exact sound.check ready.2 hardLimited
        next => cases stepped
    | opened gapId =>
        simp only at stepped
        split at stepped
        next isOpening =>
          cases stepped
          exact sound.opened isOpening gapId
        next => cases stepped
    | stopReturns =>
        simp only at stepped
        split at stepped
        next returns =>
          cases stepped
          have left := sound.leave (sound.held (by simp [returns.1]))
          exact { left with
            current := by simp
            closing := by simp [LockState.leave]
            readying := by simp [LockState.leave] }
        next => cases stepped
    | readyReturns =>
        simp only at stepped
        split at stepped
        next returns =>
          rcases returns with ⟨isReadying, run, isCurrent, -, ready⟩
          rcases sound.readying isReadying with
            ⟨-, other, isOther, notReady⟩
          rw [Option.mem_unique isOther isCurrent] at notReady
          exact absurd (ready "discovery" (by simp [expectedNames])) notReady
        next => cases stepped
    | readyTimesOut =>
        simp only at stepped
        split at stepped
        next returns =>
          cases stepped
          exact sound.stopSources (.inr (sound.held (by simp [returns.1])))
            (sound.readying returns.1).1
        next => cases stepped
    | readyFails =>
        simp only at stepped
        split at stepped
        next =>
          cases stepped
          exact { sound with }
        next => cases stepped
    | recovered =>
        simp only at stepped
        split at stepped
        next isRecovering => exact absurd isRecovering sound.recovering
        next => cases stepped
    | closed =>
        simp only at stepped
        split at stepped
        next isClosing =>
          cases stepped
          have left := sound.leave (sound.held (by simp [isClosing]))
          exact { left with
            opening := by simp [LockState.leave]
            stopping := by simp [LockState.leave]
            closing := by simp [LockState.leave]
            readying := by simp [LockState.leave]
            trace := by simpa [LockState.leave] using sound.trace }
        next => cases stepped
    | storageRaises =>
        simp only at stepped
        split at stepped
        next =>
          cases stepped
          exact { sound with }
        next => cases stepped
    | midnightBegins =>
        simp only at stepped
        split at stepped
        next free =>
          cases stepped
          refine { sound with
            storage := sound.storage.trans (by simp [free])
            planning := ?_ }
          intro index run found
          rw [sound.planning index run found, free]
          simp
        next => cases stepped
    | midnightEnds =>
        simp only at stepped
        split at stepped
        next isHeld =>
          cases stepped
          refine { sound with
            storage := sound.storage.trans (by simp [isHeld])
            planning := ?_
            trace := by simpa using sound.trace }
          intro index run found
          rw [sound.planning index run found, isHeld]
          simp
        next => cases stepped
    | source index label => exact sound.sourceStep stepped
    | serviceStops =>
        cases stepped
        exact { sound with }

end LockSound

/-! ## A pause is not left -/

/-- What the storage loop has got back, without the midnight boundaries. -/
def LockState.recoveries (state : LockState) : List LockEvent :=
  state.trace.filter fun event => event ≠ .boundary

/-- The sources are stopped, or started again by the storage loop. -/
structure Paused (gapId : String) (state : LockState) : Prop where
  gap : state.storageGapId = some gapId
  storage : state.storage = .waiting ∧ state.current = none ∨
    state.storage = .stopping ∨ state.storage = .readying
  notReady : ∀ run ∈ state.currentRun, "discovery" ∉ run.readyNames

namespace Paused

variable {gapId : String} {state after : LockState}

/-- The sources have been stopped while a storage gap is open. -/
theorem of_stopped
    (sound : LockSound state) (stopped : state.current = none)
    (gap : state.storageGapId = some gapId) : Paused gapId state where
  gap := gap
  storage := by
    cases phase : state.storage with
    | waiting => exact .inl ⟨rfl, stopped⟩
    | opening =>
        rw [sound.opening phase] at gap
        cases gap
    | stopping => exact .inr (.inl rfl)
    | readying => exact .inr (.inr rfl)
    | recovering => exact absurd phase sound.recovering
    | closing =>
        have running := sound.closing phase
        rw [stopped] at running
        cases running
  notReady := by simp [LockState.currentRun, stopped]

/-- A start which is stopped does not become ready by it. -/
theorem stopSources (paused : Paused gapId state) :
    Paused gapId state.stopSources ∧
      state.stopSources.recoveries = state.recoveries := by
  cases isCurrent : state.current with
  | none =>
      simp only [LockState.stopSources, isCurrent]
      exact ⟨⟨paused.gap, .inl ⟨rfl, isCurrent⟩, by
        simp [LockState.currentRun, LockState.leave, isCurrent]⟩, rfl⟩
  | some stopped =>
      simp only [LockState.stopSources, isCurrent]
      refine ⟨⟨paused.gap, .inr (.inl rfl), ?_⟩, rfl⟩
      intro run isRun
      simp only [LockState.currentRun, LockState.hold, isCurrent,
        Option.bind_some, List.getElem?_modify_eq, Option.map_eq_map,
        Option.mem_def, Option.map_eq_some_iff] at isRun
      rcases isRun with ⟨before, wasRun, rfl⟩
      refine paused.notReady before ?_
      simp [LockState.currentRun, isCurrent, wasRun]

theorem sourceStep
    (sound : LockSound state) (paused : Paused gapId state) {index : Nat}
    {label : SourceLabel}
    (stepped : state.sourceStep index label = some after) :
    Paused gapId after ∧ after.recoveries = state.recoveries := by
  rcases sourceStep_cases stepped with
    ⟨run, next, holder, found, -, moved, rfl⟩
  have bound := (List.getElem?_eq_some_iff.mp found).1
  refine ⟨⟨paused.gap, paused.storage, ?_⟩, rfl⟩
  intro current isRun
  rcases Option.bind_eq_some_iff.mp isRun with ⟨start, isStart, isCurrent⟩
  change state.current = some start at isStart
  have busy : state.storage ≠ .waiting := by
    rcases paused.storage with ⟨-, stopped⟩ | phase | phase
    · rw [stopped] at isStart
      cases isStart
    · simp [phase]
    · simp [phase]
  have held := sound.held busy
  simp only at isCurrent
  by_cases same : index = start
  · subst same
    rw [List.getElem?_set_self bound] at isCurrent
    cases isCurrent
    have notReady := paused.notReady run
      (by simp [LockState.currentRun, isStart, found])
    cases moved with
    | quiet _ names => exact fun isReady => notReady (names.mp isReady)
    | acquires free =>
        rw [held] at free
        cases free
    | releases isHeld =>
        rw [held] at isHeld
        cases isHeld
  · rw [List.getElem?_set_ne same] at isCurrent
    exact paused.notReady current
      (by simp [LockState.currentRun, isStart, isCurrent])

theorem check (paused : Paused gapId state) (waiting : state.storage = .waiting)
    (hardLimited : Bool) :
    Paused gapId (state.check hardLimited) ∧
      (state.check hardLimited).recoveries = state.recoveries := by
  have stopped : state.current = none := by
    rcases paused.storage with ⟨-, stopped⟩ | phase | phase
    · exact stopped
    · rw [waiting] at phase
      cases phase
    · rw [waiting] at phase
      cases phase
  have gap : state.storageGapId ≠ none := by simp [paused.gap]
  unfold LockState.check
  simp only [if_neg gap, if_pos stopped]
  split
  next => exact paused.stopSources
  next =>
    refine ⟨⟨paused.gap, .inr (.inr rfl), ?_⟩, rfl⟩
    intro run isRun
    simp only [LockState.startSources, LockState.currentRun,
      Option.bind_some, List.getElem?_concat_length, Option.mem_def,
      Option.some.injEq] at isRun
    subst isRun
    exact List.not_mem_nil

/-- One step of the service. -/
theorem step
    (sound : LockSound state) (paused : Paused gapId state) {shards : Nat}
    {label : LockLabel}
    (stepped : lockStep shards state label = some after) :
    Paused gapId after ∧ after.recoveries = state.recoveries := by
  have notOpening : state.storage ≠ .opening := fun isOpening => by
    rcases paused.storage with ⟨phase, -⟩ | phase | phase <;>
      simp [isOpening] at phase
  have notClosing : state.storage ≠ .closing := fun isClosing => by
    rcases paused.storage with ⟨phase, -⟩ | phase | phase <;>
      simp [isClosing] at phase
  have down : Paused gapId state.down ∧
      state.down.recoveries = state.recoveries := ⟨{ paused with }, rfl⟩
  unfold lockStep at stepped
  split at stepped
  next => cases stepped
  next isUp =>
    cases label with
    | check hardLimited =>
        simp only at stepped
        split at stepped
        next ready =>
          split at stepped
          next =>
            cases stepped
            exact down
          next =>
            cases stepped
            exact paused.check ready.1 hardLimited
        next => cases stepped
    | opened gapId =>
        cases stepped
    | stopReturns =>
        simp only at stepped
        split at stepped
        next =>
          cases stepped
          exact ⟨⟨paused.gap, .inl ⟨rfl, rfl⟩, by
            simp [LockState.currentRun]⟩, rfl⟩
        next => cases stepped
    | readyReturns =>
        simp only at stepped
        split at stepped
        next returns =>
          rcases returns with ⟨-, run, isCurrent, -, ready⟩
          exact absurd (ready "discovery" (by simp [expectedNames]))
            (paused.notReady run isCurrent)
        next => cases stepped
    | readyTimesOut =>
        simp only at stepped
        split at stepped
        next =>
          cases stepped
          exact paused.stopSources
        next => cases stepped
    | readyFails =>
        simp only at stepped
        split at stepped
        next =>
          cases stepped
          exact down
        next => cases stepped
    | recovered =>
        simp only [if_neg sound.recovering] at stepped
        cases stepped
    | closed =>
        cases stepped
    | storageRaises =>
        simp only at stepped
        split at stepped
        next =>
          cases stepped
          exact down
        next => cases stepped
    | midnightBegins =>
        simp only at stepped
        split at stepped
        next =>
          cases stepped
          exact ⟨{ paused with }, rfl⟩
        next => cases stepped
    | midnightEnds =>
        simp only at stepped
        split at stepped
        next =>
          cases stepped
          refine ⟨{ paused with }, ?_⟩
          simp [LockState.recoveries]
        next => cases stepped
    | source index label => exact paused.sourceStep sound stepped
    | serviceStops =>
        cases stepped
        exact down

end Paused

/-- What a boot reaches is sound. -/
theorem lockSound_of_run
    {shards : Nat} {start state : LockState} {labels : List LockLabel}
    (boot : Booted start)
    (reached : runFrom (lockStep shards) start labels = some state) :
    LockSound state :=
  invariant_of_run (fun _ _ _ sound _ stepped => sound.step stepped)
    (.booted boot) (stepsMeet_true start labels) reached

/-- What is stopped while the storage gap is open stays paused. -/
theorem Paused.of_run
    {shards : Nat} {start final : LockState} {labels : List LockLabel}
    {gapId : String} (sound : LockSound start) (paused : Paused gapId start)
    (reached : runFrom (lockStep shards) start labels = some final) :
    Paused gapId final ∧ final.recoveries = start.recoveries := by
  have preserved : ∀ state label next,
      (LockSound state ∧ Paused gapId state ∧
        state.recoveries = start.recoveries) →
      True → lockStep shards state label = some next →
      LockSound next ∧ Paused gapId next ∧
        next.recoveries = start.recoveries := by
    rintro state label next ⟨stateSound, statePaused, same⟩ - stepped
    have move := statePaused.step stateSound stepped
    exact ⟨stateSound.step stepped, move.1, move.2.trans same⟩
  exact (invariant_of_run preserved ⟨sound, paused, rfl⟩
    (stepsMeet_true start labels) reached).2

/--
In no run of a boot does the storage loop get the sources ready; and once they
are stopped while a storage gap is open, the gap stays open and the sources do
not become ready in any continuation of the boot.
-/
theorem recovery_never_ready
    {shards : Nat} {start state : LockState} {before : List LockLabel}
    (boot : Booted start)
    (reached : runFrom (lockStep shards) start before = some state) :
    .becameReady ∉ state.trace ∧
      ∀ gapId, state.current = none → state.storageGapId = some gapId →
        ∀ after final,
          runFrom (lockStep shards) state after = some final →
            final.recoveries = state.recoveries ∧
              final.storageGapId = some gapId ∧
              ∀ run ∈ final.currentRun, ¬run.Ready shards := by
  have sound := lockSound_of_run boot reached
  refine ⟨sound.trace, ?_⟩
  intro gapId stopped gap after final continued
  have kept := (Paused.of_stopped sound stopped gap).of_run sound continued
  refine ⟨kept.2, kept.1.gap, fun run isCurrent ready => ?_⟩
  exact kept.1.notReady run isCurrent
    (ready "discovery" (by simp [expectedNames]))

/-- A boot whose sources are ready. -/
def runningBoot : LockState where
  runs := [{ readyNames := expectedNames 1, discovery := .resting }]
  current := some 0

theorem booted_runningBoot : Booted runningBoot where
  waiting := rfl
  trace := rfl
  sources := .inr ⟨_, rfl, rfl, rfl⟩

/-- The spool is full, and the sources stop. -/
def limitedRun : List LockLabel :=
  [.check true, .opened "storage-gap", .source 0 .othersReturn,
    .source 0 (.discovery .wakes), .stopReturns]

/-- There is room again; all but the discovery becomes ready. -/
def resumedRun : List LockLabel :=
  [.check false, .source 1 (.othersReady "public-0"),
    .source 1 (.othersReady "market-0"),
    .source 1 (.othersReady "open_interest"),
    .source 1 (.othersReady "clock"), .source 1 (.discovery .fetched)]

theorem recovery_never_ready_resumed :
    ∃ paused ∈ runFrom (lockStep 1) runningBoot limitedRun,
      ∃ final ∈ runFrom (lockStep 1) paused resumedRun,
        .becameReady ∉ paused.trace ∧
          final.recoveries = paused.recoveries ∧
          final.storageGapId = some "storage-gap" ∧
          ∀ run ∈ final.currentRun, ¬run.Ready 1 := by
  have runs : ∃ paused ∈ runFrom (lockStep 1) runningBoot limitedRun,
      paused.current = none ∧ paused.storageGapId = some "storage-gap" ∧
        (runFrom (lockStep 1) paused resumedRun).isSome := by
    decide +kernel
  rcases runs with ⟨paused, reached, stopped, gap, continues⟩
  have never := recovery_never_ready booted_runningBoot reached
  exact ⟨paused, reached, _, Option.get_mem continues, never.1,
    never.2 _ stopped gap _ _ (Option.get_mem continues)⟩

/-! ## The deadlock -/

/-- The storage loop waits for a start whose discovery loop waits for it. -/
structure Deadlocked (index : Nat) (state : LockState) : Prop where
  stopping : state.storage = .stopping
  current : state.current = some index
  waits : ∃ run, state.runs[index]? = some run ∧
    run.discovery = .locking ∧ run.raised = false

/-- Neither a task of the start raises nor does the service stop. -/
def Unrelieved (index : Nat) (label : LockLabel) : Prop :=
  label ≠ .source index .otherRaises ∧ label ≠ .serviceStops

namespace Deadlocked

variable {index : Nat} {state after : LockState}

theorem not_done (deadlocked : Deadlocked index state) :
    ¬∃ run ∈ state.currentRun, run.Done := by
  rintro ⟨run, isCurrent, isDone⟩
  rcases deadlocked.waits with ⟨waiting, found, locking, running⟩
  simp only [LockState.currentRun, deadlocked.current, Option.bind_some,
    found, Option.mem_def, Option.some.injEq] at isCurrent
  subst isCurrent
  rcases isDone with raised | ⟨-, ended⟩
  · rw [running] at raised
    cases raised
  · rw [locking] at ended
    cases ended

/-- The discovery loop does not get on without the lock. -/
theorem sourceStep
    (deadlocked : Deadlocked index state)
    (held : state.holder = some .storageLoop)
    {other : Nat} {label : SourceLabel}
    (quiet : Unrelieved index (.source other label))
    (stepped : state.sourceStep other label = some after) :
    Deadlocked index after ∧ after.trace = state.trace := by
  rcases sourceStep_cases stepped with
    ⟨run, next, holder, found, labelled, moved, rfl⟩
  refine ⟨⟨deadlocked.stopping, deadlocked.current, ?_⟩, rfl⟩
  rcases deadlocked.waits with ⟨waiting, isWaiting, locking, running⟩
  by_cases same : other = index
  · subst same
    rw [found] at isWaiting
    cases isWaiting
    refine ⟨next, List.getElem?_set_self
      (List.getElem?_eq_some_iff.mp found).1, ?_⟩
    cases label with
    | othersReady name =>
        simp only [SourceRun.step] at labelled
        split at labelled
        next => cases labelled
        next =>
          cases labelled
          exact ⟨locking, running⟩
    | othersReturn =>
        simp only [SourceRun.step] at labelled
        split at labelled
        next =>
          cases labelled
          exact ⟨locking, running⟩
        next => cases labelled
    | otherRaises => exact absurd rfl quiet.1
    | discovery label =>
        rcases Option.map_eq_some_iff.mp labelled with ⟨phase, went, rfl⟩
        have phases := DiscoveryPhase.step_leads went
        cases label with
        | acquires =>
            cases moved with
            | quiet plans =>
                rw [locking, phases.2] at plans
                cases plans.mp rfl
            | acquires free =>
                rw [held] at free
                cases free
            | releases isHeld =>
                rw [held] at isHeld
                cases isHeld
        | fetched | fetchFails | wakes | planned | overloaded | planFails =>
            cases locking.symm.trans phases.1
  · exact ⟨waiting, (List.getElem?_set_ne same).trans isWaiting, locking,
      running⟩

theorem step
    (sound : LockSound state) (deadlocked : Deadlocked index state)
    {shards : Nat} {label : LockLabel} (quiet : Unrelieved index label)
    (stepped : lockStep shards state label = some after) :
    Deadlocked index after ∧ after.trace = state.trace := by
  have phase := deadlocked.stopping
  have held := sound.held (by simp [phase])
  unfold lockStep at stepped
  split at stepped
  next => cases stepped
  next isUp =>
    cases label with
    | source other label => exact deadlocked.sourceStep held quiet stepped
    | serviceStops => exact absurd rfl quiet.2
    | stopReturns =>
        simp only [deadlocked.not_done, and_false, if_false] at stepped
        cases stepped
    | check hardLimited => simp [phase] at stepped
    | opened gapId => simp [phase] at stepped
    | readyReturns => simp [phase] at stepped
    | readyTimesOut => simp [phase] at stepped
    | readyFails => simp [phase] at stepped
    | recovered => simp [phase] at stepped
    | closed => simp [phase] at stepped
    | storageRaises => simp [phase] at stepped
    | midnightBegins => simp [held] at stepped
    | midnightEnds => simp [held] at stepped

end Deadlocked

/--
When the storage loop stops the sources while their discovery loop waits for
the lock, nothing but an error of another task of the sources ends its wait: no
check is made, no midnight boundary applied and no day sealed before that.
-/
theorem recovery_deadlock
    {shards : Nat} {start state final : LockState} {index : Nat}
    {before after : List LockLabel} (boot : Booted start)
    (reached : runFrom (lockStep shards) start before = some state)
    (deadlocked : Deadlocked index state)
    (quiet : ∀ label ∈ after, Unrelieved index label)
    (continued : runFrom (lockStep shards) state after = some final) :
    Deadlocked index final ∧ final.holder = some .storageLoop ∧
      final.trace = state.trace := by
  have preserved : ∀ earlier label later,
      (LockSound earlier ∧ Deadlocked index earlier ∧
        earlier.trace = state.trace) →
      Unrelieved index label → lockStep shards earlier label = some later →
      LockSound later ∧ Deadlocked index later ∧
        later.trace = state.trace := by
    rintro earlier label later ⟨sound, still, same⟩ undisturbed stepped
    have move := still.step sound undisturbed stepped
    exact ⟨sound.step stepped, move.1, move.2.trans same⟩
  have kept := invariant_of_run preserved
    ⟨lockSound_of_run boot reached, deadlocked, rfl⟩
    (stepsMeet_of_forall (fun label isLater _ => quiet label isLater) state)
    continued
  exact ⟨kept.2.1, kept.1.held (by simp [kept.2.1.stopping]), kept.2.2⟩

/-- The readiness times out; the tasks of the sources but one return. -/
def deadlockedRun : List LockLabel :=
  limitedRun ++ resumedRun ++ [.readyTimesOut]

theorem recovery_deadlock_resumed :
    ∃ state ∈ runFrom (lockStep 1) runningBoot deadlockedRun,
      ∃ final ∈ runFrom (lockStep 1) state [.source 1 .othersReturn],
        Deadlocked 1 final ∧ final.holder = some .storageLoop ∧
          final.trace = state.trace := by
  have runs : ∃ state ∈ runFrom (lockStep 1) runningBoot deadlockedRun,
      (state.storage = .stopping ∧ state.current = some 1 ∧
        ∃ run ∈ state.runs[1]?, run.discovery = .locking ∧
          run.raised = false) ∧
        (runFrom (lockStep 1) state [.source 1 .othersReturn]).isSome := by
    decide +kernel
  rcases runs with
    ⟨state, reached, ⟨stopping, current, waits⟩, continues⟩
  refine ⟨state, reached, _, Option.get_mem continues,
    recovery_deadlock booted_runningBoot reached
      ⟨stopping, current, waits⟩ ?_ (Option.get_mem continues)⟩
  intro label isLabel
  rw [List.mem_singleton.mp isLabel]
  exact ⟨by decide, by decide⟩

end ShadowDataPlane.Edge
