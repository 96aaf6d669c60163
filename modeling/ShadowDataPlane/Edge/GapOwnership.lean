import ShadowDataPlane.Edge.KnownGaps
import ShadowDataPlane.Edge.SourceGroup

/-!
# Who closes an open gap

The ID of an open gap is kept by whoever will close it.  A route, a liveness
loop, a poller and a re-anchor task keep it in a local variable, the midnight
task its boundary gap likewise, and the service the gap of a storage pause and
the gaps which its boot has found.

A task which ends takes its variables along.  A storage pause ends all tasks of
the sources, a universe decision the open interest tasks of the symbols which
left, and the end of a connection its re-anchor tasks.  The list of stale gaps
is loaded once per boot, so nobody gets to know a gap which was left
(`handsOver_iff`).

A gap counts as held by the task which opens it from the start of its
`gaps.open`: the state file is there before the ID comes back, and nobody but
the task gets the ID.

The service is the machine of the storage pause.  What the tasks do between
opening and closing a gap is theirs, and so is when they do it; what the
operation lock holds back only takes runs away.  A task which fails keeps its variables until the
sources are stopped: the next check of the storage loop ends the process.
-/

namespace ShadowDataPlane.Edge

open ShadowDataPlane.Contracts
open ShadowDataPlane.Foundation

/-! ## Tasks and their variables -/

/-- A coroutine which opens gaps and closes them. -/
inductive GapTask where
  /-- `RouteRunner.run`. -/
  | route (name : RouteName)
  | liveness (name : RouteName)
  /-- The re-anchor task of a depth stream, and the opening of its gap. -/
  | reanchor (connectionId : String) (key : LivenessKey)
  | openInterest (symbol : String)
  | discovery
  | clock
  /-- `_apply_midnight_boundary`, a task of the service itself. -/
  | midnight
deriving DecidableEq

namespace GapTask

def reasons : GapTask → List GapReason
  | .route _ | .openInterest _ | .discovery | .clock =>
      [.connectionLost, .ingestOverload]
  | .liveness _ => [.connectionLost]
  | .reanchor _ _ => [.l2Sequence]
  | .midnight => [.plannedBoundary]

/-- `active_gaps` has an entry for each stream, the others have one variable. -/
def Declares : GapTask → Option LivenessKey → Bool
  | .liveness _, key => key.isSome
  | .route _, key | .reanchor _ _, key | .openInterest _, key
  | .discovery, key | .clock, key | .midnight, key => key.isNone

end GapTask

/-- A variable of a task in which the ID of a gap is kept. -/
abbrev GapVariable := GapTask × Option LivenessKey

/-- What `SourceManager._run` starts. -/
def sourceTasks (shards : Nat) (members : List String) : List GapTask :=
  (List.range (min shards members.length)).flatMap (fun index =>
      [.route (.publicShard index), .liveness (.publicShard index)]) ++
    [.route .market, .liveness .market] ++ members.map .openInterest ++
      [.discovery, .clock]

/-- The service, its tasks and the gaps which they keep. -/
structure OwnershipState where
  service : PauseState
  /-- `UniverseStore.active.members`. -/
  members : List String
  tasks : List GapTask := []
  held : Dict GapVariable String := Dict.empty
deriving DecidableEq

/-- The steps of the service and of the tasks which keep gaps. -/
inductive OwnershipLabel where
  | service (label : PauseLabel)
  | opens (holder : GapVariable) (gapId : String) (reason : GapReason)
  | closes (holder : GapVariable)
  | begins (task : GapTask)
  | ends (task : GapTask)
  /-- A universe decision is applied, at midnight or by a boot. -/
  | decides (members : List String)
deriving DecidableEq

/-! ## Steps -/

namespace OwnershipState

/-- The stop event of the sources is set, or is about to be. -/
def StopSet (state : OwnershipState) : Prop :=
  state.service.phase.stopSet = true ∨ state.service.phase = .stopping

instance (state : OwnershipState) : Decidable state.StopSet :=
  inferInstanceAs (Decidable (_ ∨ _))

/-- The gaps of the tasks are theirs, and the ID of a gap is new. -/
def Allows (state : OwnershipState) (label : PauseLabel) : Prop :=
  label.Own = true ∧
    match label with
    | .opened gapId => gapId ∉ state.service.listed
    | _ => True

instance (state : OwnershipState) :
    (label : PauseLabel) → Decidable (state.Allows label)
  | .opened _ => inferInstanceAs (Decidable (_ ∧ _ ∉ _))
  | .boot | .recover _ | .status _ | .ready | .timeout | .failure | .work
  | .sourceFails | .discovery _ | .openOther _ _ | .closeOther _ | .stop
  | .crash =>
      inferInstanceAs (Decidable (_ ∧ True))

/--
What becomes of the tasks: a process which boots has none, sources which are
started have theirs, and the service waits for all of them when it stops them.
-/
def follow (shards : Nat) (state : OwnershipState) (service : PauseState) :
    Option OwnershipState :=
  if service.phase.Booting then some { service, members := state.members }
  else if service.sources.running then
    some { state with
      service
      tasks :=
        if state.service.sources.running then state.tasks
        else sourceTasks shards state.members ++ state.tasks }
  else if state.tasks = [] then some { state with service }
  else none

/-- The task may open the gap and keep its ID in the variable. -/
def MayOpen (state : OwnershipState) (holder : GapVariable) (gapId : String)
    (reason : GapReason) : Prop :=
  holder.1.Declares holder.2 = true ∧ reason ∈ holder.1.reasons ∧
    (holder.1 ∈ state.tasks ∨ holder.1 = .midnight) ∧
    state.held.get? holder = none ∧ gapId ∉ state.service.listed ∧
    state.service.phase.Booting = false

/-- A re-anchor task is made for a gap, a poller for a symbol which came. -/
def MayBegin (state : OwnershipState) (task : GapTask) : Prop :=
  state.service.sources.running = true ∧ task ∉ state.tasks ∧
    match task with
    | .reanchor _ _ => True
    | .openInterest symbol => symbol ∈ state.members
    | .route _ | .liveness _ | .discovery | .clock | .midnight => False

/--
The tasks of the sources end when they are stopped, the poller of a symbol also
when the symbol has left, and a re-anchor task also with its connection.
-/
def MayEnd (state : OwnershipState) (task : GapTask) : Prop :=
  task ∈ state.tasks ∧
    match task with
    | .reanchor _ _ => True
    | .openInterest symbol => state.StopSet ∨ symbol ∉ state.members
    | .route _ | .liveness _ | .discovery | .clock => state.StopSet
    | .midnight => False

instance (state : OwnershipState) (holder : GapVariable) (gapId : String)
    (reason : GapReason) : Decidable (state.MayOpen holder gapId reason) :=
  inferInstanceAs (Decidable (_ ∧ _ ∧ _ ∧ _ ∧ _ ∧ _))

instance (state : OwnershipState) :
    (task : GapTask) → Decidable (state.MayBegin task)
  | .reanchor _ _ => inferInstanceAs (Decidable (_ ∧ _ ∧ True))
  | .openInterest _ => inferInstanceAs (Decidable (_ ∧ _ ∧ _ ∈ _))
  | .route _ | .liveness _ | .discovery | .clock | .midnight =>
      inferInstanceAs (Decidable (_ ∧ _ ∧ False))

instance (state : OwnershipState) :
    (task : GapTask) → Decidable (state.MayEnd task)
  | .reanchor _ _ => inferInstanceAs (Decidable (_ ∧ True))
  | .openInterest _ => inferInstanceAs (Decidable (_ ∧ (_ ∨ _ ∉ _)))
  | .route _ | .liveness _ | .discovery | .clock =>
      inferInstanceAs (Decidable (_ ∧ state.StopSet))
  | .midnight => inferInstanceAs (Decidable (_ ∧ False))

/-- A task which ends takes its variables along. -/
def withoutTask (state : OwnershipState) (task : GapTask) : OwnershipState :=
  { state with
    tasks := state.tasks.filter (· ≠ task)
    held := state.held.filterKey fun holder => holder.1 ≠ task }

end OwnershipState

/-- One step of the service or of a task. -/
def ownershipStep (shards : Nat) (state : OwnershipState) :
    OwnershipLabel → Option OwnershipState
  | .service label =>
      if state.Allows label then
        (pauseStep state.service label).bind (state.follow shards)
      else none
  | .opens holder gapId reason =>
      if state.MayOpen holder gapId reason then
        (pauseStep state.service (.openOther gapId reason)).map fun service =>
          { state with service, held := state.held.set holder gapId }
      else none
  | .closes holder =>
      match state.held.get? holder with
      | none => none
      | some gapId =>
          (pauseStep state.service (.closeOther gapId)).map fun service =>
            { state with service, held := state.held.erase holder }
  | .begins task =>
      if state.MayBegin task then
        some { state with tasks := task :: state.tasks }
      else none
  | .ends task =>
      if state.MayEnd task then some (state.withoutTask task) else none
  | .decides members =>
      if state.service.phase = .waiting ∨ state.service.phase = .recover then
        some { state with members }
      else none

/-! ## The property -/

namespace OwnershipState

/-- A live task, the storage gap field or the stale list has the gap. -/
def Closable (state : OwnershipState) (gapId : String) : Prop :=
  (∃ holder, (holder.1 ∈ state.tasks ∨ holder.1 = .midnight) ∧
    state.held.get? holder = some gapId) ∨
  state.service.storageGapId = some gapId ∨ gapId ∈ state.service.listed

/-- Every gap in `open-gaps` is one which this process can still close. -/
def Owned (state : OwnershipState) : Prop :=
  state.service.phase.Serving = true →
    ∀ gapId, IsOpen state.service.gaps gapId → state.Closable gapId

/-- The task holds no gap. -/
def HoldsNothing (state : OwnershipState) (task : GapTask) : Prop :=
  ∀ entry ∈ state.held.entries, entry.1.1 ≠ task

instance (state : OwnershipState) (task : GapTask) :
    Decidable (state.HoldsNothing task) :=
  inferInstanceAs (Decidable (∀ entry ∈ _, _))

end OwnershipState

/-- The symbol of the task has left, or the sources have become ready again. -/
def Due (before : OwnershipState) (task : GapTask)
    (middle : List OwnershipLabel) (final : OwnershipState) : Prop :=
  (∃ symbol, task = .openInterest symbol ∧ symbol ∉ before.members) ∨
    .service .ready ∈ middle ∧ final.service.phase.closing = []

/-- A gap which a task has left is closed when it is due. -/
def ClosedInTime (shards : Nat) (start : OwnershipState)
    (labels : List OwnershipLabel) : Prop :=
  ∀ earlier task middle later before final,
    labels = earlier ++ .ends task :: (middle ++ later) →
    runFrom (ownershipStep shards) start earlier = some before →
    runFrom (ownershipStep shards) before (.ends task :: middle) = some final →
    before.service.phase.Serving = true → Due before task middle final →
    ∀ holder gapId, holder.1 = task → before.held.get? holder = some gapId →
      ¬ IsOpen final.service.gaps gapId

/-- In every state each open gap can be closed, and what is left is closed. -/
def HandsOver (shards : Nat) (start : OwnershipState)
    (labels : List OwnershipLabel) : Prop :=
  Throughout (ownershipStep shards) OwnershipState.Owned start labels ∧
    ClosedInTime shards start labels

/-- While the process serves, a task ends without a gap. -/
def EndsClosed (state : OwnershipState) : OwnershipLabel → Prop
  | .ends task =>
      state.service.phase.Serving = true → state.HoldsNothing task
  | .service _ | .opens _ _ _ | .closes _ | .begins _ | .decides _ => True

instance (state : OwnershipState) :
    (label : OwnershipLabel) → Decidable (EndsClosed state label)
  | .ends _ => inferInstanceAs (Decidable (_ → _))
  | .service _ | .opens _ _ _ | .closes _ | .begins _ | .decides _ => .isTrue trivial

/-! ## The invariant -/

/--
The gaps which tasks hold are open, each is held once, and the service does not
know them; every open gap is one which somebody can close.
-/
structure OwnershipSound (state : OwnershipState) : Prop where
  booting : state.service.phase.Booting = true →
    ∀ holder, state.held.get? holder = none
  live : ∀ holder gapId, state.held.get? holder = some gapId →
    holder.1 ∈ state.tasks ∨ holder.1 = .midnight
  isOpen : ∀ holder gapId, state.held.get? holder = some gapId →
    IsOpen state.service.gaps gapId
  distinct : ∀ holder other gapId, state.held.get? holder = some gapId →
    state.held.get? other = some gapId → holder = other
  apart : ∀ holder gapId, state.held.get? holder = some gapId →
    state.service.storageGapId ≠ some gapId ∧ gapId ∉ state.service.listed
  storage : ∀ gapId, state.service.storageGapId = some gapId →
    IsOpen state.service.gaps gapId
  openGap : state.service.phase = .openGap →
    state.service.storageGapId = none
  owned : state.Owned

namespace OwnershipSound

variable {state after : OwnershipState}

/-- A process which has read the open gaps, and no task. -/
theorem loaded
    {service : PauseState} (isLoaded : Loaded service)
    (members : List String) : OwnershipSound { service, members } where
  booting _ _ := rfl
  live := by rintro holder gapId ⟨⟩
  isOpen := by rintro holder gapId ⟨⟩
  distinct := by rintro holder other gapId ⟨⟩
  apart := by rintro holder gapId ⟨⟩
  storage := isLoaded.storage
  openGap := by
    intro isOpenGap
    have booting := isLoaded.booting
    rw [show service.phase = .openGap from isOpenGap] at booting
    cases booting
  owned serving gapId isOpen :=
    Or.inr (Or.inr (isLoaded.listed serving gapId isOpen))

/-- The service takes a step, and the tasks keep their gaps. -/
theorem service
    (sound : OwnershipSound state)
    (stepped : ServiceStep state.service after.service)
    (sameHeld : ∀ holder, after.held.get? holder = state.held.get? holder)
    (live : ∀ holder gapId, state.held.get? holder = some gapId →
      holder.1 ∈ after.tasks ∨ holder.1 = .midnight) :
    OwnershipSound after where
  booting isBooting holder := by
    rw [sameHeld]
    exact sound.booting (stepped.booting isBooting) holder
  live holder gapId isHeld := live holder gapId (sameHeld holder ▸ isHeld)
  isOpen holder gapId isHeld := by
    rw [sameHeld] at isHeld
    have apart := sound.apart holder gapId isHeld
    exact (stepped.move.of_unknown (sound.isOpen holder gapId isHeld) apart.1
      apart.2).1
  distinct holder other gapId isHeld isOther := by
    rw [sameHeld] at isHeld isOther
    exact sound.distinct holder other gapId isHeld isOther
  apart holder gapId isHeld := by
    rw [sameHeld] at isHeld
    have apart := sound.apart holder gapId isHeld
    exact (stepped.move.of_unknown (sound.isOpen holder gapId isHeld) apart.1
      apart.2).2
  storage gapId := stepped.move.storage sound.storage
  openGap := stepped.openGap
  owned := by
    intro serving gapId isOpen
    rcases stepped.move.known serving isOpen with isStorage | ⟨wasOpen, known⟩
    · exact Or.inr (Or.inl isStorage)
    · rcases sound.owned (stepped.serving serving) gapId wasOpen with
        ⟨holder, _, isHeld⟩ | byService
      · refine Or.inl ⟨holder, live holder gapId isHeld, ?_⟩
        rw [sameHeld]
        exact isHeld
      · exact Or.inr (known byService)

/-- The service takes a step, and the tasks follow. -/
theorem follow
    (sound : OwnershipSound state) {shards : Nat} {service : PauseState}
    (moved : Loaded service ∨ ServiceStep state.service service)
    (followed : state.follow shards service = some after) :
    OwnershipSound after := by
  rw [OwnershipState.follow] at followed
  split at followed
  next isBooting =>
    cases followed
    rcases moved with isLoaded | stepped
    · exact loaded isLoaded state.members
    · have noneHeld := sound.booting (stepped.booting isBooting)
      refine sound.service stepped (fun holder => (noneHeld holder).symm) ?_
      intro holder gapId isHeld
      cases (noneHeld holder).symm.trans isHeld
  next notBooting =>
    have stepped : ServiceStep state.service service :=
      moved.resolve_left fun isLoaded => notBooting isLoaded.booting
    split at followed
    next =>
      cases followed
      refine sound.service stepped (fun _ => rfl) fun holder gapId isHeld => ?_
      refine (sound.live holder gapId isHeld).imp_left fun isTask => ?_
      dsimp only
      split
      next => exact isTask
      next => exact List.mem_append_right _ isTask
    next =>
      split at followed
      next =>
        cases followed
        exact sound.service stepped (fun _ => rfl) sound.live
      next => cases followed

/-- A task opens a gap with a new ID. -/
theorem opens
    (sound : OwnershipSound state) {holder : GapVariable} {gapId : String}
    {reason : GapReason} {service : PauseState}
    (mayOpen : state.MayOpen holder gapId reason)
    (stepped : pauseStep state.service (.openOther gapId reason) =
      some service) :
    OwnershipSound
      { state with service, held := state.held.set holder gapId } := by
  have opened : Unopened state.service gapId ∧ service =
      { state.service with
        gaps := state.service.gaps.set gapId reason } := by
    cases pauseStep_effect stepped with
    | openOther unopened => exact ⟨unopened, rfl⟩
  rcases opened with ⟨unopened, rfl⟩
  rcases mayOpen with ⟨_, _, isLive, free, unlisted, notBooting⟩
  have notOpen : ¬ IsOpen state.service.gaps gapId := by
    rw [IsOpen, unopened]
    rintro ⟨⟩
  have notHeld (other : GapVariable) :
      state.held.get? other ≠ some gapId :=
    fun isHeld => notOpen (sound.isOpen other gapId isHeld)
  have notStorage : state.service.storageGapId ≠ some gapId :=
    fun isStorage => notOpen (sound.storage gapId isStorage)
  refine {
    booting := fun isBooting =>
      absurd (notBooting.symm.trans isBooting) (by rintro ⟨⟩)
    live := ?_
    isOpen := ?_
    distinct := ?_
    apart := ?_
    storage := fun storageGapId isStorage =>
      isOpen_set.mpr (Or.inr (sound.storage storageGapId isStorage))
    openGap := sound.openGap
    owned := ?_ }
  · intro other otherGap isHeld
    rw [Dict.get?_set] at isHeld
    split at isHeld
    next same => exact same ▸ isLive
    next => exact sound.live other otherGap isHeld
  · intro other otherGap isHeld
    rw [Dict.get?_set] at isHeld
    split at isHeld
    next =>
      cases isHeld
      exact isOpen_set.mpr (Or.inl rfl)
    next =>
      exact isOpen_set.mpr (Or.inr (sound.isOpen other otherGap isHeld))
  · intro left right otherGap isLeft isRight
    rw [Dict.get?_set] at isLeft isRight
    split at isLeft
    next isHolder =>
      cases isLeft
      split at isRight
      next isHolder' => rw [isHolder, isHolder']
      next => exact absurd isRight (notHeld right)
    next =>
      split at isRight
      next =>
        cases isRight
        exact absurd isLeft (notHeld left)
      next => exact sound.distinct left right otherGap isLeft isRight
  · intro other otherGap isHeld
    rw [Dict.get?_set] at isHeld
    split at isHeld
    next =>
      cases isHeld
      exact ⟨notStorage, unlisted⟩
    next => exact sound.apart other otherGap isHeld
  · intro serving otherGap isOpen
    rcases isOpen_set.mp isOpen with rfl | wasOpen
    · exact Or.inl ⟨holder, isLive, Dict.get?_set_self _ _ _⟩
    · refine (sound.owned serving otherGap wasOpen).imp_left ?_
      rintro ⟨other, otherLive, isHeld⟩
      refine ⟨other, otherLive, ?_⟩
      dsimp only
      rw [Dict.get?_set, if_neg]
      · exact isHeld
      · rintro rfl
        cases free.symm.trans isHeld

/-- A task closes the gap which it holds. -/
theorem closes
    (sound : OwnershipSound state) {holder : GapVariable} {gapId : String}
    {service : PauseState} (isHeld : state.held.get? holder = some gapId)
    (stepped : pauseStep state.service (.closeOther gapId) = some service) :
    OwnershipSound
      { state with service, held := state.held.erase holder } := by
  have isService : service =
      { state.service with gaps := state.service.gaps.erase gapId } := by
    cases pauseStep_effect stepped with
    | closeOther => rfl
  rw [isService]
  have isApart := sound.apart holder gapId isHeld
  have held_of {other : GapVariable} {otherGap : String}
      (isOther : (state.held.erase holder).get? other = some otherGap) :
      state.held.get? other = some otherGap ∧ otherGap ≠ gapId := by
    rw [Dict.get?_erase] at isOther
    split at isOther
    next => cases isOther
    next notHolder =>
      refine ⟨isOther, ?_⟩
      rintro rfl
      exact notHolder (sound.distinct other holder otherGap isOther isHeld)
  refine {
    booting := ?_
    live := fun other otherGap isOther =>
      sound.live other otherGap (held_of isOther).1
    isOpen := fun other otherGap isOther => isOpen_erase.mpr
      ⟨(held_of isOther).2, sound.isOpen other otherGap (held_of isOther).1⟩
    distinct := fun left right otherGap isLeft isRight =>
      sound.distinct left right otherGap (held_of isLeft).1 (held_of isRight).1
    apart := fun other otherGap isOther =>
      sound.apart other otherGap (held_of isOther).1
    storage := ?_
    openGap := sound.openGap
    owned := ?_ }
  · intro isBooting other
    cases (sound.booting isBooting holder).symm.trans isHeld
  · intro storageGapId isStorage
    refine isOpen_erase.mpr ⟨?_, sound.storage storageGapId isStorage⟩
    rintro rfl
    exact isApart.1 isStorage
  · intro serving otherGap isOpen
    rcases isOpen_erase.mp isOpen with ⟨notClosed, wasOpen⟩
    refine (sound.owned serving otherGap wasOpen).imp_left ?_
    rintro ⟨other, isLive, isOther⟩
    refine ⟨other, isLive, ?_⟩
    dsimp only
    rw [Dict.get?_erase, if_neg]
    · exact isOther
    · rintro rfl
      rw [isHeld] at isOther
      exact notClosed (Option.some.inj isOther).symm

/-- A task ends which holds no gap, or in a process which is about to end. -/
theorem ends
    (sound : OwnershipSound state) {task : GapTask}
    (endsClosed : state.service.phase.Serving = true →
      state.HoldsNothing task) :
    OwnershipSound (state.withoutTask task) := by
  have held_iff (holder : GapVariable) (gapId : String) :
      (state.withoutTask task).held.get? holder = some gapId ↔
        holder.1 ≠ task ∧ state.held.get? holder = some gapId := by
    rw [OwnershipState.withoutTask, Dict.get?_filterKey]
    simp
  have still {holder : GapVariable} (notEnded : holder.1 ≠ task)
      (isLive : holder.1 ∈ state.tasks ∨ holder.1 = .midnight) :
      holder.1 ∈ (state.withoutTask task).tasks ∨ holder.1 = .midnight :=
    isLive.imp_left fun isTask =>
      List.mem_filter.mpr ⟨isTask, decide_eq_true notEnded⟩
  exact {
    booting := by
      intro isBooting holder
      cases isHeld : (state.withoutTask task).held.get? holder with
      | none => rfl
      | some gapId =>
          have wasHeld := ((held_iff holder gapId).mp isHeld).2
          cases (sound.booting isBooting holder).symm.trans wasHeld
    live := by
      intro holder gapId isHeld
      rcases (held_iff holder gapId).mp isHeld with ⟨notEnded, wasHeld⟩
      exact still notEnded (sound.live holder gapId wasHeld)
    isOpen := fun holder gapId isHeld =>
      sound.isOpen holder gapId ((held_iff holder gapId).mp isHeld).2
    distinct := fun left right gapId isLeft isRight =>
      sound.distinct left right gapId ((held_iff left gapId).mp isLeft).2
        ((held_iff right gapId).mp isRight).2
    apart := fun holder gapId isHeld =>
      sound.apart holder gapId ((held_iff holder gapId).mp isHeld).2
    storage := sound.storage
    openGap := sound.openGap
    owned := by
      intro serving gapId isOpen
      refine (sound.owned serving gapId isOpen).imp_left ?_
      rintro ⟨holder, isLive, isHeld⟩
      have notEnded : holder.1 ≠ task :=
        endsClosed serving (holder, gapId) ((Dict.mem_entries_iff _).mpr isHeld)
      exact ⟨holder, still notEnded isLive,
        (held_iff holder gapId).mpr ⟨notEnded, isHeld⟩⟩ }

/-- There are more tasks, or the universe or the timeout is another. -/
theorem moreTasks
    (sound : OwnershipSound state) (sameService : after.service = state.service)
    (sameHeld : after.held = state.held)
    (more : ∀ task ∈ state.tasks, task ∈ after.tasks) :
    OwnershipSound after := by
  refine sound.service ?_ (fun holder => by rw [sameHeld]) ?_
  · rw [sameService]
    exact {
      move := .idle rfl rfl (fun _ => id) (fun _ _ => id)
      serving := id
      booting := id
      openGap := sound.openGap }
  · intro holder gapId isHeld
    exact (sound.live holder gapId isHeld).imp_left (more holder.1)

theorem step
    (sound : OwnershipSound state) {shards : Nat} {label : OwnershipLabel}
    (endsClosed : EndsClosed state label)
    (stepped : ownershipStep shards state label = some after) :
    OwnershipSound after := by
  cases label with
  | service label =>
      rw [ownershipStep] at stepped
      split at stepped
      next allows =>
        rcases Option.bind_eq_some_iff.mp stepped with
          ⟨service, moved, followed⟩
        exact sound.follow
          (service_cases allows.1 sound.storage sound.openGap moved) followed
      next => cases stepped
  | opens holder gapId reason =>
      rw [ownershipStep] at stepped
      split at stepped
      next mayOpen =>
        rcases Option.map_eq_some_iff.mp stepped with ⟨service, moved, rfl⟩
        exact sound.opens mayOpen moved
      next => cases stepped
  | closes holder =>
      rw [ownershipStep] at stepped
      split at stepped
      next => cases stepped
      next gapId isHeld =>
        rcases Option.map_eq_some_iff.mp stepped with ⟨service, moved, rfl⟩
        exact sound.closes isHeld moved
  | begins task =>
      rw [ownershipStep] at stepped
      split at stepped
      next =>
        cases stepped
        exact sound.moreTasks rfl rfl fun _ => List.mem_cons_of_mem task
      next => cases stepped
  | ends task =>
      rw [ownershipStep] at stepped
      split at stepped
      next =>
        cases stepped
        exact sound.ends endsClosed
      next => cases stepped
  | decides members =>
      rw [ownershipStep] at stepped
      split at stepped
      next =>
        cases stepped
        exact sound.moreTasks rfl rfl fun _ => id
      next => cases stepped

/-- A gap which an ended task held is nobody's. -/
theorem endsClosed_of_owned
    (sound : OwnershipSound state) {shards : Nat} {label : OwnershipLabel}
    (stepped : ownershipStep shards state label = some after)
    (owned : after.Owned) : EndsClosed state label := by
  cases label with
  | ends task =>
      rw [ownershipStep] at stepped
      split at stepped
      next =>
        cases stepped
        intro serving entry isEntry isTask
        have isHeld : state.held.get? entry.1 = some entry.2 :=
          (Dict.mem_entries_iff _).mp isEntry
        rcases owned serving entry.2 (sound.isOpen _ _ isHeld) with
          ⟨holder, _, isOther⟩ | byService
        · rw [OwnershipState.withoutTask, Dict.get?_filterKey] at isOther
          split at isOther
          next notEnded =>
            have same := sound.distinct entry.1 holder entry.2 isHeld isOther
            rw [← same] at notEnded
            exact of_decide_eq_true notEnded isTask
          next => cases isOther
        · have apart := sound.apart entry.1 entry.2 isHeld
          exact byService.elim apart.1 apart.2
      next => cases stepped
  | service _ | opens _ _ _ | closes _ | begins _ | decides _ => trivial

end OwnershipSound

/-- Before the first boot. -/
def startOwnership (stale : Dict String GapReason) (members : List String) :
    OwnershipState where
  service := { gaps := stale }
  members

theorem ownershipSound_start
    (stale : Dict String GapReason) (members : List String) :
    OwnershipSound (startOwnership stale members) :=
  OwnershipSound.loaded
    ⟨rfl, by rintro gapId ⟨⟩, by rintro ⟨⟩⟩ members

/-- If no task ends with a gap, none is left to be closed. -/
theorem closedInTime_of_endsClosed
    {shards : Nat} {start : OwnershipState} {labels : List OwnershipLabel}
    (meets : StepsMeet (ownershipStep shards) EndsClosed start labels) :
    ClosedInTime shards start labels := by
  rintro earlier task middle later before final rfl reached _ serving _
    holder gapId isTask isHeld
  have holdsNothing := (meets.of_append.2 before reached).1 serving
  exact absurd isTask
    (holdsNothing (holder, gapId) ((Dict.mem_entries_iff _).mpr isHeld))

/--
With any stale gaps and over any number of boots, pauses and decisions, every
open gap can be closed, and what a task leaves is closed in time, exactly if no
task ends with a gap while the process serves.
-/
theorem handsOver_iff
    (shards : Nat) (stale : Dict String GapReason) (members : List String)
    {labels : List OwnershipLabel} {final : OwnershipState}
    (reached : runFrom (ownershipStep shards) (startOwnership stale members)
      labels = some final) :
    HandsOver shards (startOwnership stale members) labels ↔
      StepsMeet (ownershipStep shards) EndsClosed
        (startOwnership stale members) labels := by
  have owned_iff := throughout_iff_stepsMeet
    (fun _ _ _ before endsClosed stepped => before.step endsClosed stepped)
    (fun _ sound => sound.owned)
    (fun _ _ _ sound stepped owned => sound.endsClosed_of_owned stepped owned)
    (ownershipSound_start stale members) reached
  constructor
  · intro handsOver
    exact owned_iff.mp handsOver.1
  · intro meets
    exact ⟨owned_iff.mpr meets, closedInTime_of_endsClosed meets⟩

/-! ## Two runs -/

/-- A boot without stale gaps, whose sources become ready. -/
def readyBoot : List OwnershipLabel :=
  [.service .boot, .service (.recover none), .service (.status false),
    .service (.discovery .fetched), .service (.discovery .acquires),
    .service (.discovery .planned), .service .ready, .service .work]

/-- A route closes its gap before the storage loop stops the sources. -/
def settledRun : List OwnershipLabel :=
  readyBoot ++
    [.opens (.route .market, none) "gap-0001" .connectionLost,
      .closes (.route .market, none), .service (.status true),
      .service (.opened "storage-gap")] ++
    (sourceTasks 1 ["BTCUSDT"]).map .ends ++
      [.service (.discovery .wakes), .service .work]

theorem settledRun_runs :
    (runFrom (ownershipStep 1) (startOwnership Dict.empty ["BTCUSDT"])
      settledRun).isSome := by
  decide +kernel

theorem handsOver_settled :
    HandsOver 1 (startOwnership Dict.empty ["BTCUSDT"]) settledRun := by
  apply (handsOver_iff 1 Dict.empty ["BTCUSDT"]
    (Option.some_get settledRun_runs).symm).mpr
  decide +kernel

/-- A symbol leaves the universe while its poller has a gap. -/
def removalRun : List OwnershipLabel :=
  readyBoot ++
    [.opens (.openInterest "BTCUSDT", none) "gap-0001" .connectionLost,
      .decides ["ETHUSDT"], .ends (.openInterest "BTCUSDT"),
      .begins (.openInterest "ETHUSDT")]

theorem removalRun_runs :
    (runFrom (ownershipStep 1) (startOwnership Dict.empty ["BTCUSDT"])
        removalRun).map (fun state =>
      (state.service.phase, state.service.gaps.get? "gap-0001",
        state.held.entries.length, state.service.storageGapId,
        state.service.listed)) =
      some (.waiting, some .connectionLost, 0, none, []) := by
  decide +kernel

/-- The gap is open, and nobody knows its ID. -/
theorem removed_symbol_leaves_gap :
    ¬ HandsOver 1 (startOwnership Dict.empty ["BTCUSDT"]) removalRun := by
  rintro ⟨visited, _⟩
  rcases Option.map_eq_some_iff.mp removalRun_runs with
    ⟨final, reached, ended⟩
  simp only [Prod.mk.injEq] at ended
  rcases ended with ⟨isWaiting, isGap, noneHeld, noStorage, noneListed⟩
  have serving : final.service.phase.Serving = true := by
    rw [isWaiting]
    rfl
  have isOpen : IsOpen final.service.gaps "gap-0001" := by
    rw [IsOpen, isGap]
    rfl
  rcases visited _ [] final (List.append_nil _).symm reached serving "gap-0001"
    isOpen with ⟨holder, _, isHeld⟩ | isStorage | isListed
  · have isEntry := (Dict.mem_entries_iff _).mpr isHeld
    rw [List.eq_nil_of_length_eq_zero noneHeld] at isEntry
    cases isEntry
  · cases noStorage.symm.trans isStorage
  · rw [noneListed] at isListed
    cases isListed

end ShadowDataPlane.Edge
