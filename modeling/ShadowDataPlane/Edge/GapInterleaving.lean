import ShadowDataPlane.Edge.GapRecovery

/-!
# Calls of the journal which run at once

Sources open and close gaps at any time, also while the midnight rollover goes
through the state files.  Here any number of calls is in flight and each
advances one await at a time, in any order, over the state files which the
journal has at the start.

A rollover lists the state files once.  A close which removes the file of a
gap that the rollover has still to read, or is just rolling, makes the
rollover fail or write the file again (`rollover_disturbed`).  These removals
are all that can go wrong (`rollover_tolerates`).
-/

namespace ShadowDataPlane.Edge

open ShadowDataPlane.Foundation
open ShadowDataPlane.Contracts
open ShadowDataPlane.Central
open JournalDisk

/-! ## The machine -/

/-- The journal with its calls in flight and what they came to. -/
structure JournalCalls where
  disk : JournalDisk
  nowNs : Nat
  tasks : List JournalTask := []
  returned : List GapEventV1 := []
  failed : List JournalTask := []
deriving DecidableEq

/-- The calls which run beside each other, and their awaits. -/
inductive CallLabel where
  | tick (nowNs : Nat)
  | openGap (gapId : String) (affectedFrom : Option Nat) (call : GapCall)
  | closeGap (gapId : String) (call : GapCall)
  | rollover (utcDate : Nat)
  | work (position : Nat)
deriving DecidableEq

/-- Whether a call of `open` is creating the gap. -/
def JournalTask.Creates (gapId : String) : JournalTask → Prop
  | .opening event _ => event.gapId = gapId
  | .closing _ _ | .rollover _ _ => False

instance (gapId : String) :
    (task : JournalTask) → Decidable (task.Creates gapId)
  | .opening _ _ => inferInstanceAs (Decidable (_ = _))
  | .closing _ _ | .rollover _ _ => inferInstanceAs (Decidable False)

/-- The gaps whose `open` has returned, here or in an earlier boot. -/
def Known (start : JournalDisk) (calls : JournalCalls) (gapId : String) :
    Prop :=
  (start.openGaps.get? gapId).isSome ∨
    ∃ event ∈ calls.returned, event.state = .opened ∧ event.gapId = gapId

/-- The gaps whose `close` has returned. -/
def ClosedHere (calls : JournalCalls) (gapId : String) : Prop :=
  ∃ event ∈ calls.returned, event.state = .closed ∧ event.gapId = gapId

instance (start : JournalDisk) (calls : JournalCalls) (gapId : String) :
    Decidable (Known start calls gapId) :=
  inferInstanceAs (Decidable (_ ∨ ∃ event ∈ _, _))

instance (calls : JournalCalls) (gapId : String) :
    Decidable (ClosedHere calls gapId) :=
  inferInstanceAs (Decidable (∃ event ∈ _, _))

/-- No call, event or state file carries the gap id. -/
def NewGap (start : JournalDisk) (calls : JournalCalls) (gapId : String) :
    Prop :=
  FreshGap calls.disk gapId ∧ ¬ Known start calls gapId ∧
    ∀ task ∈ calls.tasks, ¬ task.Creates gapId

instance (start : JournalDisk) (calls : JournalCalls) (gapId : String) :
    Decidable (NewGap start calls gapId) :=
  inferInstanceAs (Decidable (_ ∧ _ ∧ ∀ task ∈ _, _))

def JournalTask.IsRollover : JournalTask → Prop
  | .rollover _ _ => True
  | .opening _ _ | .closing _ _ => False

instance : (task : JournalTask) → Decidable task.IsRollover
  | .rollover _ _ => inferInstanceAs (Decidable True)
  | .opening _ _ | .closing _ _ => inferInstanceAs (Decidable False)

/-- Advance one call; the others wait. -/
def advance (calls : JournalCalls) (task : JournalTask)
    (others : List JournalTask) : JournalCalls :=
  match taskStep calls.disk task with
  | .error _ =>
      { calls with
        tasks := others
        failed := calls.failed ++ [task] }
  | .ok (disk, some next) =>
      { calls with
        disk := disk
        tasks := others ++ [next] }
  | .ok (disk, none) =>
      { calls with
        disk := disk
        tasks := others
        returned := calls.returned ++ task.event?.toList }

/-- Gap ids are fresh; a caller closes a gap whose id it has been given. -/
def callStep (start : JournalDisk) (calls : JournalCalls) :
    CallLabel → Option JournalCalls
  | .tick nowNs =>
      if calls.nowNs ≤ nowNs then some { calls with nowNs := nowNs }
      else none
  | .openGap gapId affectedFrom call =>
      if NewGap start calls gapId then
        (openEvent gapId calls.nowNs affectedFrom call).map fun event =>
          { calls with tasks := calls.tasks ++ [.opening event false] }
      else none
  | .closeGap gapId call =>
      if Known start calls gapId ∧ call.detail ≠ continuesDetail then
        some
          { calls with
            tasks := calls.tasks ++
              [.closing (closeEvent gapId calls.nowNs call) .findState] }
      else none
  | .rollover utcDate =>
      some
        { calls with
          tasks := calls.tasks ++ [.rollover utcDate .listStates] }
  | .work position =>
      calls.tasks[position]?.map fun task =>
        advance calls task (calls.tasks.eraseIdx position)

/-! ## What a rollover has to be spared -/

/--
The gaps whose state file a call has still to read or to write: all that a
rollover has listed and not finished, and the one a close is rolling.
-/
def JournalTask.Holds (gapId : String) : JournalTask → Prop
  | .rollover _ (.roll current later _) => gapId ∈ current :: later
  | .closing event (.roll stage) => event.gapId = gapId ∧ stage ≠ .readState
  | .opening _ _ | .rollover _ .listStates => False
  | .closing _ .findState | .closing _ .publish
  | .closing _ .removeState => False

instance (gapId : String) :
    (task : JournalTask) → Decidable (task.Holds gapId)
  | .rollover _ (.roll _ _ _) => inferInstanceAs (Decidable (_ ∈ _))
  | .closing _ (.roll _) => inferInstanceAs (Decidable (_ ∧ _))
  | .opening _ _ | .rollover _ .listStates =>
      inferInstanceAs (Decidable False)
  | .closing _ .findState | .closing _ .publish
  | .closing _ .removeState => inferInstanceAs (Decidable False)

/-- No sealed day comes after the date. -/
def NoSealAfter (start : JournalDisk) (utcDate : Nat) : Prop :=
  ∀ entry ∈ start.index.sealedDays.entries, entry.1 ≤ utcDate

instance (start : JournalDisk) (utcDate : Nat) :
    Decidable (NoSealAfter start utcDate) :=
  inferInstanceAs (Decidable (∀ entry ∈ _, _))

/-- The next step of the call leaves what the others hold. -/
def SparesHeld (others : List JournalTask) : JournalTask → Prop
  | .closing event .removeState =>
      ∀ other ∈ others, ¬ other.Holds event.gapId
  | _ => True

instance (others : List JournalTask) :
    (task : JournalTask) → Decidable (SparesHeld others task)
  | .closing _ .removeState => inferInstanceAs (Decidable (∀ _ ∈ _, _))
  | .opening _ _ | .rollover _ _ => inferInstanceAs (Decidable True)
  | .closing _ .findState | .closing _ .publish
  | .closing _ (.roll _) => inferInstanceAs (Decidable True)

/--
No close removes the state file of a gap which another call holds, and no gap
is opened before a day which is already sealed.
-/
def Undisturbed (start : JournalDisk) (calls : JournalCalls) :
    CallLabel → Prop
  | .openGap gapId affectedFrom call =>
      ∀ event ∈ openEvent gapId calls.nowNs affectedFrom call,
        NoSealAfter start (rollDate event)
  | .work position =>
      ∀ task ∈ calls.tasks[position]?,
        SparesHeld (calls.tasks.eraseIdx position) task
  | .tick _ | .closeGap _ _ | .rollover _ => True

instance (start : JournalDisk) (calls : JournalCalls) :
    (label : CallLabel) → Decidable (Undisturbed start calls label)
  | .openGap _ _ _ => inferInstanceAs (Decidable (∀ event ∈ _, _))
  | .work _ => inferInstanceAs (Decidable (∀ task ∈ _, _))
  | .tick _ | .closeGap _ _ | .rollover _ =>
      inferInstanceAs (Decidable True)

/-- State files name their gaps; no day after an open gap's is sealed. -/
structure JournalReady (start : JournalDisk) : Prop where
  named : ∀ entry ∈ start.openGaps.entries, entry.2.gapId = entry.1
  unsealed : ∀ entry ∈ start.openGaps.entries,
    NoSealAfter start (rollDate entry.2)

/-! ## The invariant -/

/-- What a stage of a roll relies on. -/
def RollReady (start disk : JournalDisk) (gapId : String)
    (targetDate : Nat) (stage : RollStage) : Prop :=
  RollKeeps disk gapId targetDate stage ∧
    match stage with
    | .readState => True
    | .checkSealed opened | .openNext opened | .writeState opened =>
        NoSealAfter start (rollDate opened)
    | .closePrevious opened =>
        NoSealAfter start (rollDate opened) ∧
          ¬ start.index.DayIsSealed (rollDate opened)

/-- What a call in flight relies on. -/
def CallSound (start : JournalDisk) (calls : JournalCalls) :
    JournalTask → Prop
  | .opening event _ =>
      event.state = .opened ∧ NoSealAfter start (rollDate event) ∧
        ¬ Known start calls event.gapId ∧
        ∀ entry ∈ calls.disk.index.recorded,
          entry.2.gapId = event.gapId → ¬ GenuineClose entry.2
  | .closing event (.roll stage) =>
      event.state = .closed ∧ Known start calls event.gapId ∧
        RollReady start calls.disk event.gapId
          (dateOfNs event.observedAtRealtimeNs) stage
  | .closing event _ =>
      event.state = .closed ∧ Known start calls event.gapId
  | .rollover _ .listStates => True
  | .rollover targetDate (.roll gapId later stage) =>
      RollReady start calls.disk gapId targetDate stage ∧
        ∀ other ∈ gapId :: later,
          (calls.disk.openGaps.get? other).isSome

/-- What every undisturbed run guarantees. -/
structure CallsSound (start : JournalDisk) (calls : JournalCalls) :
    Prop where
  sealedDays : calls.disk.index.sealedDays = start.index.sealedDays
  states : ∀ gapId state,
    calls.disk.openGaps.get? gapId = some state →
      state.gapId = gapId ∧ NoSealAfter start (rollDate state)
  known : ∀ gapId, (calls.disk.openGaps.get? gapId).isSome ↔
    Known start calls gapId ∧ ¬ ClosedHere calls gapId
  closed : ∀ gapId, ClosedHere calls gapId → Known start calls gapId
  tasks : ∀ task ∈ calls.tasks, CallSound start calls task
  apart : calls.tasks.Pairwise fun left right =>
    ∀ gapId, left.Creates gapId → ¬ right.Creates gapId
  failed : ∀ task ∈ calls.failed, ¬ task.IsRollover

/-- A step which leaves what another call relies on. -/
structure Spares (start : JournalDisk) (before after : JournalCalls)
    (other : JournalTask) : Prop where
  kept : ∀ gapId, other.Holds gapId →
    (before.disk.openGaps.get? gapId).isSome →
      (after.disk.openGaps.get? gapId).isSome
  known : ∀ gapId, Known start before gapId → Known start after gapId
  created : ∀ gapId, other.Creates gapId → Known start after gapId →
    Known start before gapId
  recorded : ∀ entry ∈ after.disk.index.recorded,
    other.Creates entry.2.gapId → GenuineClose entry.2 →
      entry ∈ before.disk.index.recorded

theorem RollReady.mono
    {start disk after : JournalDisk} {gapId : String} {targetDate : Nat}
    {stage : RollStage} (ready : RollReady start disk gapId targetDate stage)
    (kept : stage ≠ .readState → (disk.openGaps.get? gapId).isSome →
      (after.openGaps.get? gapId).isSome) :
    RollReady start after gapId targetDate stage :=
  ⟨⟨ready.1.1, fun reads => kept reads (ready.1.2 reads)⟩, ready.2⟩

theorem CallSound.frame
    {start : JournalDisk} {before after : JournalCalls}
    {other : JournalTask} (sound : CallSound start before other)
    (spares : Spares start before after other) :
    CallSound start after other := by
  cases other with
  | opening event published =>
      rcases sound with ⟨opened, unsealed, unknown, unclosed⟩
      refine ⟨opened, unsealed, mt (spares.created _ rfl) unknown, ?_⟩
      intro entry member sameGap genuine
      exact unclosed entry (spares.recorded entry member sameGap.symm genuine)
        sameGap genuine
  | closing event stage =>
      cases stage with
      | roll stage =>
          rcases sound with ⟨closed, isKnown, ready⟩
          refine ⟨closed, spares.known _ isKnown, ready.mono ?_⟩
          exact fun reads => spares.kept _ ⟨rfl, reads⟩
      | findState => exact ⟨sound.1, spares.known _ sound.2⟩
      | publish => exact ⟨sound.1, spares.known _ sound.2⟩
      | removeState => exact ⟨sound.1, spares.known _ sound.2⟩
  | rollover targetDate stage =>
      cases stage with
      | listStates => trivial
      | roll gapId later stage =>
          rcases sound with ⟨ready, listed⟩
          constructor
          · apply ready.mono
            exact fun _ => spares.kept gapId List.mem_cons_self
          · intro other member
            exact spares.kept other member (listed other member)

/-! ## One step of a roll -/

section Rolling

variable {start disk after : JournalDisk} {gapId : String}
variable {targetDate utcDate : Nat} {stage : RollStage}
variable {next : Option RollStage}

theorem not_dayIsSealed_of_noSealAfter
    (unsealed : NoSealAfter start utcDate)
    (seals : disk.index.sealedDays = start.index.sealedDays)
    {later : Nat} (isLater : utcDate < later) :
    ¬ disk.index.DayIsSealed later := by
  intro isSealed
  rw [DayIndex.DayIsSealed, seals, Option.isSome_iff_exists] at isSealed
  rcases isSealed with ⟨inventory, found⟩
  have bound := unsealed (later, inventory)
    ((Dict.mem_entries_iff _).mpr found)
  exact absurd (isLater.trans_le bound) (lt_irrefl _)

theorem NoSealAfter.mono
    (unsealed : NoSealAfter start utcDate) {later : Nat}
    (isLater : utcDate ≤ later) : NoSealAfter start later :=
  fun entry member => (unsealed entry member).trans isLater

theorem rollReady_nextDate
    {opened : GapEventV1} {later : RollStage}
    (sameGap : opened.gapId = gapId)
    (unsealed : NoSealAfter start (rollDate opened))
    (present : (disk.openGaps.get? gapId).isSome)
    (isNext : nextDate opened targetDate = some later) :
    RollReady start disk gapId targetDate later := by
  refine ⟨⟨rolls_nextDate sameGap isNext, fun _ => present⟩, ?_⟩
  unfold nextDate at isNext
  split at isNext
  next =>
    cases isNext
    exact unsealed
  next => simp at isNext

/-- A step of a roll leads to a stage which can go on. -/
theorem RollReady.advances
    {later : RollStage}
    (ready : RollReady start disk gapId targetDate stage)
    (seals : disk.index.sealedDays = start.index.sealedDays)
    (states : ∀ gapId state, disk.openGaps.get? gapId = some state →
      state.gapId = gapId ∧ NoSealAfter start (rollDate state))
    (completed :
      rollStep disk gapId targetDate stage = .ok (after, some later)) :
    RollReady start after gapId targetDate later := by
  have present := ready.1.present completed
  cases stage with
  | readState =>
      simp only [rollStep] at completed
      split at completed
      next => simp at completed
      next opened found =>
        simp only [Except.ok.injEq, Prod.mk.injEq] at completed
        rcases completed with ⟨rfl, isNext⟩
        rcases states gapId opened found with ⟨sameGap, unsealed⟩
        exact rollReady_nextDate sameGap unsealed present isNext
  | checkSealed opened =>
      simp only [rollStep] at completed
      split at completed
      next =>
        cases completed
        exact ⟨⟨ready.1.1, fun _ => present⟩, ready.2⟩
      next notSealed =>
        cases completed
        refine ⟨⟨ready.1.1, fun _ => present⟩, ready.2, ?_⟩
        rw [DayIndex.DayIsSealed, seals] at notSealed
        exact notSealed
  | closePrevious opened =>
      simp only [rollStep] at completed
      split at completed
      next => simp at completed
      next =>
        cases completed
        exact ⟨⟨ready.1.1, fun _ => present⟩, ready.2.1⟩
  | openNext opened =>
      simp only [rollStep] at completed
      split at completed
      next => simp at completed
      next =>
        cases completed
        refine ⟨⟨ready.1.1.1, fun _ => present⟩, ?_⟩
        show NoSealAfter start (rollDate (continuedOpening opened))
        rw [rollDate_continuedOpening]
        exact NoSealAfter.mono ready.2 (Nat.le_succ _)
  | writeState opened =>
      simp only [rollStep, Except.ok.injEq, Prod.mk.injEq] at completed
      exact rollReady_nextDate ready.1.1 ready.2 present completed.2

/-- A step of a roll whose state file is there does not fail. -/
theorem RollReady.completes
    (ready : RollReady start disk gapId targetDate stage)
    (seals : disk.index.sealedDays = start.index.sealedDays)
    (present : (disk.openGaps.get? gapId).isSome) :
    ∃ after next, rollStep disk gapId targetDate stage =
      .ok (after, next) := by
  cases stage with
  | readState =>
      rcases Option.isSome_iff_exists.mp present with ⟨opened, found⟩
      exact ⟨disk, nextDate opened targetDate, by simp only [rollStep, found]⟩
  | checkSealed opened =>
      by_cases isSealed : disk.index.DayIsSealed (rollDate opened)
      · exact ⟨disk, _, by simp only [rollStep, if_pos isSealed]; rfl⟩
      · exact ⟨disk, _, by simp only [rollStep, if_neg isSealed]; rfl⟩
  | closePrevious opened =>
      have unsealed : ¬ disk.index.DayIsSealed
          (continuedClosing opened).eventDate := by
        rw [continuedClosing_eventDate, DayIndex.DayIsSealed, seals]
        exact ready.2.2
      rcases publish_of_unsealed unsealed with ⟨after, published, _⟩
      exact ⟨after, _, by simp only [rollStep, published]; rfl⟩
  | openNext opened =>
      have unsealed : ¬ disk.index.DayIsSealed
          (continuedOpening opened).eventDate := by
        rw [← (continuedOpening_opening opened).rollDate,
          rollDate_continuedOpening]
        exact not_dayIsSealed_of_noSealAfter ready.2 seals
          (Nat.lt_succ_self _)
      rcases publish_of_unsealed unsealed with ⟨after, published, _⟩
      exact ⟨after, _, by simp only [rollStep, published]; rfl⟩
  | writeState opened => exact ⟨_, _, rfl⟩

theorem RollReady.states
    (ready : RollReady start disk gapId targetDate stage)
    (states : ∀ gapId state, disk.openGaps.get? gapId = some state →
      state.gapId = gapId ∧ NoSealAfter start (rollDate state))
    (effect : RollEffect disk gapId targetDate stage after) :
    ∀ other state, after.openGaps.get? other = some state →
      state.gapId = other ∧ NoSealAfter start (rollDate state) := by
  intro other state found
  by_cases same : other = gapId
  · subst same
    rcases effect.state with unchanged | ⟨opened, rfl, written⟩
    · exact states other state (unchanged ▸ found)
    · rw [written] at found
      rw [← Option.some.inj found]
      exact ⟨ready.1.1, ready.2⟩
  · exact states other state (effect.others other same ▸ found)

/-- A step of a roll neither removes a state file nor creates one. -/
theorem RollEffect.isSome_iff
    (effect : RollEffect disk gapId targetDate stage after)
    (keeps : RollKeeps disk gapId targetDate stage) (other : String) :
    (after.openGaps.get? other).isSome ↔
      (disk.openGaps.get? other).isSome := by
  by_cases same : other = gapId
  · subst same
    rcases effect.state with unchanged | ⟨opened, rfl, written⟩
    · rw [unchanged]
    · simp [written, keeps.2]
  · rw [effect.others other same]

/-- A bound on the steps left of a roll, whatever other calls do. -/
def RollStage.rank (targetDate : Nat) : RollStage → Nat
  | .readState => 4 * targetDate + 1
  | .checkSealed opened => 4 * (targetDate - rollDate opened)
  | .closePrevious opened => 4 * (targetDate - rollDate opened) - 1
  | .openNext opened => 4 * (targetDate - rollDate opened) - 2
  | .writeState opened => 4 * (targetDate - rollDate opened) + 1

theorem rank_nextDate
    {opened : GapEventV1} {later : RollStage}
    (isNext : nextDate opened targetDate = some later) :
    later.rank targetDate = 4 * (targetDate - rollDate opened) := by
  unfold nextDate at isNext
  split at isNext
  next =>
    cases isNext
    rfl
  next => simp at isNext

theorem rollStep_lowers
    {later : RollStage} (rolls : stage.Rolls gapId targetDate)
    (completed :
      rollStep disk gapId targetDate stage = .ok (after, some later)) :
    later.rank targetDate < stage.rank targetDate := by
  cases stage with
  | readState =>
      simp only [rollStep] at completed
      split at completed
      next => simp at completed
      next opened =>
        simp only [Except.ok.injEq, Prod.mk.injEq] at completed
        rw [rank_nextDate completed.2, RollStage.rank]
        omega
  | checkSealed opened =>
      have before : rollDate opened < targetDate := rolls.2
      simp only [rollStep] at completed
      split at completed
      · cases completed
        simp only [RollStage.rank]
        omega
      · cases completed
        simp only [RollStage.rank]
        omega
  | closePrevious opened =>
      have before : rollDate opened < targetDate := rolls.2
      simp only [rollStep] at completed
      split at completed
      next => simp at completed
      next =>
        cases completed
        simp only [RollStage.rank]
        omega
  | openNext opened =>
      have before : rollDate opened < targetDate := rolls.2
      simp only [rollStep] at completed
      split at completed
      next => simp at completed
      next =>
        cases completed
        simp only [RollStage.rank, rollDate_continuedOpening]
        omega
  | writeState opened =>
      simp only [rollStep, Except.ok.injEq, Prod.mk.injEq] at completed
      rw [rank_nextDate completed.2, RollStage.rank]
      omega

end Rolling

/-! ## One step of a call -/

section Calls

variable {start : JournalDisk} {before after : JournalCalls}
variable {task : JournalTask} {others : List JournalTask}
variable {disk : JournalDisk} {next : Option JournalTask}

/-- What the call whose turn it is leaves to be shown. -/
theorem CallsSound.of_turn
    (sound : CallsSound start before)
    (turn : before.tasks.Perm (task :: others))
    (after : JournalCalls) (next : Option JournalTask)
    (failed : after.failed = before.failed)
    (tasks : after.tasks = others ++ next.toList)
    (seals : after.disk.index.sealedDays = start.index.sealedDays)
    (states : ∀ gapId state,
      after.disk.openGaps.get? gapId = some state →
        state.gapId = gapId ∧ NoSealAfter start (rollDate state))
    (known : ∀ gapId, (after.disk.openGaps.get? gapId).isSome ↔
      Known start after gapId ∧ ¬ ClosedHere after gapId)
    (closed : ∀ gapId, ClosedHere after gapId → Known start after gapId)
    (spares : ∀ other ∈ others, Spares start before after other)
    (nextSound : ∀ later ∈ next, CallSound start after later)
    (creates : ∀ later ∈ next, ∀ gapId, later.Creates gapId →
      task.Creates gapId) :
    CallsSound start after where
  sealedDays := seals
  states := states
  known := known
  closed := closed
  tasks := by
    intro running member
    rw [tasks, List.mem_append, Option.mem_toList] at member
    rcases member with other | isNext
    · have sound := sound.tasks running
        (turn.mem_iff.mpr (List.mem_cons_of_mem task other))
      exact sound.frame (spares running other)
    · exact nextSound running isNext
  apart := by
    have apart := (turn.pairwise_iff (fun {left right} distinct gapId
      isRight isLeft => distinct gapId isLeft isRight)).mp sound.apart
    rw [List.pairwise_cons] at apart
    rw [tasks, List.pairwise_append]
    refine ⟨apart.2, ?_, ?_⟩
    · cases next with
      | none => exact List.Pairwise.nil
      | some later => exact List.pairwise_singleton _ _
    · intro other member later isNext gapId isOther isLater
      have isTask := creates later (Option.mem_toList.mp isNext) gapId isLater
      exact apart.1 other member gapId isTask isOther
  failed := by
    rw [failed]
    exact sound.failed

/-- Nothing comes back from the call, and no state file comes or goes. -/
theorem Spares.of_isSome
    (before after : JournalCalls) {other : JournalTask}
    (returned : after.returned = before.returned)
    (isSome : ∀ gapId, (after.disk.openGaps.get? gapId).isSome ↔
      (before.disk.openGaps.get? gapId).isSome)
    (recorded : ∀ entry ∈ after.disk.index.recorded,
      other.Creates entry.2.gapId → GenuineClose entry.2 →
        entry ∈ before.disk.index.recorded) :
    Spares start before after other where
  kept := fun gapId _ => (isSome gapId).mpr
  known := by
    intro gapId isKnown
    rw [Known, returned]
    exact isKnown
  created := by
    intro gapId _ isKnown
    rw [Known, returned] at isKnown
    exact isKnown
  recorded := recorded

/-- The same, for the whole of the journal. -/
theorem CallsSound.known_of_isSome
    (sound : CallsSound start before) (after : JournalCalls)
    (returned : after.returned = before.returned)
    (isSome : ∀ gapId, (after.disk.openGaps.get? gapId).isSome ↔
      (before.disk.openGaps.get? gapId).isSome) :
    (∀ gapId, (after.disk.openGaps.get? gapId).isSome ↔
      Known start after gapId ∧ ¬ ClosedHere after gapId) ∧
      ∀ gapId, ClosedHere after gapId → Known start after gapId := by
  constructor
  · intro gapId
    rw [isSome, Known, ClosedHere, returned]
    exact sound.known gapId
  · intro gapId
    rw [Known, ClosedHere, returned]
    exact sound.closed gapId

/-- A call which works on a known gap creates none. -/
theorem not_creates_of_known
    {other : JournalTask} {gapId : String}
    (sound : CallSound start before other)
    (isKnown : Known start before gapId) :
    ¬ other.Creates gapId := by
  intro creates
  cases other with
  | opening event published =>
      cases creates
      exact sound.2.2.1 isKnown
  | closing event stage => exact creates
  | rollover targetDate stage => exact creates

theorem CallsSound.other
    {other : JournalTask} (sound : CallsSound start before)
    (turn : before.tasks.Perm (task :: others))
    (member : other ∈ others) :
    CallSound start before other :=
  sound.tasks other (turn.mem_iff.mpr (List.mem_cons_of_mem task member))

theorem CallsSound.turn
    (sound : CallsSound start before)
    (turn : before.tasks.Perm (task :: others)) :
    CallSound start before task :=
  sound.tasks task (turn.mem_iff.mpr List.mem_cons_self)

/-- The calls besides one which is over. -/
theorem CallsSound.without
    (sound : CallsSound start before)
    (turn : before.tasks.Perm (task :: others)) :
    CallsSound start { before with tasks := others } := by
  apply sound.of_turn turn { before with tasks := others } none rfl
    (by simp) sound.sealedDays sound.states sound.known sound.closed
  · intro other member
    exact Spares.of_isSome before _ rfl (fun _ => Iff.rfl)
      fun _ member _ _ => member
  · rintro later ⟨⟩
  · rintro later ⟨⟩

/-- Any call but a rollover may fail. -/
theorem CallsSound.fails
    (sound : CallsSound start before)
    (turn : before.tasks.Perm (task :: others))
    (other : ¬ task.IsRollover) :
    CallsSound start
      { before with
        tasks := others
        failed := before.failed ++ [task] } := by
  have rest := sound.without turn
  exact { rest with
    failed := by
      intro failed member
      rcases List.mem_append.mp member with old | new
      · exact sound.failed failed old
      · rw [List.mem_singleton.mp new]
        exact other }

theorem creates_unique
    {gapId : String} {other : JournalTask}
    (sound : CallsSound start before)
    (turn : before.tasks.Perm (task :: others))
    (creates : task.Creates gapId) (member : other ∈ others) :
    ¬ other.Creates gapId := by
  have apart := (turn.pairwise_iff (fun {left right} distinct gapId
    isRight isLeft => distinct gapId isLeft isRight)).mp sound.apart
  exact (List.pairwise_cons.mp apart).1 other member gapId creates

/-- The call has come to its next stage, or to its end without a result. -/
structure Advanced (before : JournalCalls) (others : List JournalTask)
    (disk : JournalDisk) (next : Option JournalTask)
    (after : JournalCalls) : Prop where
  disk : after.disk = disk
  tasks : after.tasks = others ++ next.toList
  returned : after.returned = before.returned
  failed : after.failed = before.failed

theorem advance_advanced
    (others : List JournalTask)
    (completed : taskStep before.disk task = .ok (disk, next))
    (noResult : next.isSome ∨ task.event? = none) :
    Advanced before others disk next (advance before task others) := by
  unfold advance
  rw [completed]
  cases next with
  | none =>
      have noEvent : task.event? = none := by simpa using noResult
      exact ⟨rfl, (List.append_nil _).symm, by simp [noEvent], rfl⟩
  | some later => exact ⟨rfl, rfl, rfl, rfl⟩

/-- An event no call of `open` waits for is recorded. -/
theorem CallsSound.publishes
    {event : GapEventV1} {later : JournalTask}
    (sound : CallsSound start before)
    (turn : before.tasks.Perm (task :: others))
    (completed : before.disk.publish event = .ok disk)
    (advanced : Advanced before others disk (some later) after)
    (spared : ∀ other ∈ others, other.Creates event.gapId →
      ¬ GenuineClose event)
    (laterSound : CallSound start after later)
    (creates : ∀ gapId, later.Creates gapId → task.Creates gapId) :
    CallsSound start after := by
  have published := publish_ok completed
  have isSome : ∀ gapId, (after.disk.openGaps.get? gapId).isSome ↔
      (before.disk.openGaps.get? gapId).isSome := by
    intro gapId
    rw [advanced.disk, published.openGaps]
  have accounts := sound.known_of_isSome after advanced.returned isSome
  apply sound.of_turn turn after (some later) advanced.failed advanced.tasks
    _ _ accounts.1 accounts.2
  · intro other member
    apply Spares.of_isSome before after advanced.returned isSome
    intro entry recorded isCreated genuine
    rw [advanced.disk] at recorded
    rcases (mem_recorded_publish completed entry).mp recorded with old | rfl
    · exact old
    · exact (spared other member isCreated genuine).elim
  · rintro running ⟨⟩
    exact laterSound
  · rintro running ⟨⟩
    exact creates
  · rw [advanced.disk]
    exact published.sealedDays.trans sound.sealedDays
  · rw [advanced.disk, published.openGaps]
    exact sound.states

/-- A call rolls a gap whose state file no one removes meanwhile. -/
theorem CallsSound.rolls
    {gapId : String} {targetDate : Nat} {stage : RollStage}
    (sound : CallsSound start before)
    (turn : before.tasks.Perm (task :: others))
    (ready : RollReady start before.disk gapId targetDate stage)
    (effect : RollEffect before.disk gapId targetDate stage disk)
    (advanced : Advanced before others disk next after)
    (nextSound : ∀ later ∈ next, CallSound start after later)
    (creates : ∀ later ∈ next, ∀ gapId, ¬ later.Creates gapId) :
    CallsSound start after := by
  have isSome : ∀ gapId, (after.disk.openGaps.get? gapId).isSome ↔
      (before.disk.openGaps.get? gapId).isSome := by
    intro other
    rw [advanced.disk]
    exact effect.isSome_iff ready.1 other
  have accounts := sound.known_of_isSome after advanced.returned isSome
  apply sound.of_turn turn after next advanced.failed advanced.tasks
    _ _ accounts.1 accounts.2
  · intro other member
    apply Spares.of_isSome before after advanced.returned isSome
    intro entry recorded _ genuine
    rw [advanced.disk] at recorded
    rcases effect.added entry recorded with old | rolled
    · exact old
    · exact (genuine.2 (rolled.closes genuine.1)).elim
  · exact nextSound
  · exact fun later isNext gapId isCreated =>
      (creates later isNext gapId isCreated).elim
  · rw [advanced.disk]
    exact effect.sealedDays.trans sound.sealedDays
  · rw [advanced.disk]
    exact ready.states sound.states effect

theorem readState_ready
    (start disk : JournalDisk) (gapId : String) (targetDate : Nat) :
    RollReady start disk gapId targetDate .readState :=
  ⟨⟨trivial, fun reads => (reads rfl).elim⟩, trivial⟩

/-- A call which only reads comes to its next stage. -/
theorem CallsSound.reads
    (sound : CallsSound start before)
    (turn : before.tasks.Perm (task :: others))
    (advanced : Advanced before others before.disk next after)
    (nextSound : ∀ later ∈ next, CallSound start after later)
    (creates : ∀ later ∈ next, ∀ gapId, ¬ later.Creates gapId) :
    CallsSound start after :=
  sound.rolls turn (readState_ready start before.disk "" 0)
    (RollEffect.refl ..) advanced nextSound creates

/-- A call of `open` writes its state file and returns. -/
theorem CallsSound.opens
    {event : GapEventV1} (sound : CallsSound start before)
    (turn : before.tasks.Perm (.opening event true :: others))
    (after : JournalCalls)
    (isDisk : after.disk =
      { before.disk with
        openGaps := before.disk.openGaps.set event.gapId event })
    (tasks : after.tasks = others)
    (returned : after.returned = before.returned ++ [event])
    (failed : after.failed = before.failed) :
    CallsSound start after := by
  rcases sound.turn turn with ⟨opened, unsealed, unknown, unclosed⟩
  have openGaps : ∀ gapId, after.disk.openGaps.get? gapId =
      if gapId = event.gapId then some event
      else before.disk.openGaps.get? gapId := by
    intro gapId
    rw [isDisk]
    exact Dict.get?_set ..
  have known : ∀ gapId, Known start after gapId ↔
      Known start before gapId ∨ event.gapId = gapId := by
    intro gapId
    simp only [Known, returned, List.mem_append, List.mem_singleton]
    constructor
    · rintro (old | ⟨found, member | rfl, isOpen, sameGap⟩)
      · exact Or.inl (Or.inl old)
      · exact Or.inl (Or.inr ⟨found, member, isOpen, sameGap⟩)
      · exact Or.inr sameGap
    · rintro ((old | ⟨found, member, isOpen, sameGap⟩) | sameGap)
      · exact Or.inl old
      · exact Or.inr ⟨found, Or.inl member, isOpen, sameGap⟩
      · exact Or.inr ⟨event, Or.inr rfl, opened, sameGap⟩
  have closed : ∀ gapId, ClosedHere after gapId ↔
      ClosedHere before gapId := by
    intro gapId
    simp only [ClosedHere, returned, List.mem_append, List.mem_singleton]
    constructor
    · rintro ⟨found, member | rfl, isClosed, sameGap⟩
      · exact ⟨found, member, isClosed, sameGap⟩
      · simp [opened] at isClosed
    · rintro ⟨found, member, isClosed, sameGap⟩
      exact ⟨found, Or.inl member, isClosed, sameGap⟩
  apply sound.of_turn turn after none failed
  · rw [tasks, Option.toList_none, List.append_nil]
  · rw [isDisk]
    exact sound.sealedDays
  · intro gapId state found
    rw [openGaps] at found
    split at found
    next same =>
      rw [← Option.some.inj found]
      exact ⟨same.symm, unsealed⟩
    next => exact sound.states gapId state found
  · intro gapId
    rw [known, closed, openGaps]
    split
    next same =>
      subst same
      have notClosed := mt (sound.closed event.gapId) unknown
      simp [notClosed]
    next different =>
      have distinct : event.gapId ≠ gapId := Ne.symm different
      simp only [distinct, or_false]
      exact sound.known gapId
  · intro gapId isClosed
    rw [closed] at isClosed
    rw [known]
    exact Or.inl (sound.closed gapId isClosed)
  · intro other member
    exact {
      kept := by
        intro gapId _ found
        rw [openGaps]
        split
        next => rfl
        next => exact found
      known := fun gapId isKnown => (known gapId).mpr (Or.inl isKnown)
      created := by
        intro gapId isCreated isKnown
        rcases (known gapId).mp isKnown with old | same
        · exact old
        · exact (creates_unique sound turn same member isCreated).elim
      recorded := by
        intro entry recorded _ _
        rw [isDisk] at recorded
        exact recorded }
  · rintro later ⟨⟩
  · rintro later ⟨⟩

theorem CallsSound.opening
    {event : GapEventV1} {published : Bool}
    (sound : CallsSound start before)
    (turn : before.tasks.Perm (.opening event published :: others)) :
    CallsSound start (advance before (.opening event published) others) := by
  rcases sound.turn turn with ⟨opened, unsealed, unknown, unclosed⟩
  cases published with
  | false =>
      cases completed : before.disk.publish event with
      | error problem =>
          have failed : taskStep before.disk (.opening event false) =
              .error problem := by
            simp only [taskStep, completed]
          rw [advance, failed]
          exact sound.fails turn (by simp [JournalTask.IsRollover])
      | ok disk =>
          have stepped : taskStep before.disk (.opening event false) =
              .ok (disk, some (.opening event true)) := by
            simp only [taskStep, completed]
          have advanced := advance_advanced others stepped (Or.inl rfl)
          have notGenuine : ¬ GenuineClose event := by
            simp [GenuineClose, opened]
          apply sound.publishes turn completed advanced
            (fun _ _ _ => notGenuine)
          · refine ⟨opened, unsealed, ?_, ?_⟩
            · rw [Known, advanced.returned]
              exact unknown
            · intro entry member sameGap
              rw [advanced.disk] at member
              rcases (mem_recorded_publish completed entry).mp member with
                old | rfl
              · exact unclosed entry old sameGap
              · exact notGenuine
          · exact fun gapId creates => creates
  | true => exact sound.opens turn _ rfl rfl rfl rfl

/-- A call of `close` removes the state file and returns. -/
theorem CallsSound.removes
    {event : GapEventV1} (sound : CallsSound start before)
    (turn : before.tasks.Perm (.closing event .removeState :: others))
    (spares : ∀ other ∈ others, ¬ other.Holds event.gapId)
    (after : JournalCalls)
    (isDisk : after.disk =
      { before.disk with
        openGaps := before.disk.openGaps.erase event.gapId })
    (tasks : after.tasks = others)
    (returned : after.returned = before.returned ++ [event])
    (failed : after.failed = before.failed) :
    CallsSound start after := by
  rcases sound.turn turn with ⟨isClosed, isKnown⟩
  have openGaps : ∀ gapId, after.disk.openGaps.get? gapId =
      if gapId = event.gapId then none
      else before.disk.openGaps.get? gapId := by
    intro gapId
    rw [isDisk]
    exact Dict.get?_erase ..
  have known : ∀ gapId, Known start after gapId ↔
      Known start before gapId := by
    intro gapId
    simp only [Known, returned, List.mem_append, List.mem_singleton]
    constructor
    · rintro (old | ⟨found, member | rfl, isOpen, sameGap⟩)
      · exact Or.inl old
      · exact Or.inr ⟨found, member, isOpen, sameGap⟩
      · simp [isClosed] at isOpen
    · rintro (old | ⟨found, member, isOpen, sameGap⟩)
      · exact Or.inl old
      · exact Or.inr ⟨found, Or.inl member, isOpen, sameGap⟩
  have closed : ∀ gapId, ClosedHere after gapId ↔
      ClosedHere before gapId ∨ event.gapId = gapId := by
    intro gapId
    simp only [ClosedHere, returned, List.mem_append, List.mem_singleton]
    constructor
    · rintro ⟨found, member | rfl, isClosed, sameGap⟩
      · exact Or.inl ⟨found, member, isClosed, sameGap⟩
      · exact Or.inr sameGap
    · rintro (⟨found, member, isClosed, sameGap⟩ | sameGap)
      · exact ⟨found, Or.inl member, isClosed, sameGap⟩
      · exact ⟨event, Or.inr rfl, isClosed, sameGap⟩
  apply sound.of_turn turn after none failed
  · rw [tasks, Option.toList_none, List.append_nil]
  · rw [isDisk]
    exact sound.sealedDays
  · intro gapId state found
    rw [openGaps] at found
    split at found
    next => simp at found
    next => exact sound.states gapId state found
  · intro gapId
    rw [known, closed, openGaps]
    split
    next same => simp [same]
    next different =>
      have distinct : event.gapId ≠ gapId := Ne.symm different
      simp only [distinct, or_false]
      exact sound.known gapId
  · intro gapId isClosed
    rw [closed] at isClosed
    rw [known]
    rcases isClosed with old | rfl
    · exact sound.closed gapId old
    · exact isKnown
  · intro other member
    exact {
      kept := by
        intro gapId holds found
        rw [openGaps]
        split
        next same => exact (spares other member (same ▸ holds)).elim
        next => exact found
      known := fun gapId => (known gapId).mpr
      created := fun gapId _ => (known gapId).mp
      recorded := by
        intro entry recorded _ _
        rw [isDisk] at recorded
        exact recorded }
  · rintro later ⟨⟩
  · rintro later ⟨⟩

theorem CallsSound.closing
    {event : GapEventV1} {stage : CloseStage}
    (sound : CallsSound start before)
    (turn : before.tasks.Perm (.closing event stage :: others))
    (spares : SparesHeld others (.closing event stage)) :
    CallsSound start (advance before (.closing event stage) others) := by
  have knownAfter : ∀ {disk : JournalDisk} {next : Option JournalTask}
      {after : JournalCalls}, Advanced before others disk next after →
        Known start before event.gapId → Known start after event.gapId := by
    intro disk next after advanced isKnown
    rw [Known, advanced.returned]
    exact isKnown
  cases completed : closingStep before.disk event stage with
  | error problem =>
      have failed : taskStep before.disk (.closing event stage) =
          .error problem := completed
      rw [advance, failed]
      exact sound.fails turn id
  | ok result =>
      rcases result with ⟨disk, next⟩
      have stepped : taskStep before.disk (.closing event stage) =
          .ok (disk, next) := completed
      have advanced := advance_advanced others stepped
      cases stage with
      | findState =>
          rcases sound.turn turn with ⟨isClosed, isKnown⟩
          simp only [closingStep] at completed
          split at completed
          · cases completed
            have advanced := advanced (Or.inl rfl)
            apply sound.reads turn advanced
            · rintro later ⟨⟩
              refine ⟨isClosed, knownAfter advanced isKnown, ?_⟩
              exact readState_ready ..
            · rintro later ⟨⟩ gapId creates
              exact creates
          · cases completed
            have advanced := advanced (Or.inl rfl)
            apply sound.reads turn advanced
            · rintro later ⟨⟩
              exact ⟨isClosed, knownAfter advanced isKnown⟩
            · rintro later ⟨⟩ gapId creates
              exact creates
      | roll stage =>
          rcases sound.turn turn with ⟨isClosed, isKnown, ready⟩
          simp only [closingStep] at completed
          split at completed
          next => simp at completed
          next rolled =>
            cases completed
            have advanced := advanced (Or.inl rfl)
            apply sound.rolls turn ready (rollStep_effect ready.1.1 rolled)
              advanced
            · rintro later ⟨⟩
              refine ⟨isClosed, knownAfter advanced isKnown, ?_⟩
              rw [advanced.disk]
              exact ready.advances sound.sealedDays sound.states rolled
            · rintro later ⟨⟩ gapId creates
              exact creates
          next rolled =>
            cases completed
            have advanced := advanced (Or.inl rfl)
            apply sound.rolls turn ready (rollStep_effect ready.1.1 rolled)
              advanced
            · rintro later ⟨⟩
              exact ⟨isClosed, knownAfter advanced isKnown⟩
            · rintro later ⟨⟩ gapId creates
              exact creates
      | publish =>
          rcases sound.turn turn with ⟨isClosed, isKnown⟩
          simp only [closingStep] at completed
          split at completed
          next => simp at completed
          next published =>
            cases completed
            have advanced := advanced (Or.inl rfl)
            apply sound.publishes turn published advanced
            · intro other member creates
              exact (not_creates_of_known (sound.other turn member) isKnown
                creates).elim
            · exact ⟨isClosed, knownAfter advanced isKnown⟩
            · exact fun gapId creates => creates
      | removeState =>
          exact sound.removes turn spares _ rfl rfl rfl rfl

/-- A bound on the steps left of a rollover which has listed the files. -/
def JournalTask.rank : JournalTask → WithTop Nat
  | .rollover _ .listStates => ⊤
  | .rollover targetDate (.roll _ later stage) =>
      ((stage.rank targetDate + later.length * (4 * targetDate + 2) : Nat) :
        WithTop Nat)
  | .opening _ _ | .closing _ _ => 0

/-- A rollover can always go on, and has less left to do. -/
theorem CallsSound.rollover_completes
    {targetDate : Nat} {stage : RolloverStage}
    (sound : CallsSound start before)
    (isSound : CallSound start before (.rollover targetDate stage)) :
    ∃ disk next,
      taskStep before.disk (.rollover targetDate stage) =
        .ok (disk, next) ∧
      ∀ later ∈ next,
        later.rank < (JournalTask.rollover targetDate stage).rank := by
  cases stage with
  | listStates =>
      refine ⟨_, _, rfl, ?_⟩
      intro later isNext
      show later.rank < ⊤
      cases listed : openStates before.disk with
      | nil => simp [listed, nextState] at isNext
      | cons gapId rest =>
          rw [listed] at isNext
          cases isNext
          exact WithTop.coe_lt_top _
  | roll gapId rest stage =>
      rcases isSound with ⟨ready, listed⟩
      rcases ready.completes sound.sealedDays
        (listed gapId List.mem_cons_self) with ⟨disk, next, completed⟩
      cases next with
      | some later =>
          refine ⟨disk, some (.rollover targetDate (.roll gapId rest later)),
            by simp only [taskStep, rolloverStep, completed], ?_⟩
          rintro task ⟨⟩
          have lower := rollStep_lowers ready.1.1 completed
          exact WithTop.coe_lt_coe.mpr (Nat.add_lt_add_right lower _)
      | none =>
          refine ⟨disk, nextState targetDate rest,
            by simp only [taskStep, rolloverStep, completed], ?_⟩
          intro task isNext
          cases rest with
          | nil => simp [nextState] at isNext
          | cons second others =>
              cases isNext
              have lower : 4 * targetDate + 1 +
                  others.length * (4 * targetDate + 2) <
                    stage.rank targetDate +
                      (second :: others).length * (4 * targetDate + 2) := by
                rw [List.length_cons, Nat.add_mul others.length 1]
                omega
              exact WithTop.coe_lt_coe.mpr lower

theorem nextState_sound_calls
    (start : JournalDisk) (after : JournalCalls) (targetDate : Nat) (later : List String)
    (listed : ∀ other ∈ later, (after.disk.openGaps.get? other).isSome) :
    ∀ task ∈ nextState targetDate later,
      CallSound start after task ∧ ∀ gapId, ¬ task.Creates gapId := by
  intro task isNext
  cases later with
  | nil => simp [nextState] at isNext
  | cons gapId rest =>
      cases isNext
      exact ⟨⟨readState_ready .., listed⟩, fun _ => id⟩

theorem CallsSound.rollover
    {targetDate : Nat} {stage : RolloverStage}
    (sound : CallsSound start before)
    (turn : before.tasks.Perm (.rollover targetDate stage :: others)) :
    CallsSound start (advance before (.rollover targetDate stage) others) := by
  have isSound := sound.turn turn
  rcases sound.rollover_completes isSound with ⟨disk, next, completed, _⟩
  have advanced := advance_advanced others completed (Or.inr rfl)
  cases stage with
  | listStates =>
      cases completed
      have listed : ∀ other ∈ openStates before.disk,
          ((advance before (.rollover targetDate .listStates)
            others).disk.openGaps.get? other).isSome := by
        intro other member
        rw [advanced.disk]
        exact mem_openStates_iff.mp member
      have nextSound := nextState_sound_calls start _ targetDate _ listed
      exact sound.reads turn advanced
        (fun later isNext => (nextSound later isNext).1)
        (fun later isNext => (nextSound later isNext).2)
  | roll gapId rest stage =>
      rcases isSound with ⟨ready, listed⟩
      simp only [taskStep, rolloverStep] at completed
      split at completed
      next => simp at completed
      next rolled =>
        cases completed
        have effect := rollStep_effect ready.1.1 rolled
        apply sound.rolls turn ready effect advanced
        · rintro later ⟨⟩
          constructor
          · rw [advanced.disk]
            exact ready.advances sound.sealedDays sound.states rolled
          · intro other member
            rw [advanced.disk, effect.isSome_iff ready.1]
            exact listed other member
        · rintro later ⟨⟩ other creates
          exact creates
      next rolled =>
        cases completed
        have effect := rollStep_effect ready.1.1 rolled
        have nextSound := nextState_sound_calls start
          (advance before (.rollover targetDate (.roll gapId rest stage))
            others)
          targetDate rest (by
            intro other member
            rw [advanced.disk, effect.isSome_iff ready.1]
            exact listed other (List.mem_cons_of_mem gapId member))
        exact sound.rolls turn ready effect advanced
          (fun later isNext => (nextSound later isNext).1)
          (fun later isNext => (nextSound later isNext).2)

theorem CallsSound.work
    (sound : CallsSound start before)
    (turn : before.tasks.Perm (task :: others))
    (spares : SparesHeld others task) :
    CallsSound start (advance before task others) := by
  cases task with
  | opening event published => exact sound.opening turn
  | closing event stage => exact sound.closing turn spares
  | rollover targetDate stage => exact sound.rollover turn

end Calls

/-! ## Every step keeps the invariant -/

section Steps

variable {start : JournalDisk} {before after : JournalCalls}

theorem CallsSound.spawn
    (sound : CallsSound start before) {task : JournalTask}
    (taskSound : CallSound start before task)
    (apart : ∀ gapId, task.Creates gapId → ∀ other ∈ before.tasks,
      ¬ other.Creates gapId) :
    CallsSound start { before with tasks := before.tasks ++ [task] } where
  sealedDays := sound.sealedDays
  states := sound.states
  known := sound.known
  closed := sound.closed
  tasks := by
    have same : ∀ other, CallSound start before other → CallSound start
        { before with tasks := before.tasks ++ [task] } other := by
      intro other otherSound
      apply otherSound.frame
      exact Spares.of_isSome before _ rfl (fun _ => Iff.rfl)
        fun _ member _ _ => member
    intro running member
    rcases List.mem_append.mp member with old | new
    · exact same running (sound.tasks running old)
    · rw [List.mem_singleton.mp new]
      exact same task taskSound
  apart := by
    rw [List.pairwise_append]
    refine ⟨sound.apart, List.pairwise_singleton _ _, ?_⟩
    intro other member new isNew gapId isOther isTask
    rw [List.mem_singleton.mp isNew] at isTask
    exact apart gapId isTask other member isOther
  failed := sound.failed

theorem CallsSound.step
    {label : CallLabel} (sound : CallsSound start before)
    (undisturbed : Undisturbed start before label)
    (stepped : callStep start before label = some after) :
    CallsSound start after := by
  cases label with
  | tick nowNs =>
      simp only [callStep, Option.ite_none_right_eq_some] at stepped
      rcases stepped with ⟨_, ⟨⟩⟩
      exact {
        sealedDays := sound.sealedDays
        states := sound.states
        known := sound.known
        closed := sound.closed
        tasks := fun task member =>
          (sound.tasks task member).frame
            (Spares.of_isSome before _ rfl (fun _ => Iff.rfl)
              fun _ member _ _ => member)
        apart := sound.apart
        failed := sound.failed }
  | openGap gapId affectedFrom call =>
      simp only [callStep, Option.ite_none_right_eq_some,
        Option.map_eq_some_iff] at stepped
      rcases stepped with ⟨⟨fresh, unknown, new⟩, event, built, rfl⟩
      rcases openEvent_eq_some built with ⟨sameGap, opened, _⟩
      apply sound.spawn
      · rw [← sameGap] at unknown
        refine ⟨opened, undisturbed event built, unknown, ?_⟩
        intro entry member same
        exact (fresh entry member (same.trans sameGap)).elim
      · intro other creates task member
        have same : event.gapId = other := creates
        rw [← same, sameGap]
        exact new task member
  | closeGap gapId call =>
      simp only [callStep, Option.ite_none_right_eq_some] at stepped
      rcases stepped with ⟨⟨isKnown, _⟩, ⟨⟩⟩
      apply sound.spawn
      · exact ⟨rfl, isKnown⟩
      · exact fun gapId creates => creates.elim
  | rollover utcDate =>
      cases stepped
      apply sound.spawn
      · trivial
      · exact fun gapId creates => creates.elim
  | work position =>
      simp only [callStep, Option.map_eq_some_iff] at stepped
      rcases stepped with ⟨task, found, rfl⟩
      exact sound.work (perm_eraseIdx found) (undisturbed task found)

theorem JournalReady.callsSound
    (ready : JournalReady start) (nowNs : Nat) :
    CallsSound start { disk := start, nowNs := nowNs } where
  sealedDays := rfl
  states := by
    intro gapId state found
    have member := start.openGaps.mem_entries_iff.mpr found
    exact ⟨ready.named _ member, ready.unsealed _ member⟩
  known := by
    intro gapId
    simp [Known, ClosedHere]
  closed := by
    rintro gapId ⟨event, member, _⟩
    cases member
  tasks := by
    rintro task ⟨⟩
  apart := List.Pairwise.nil
  failed := by
    rintro task ⟨⟩

/-- A genuine `CLOSED` event of the gap is recorded. -/
def ClosedPublished (disk : JournalDisk) (gapId : String) : Prop :=
  ∃ entry ∈ disk.index.recorded,
    entry.2.gapId = gapId ∧ GenuineClose entry.2

instance (disk : JournalDisk) (gapId : String) :
    Decidable (ClosedPublished disk gapId) :=
  inferInstanceAs (Decidable (∃ entry ∈ _, _))

theorem taskStep_recorded
    {task : JournalTask} {disk : JournalDisk} {next : Option JournalTask}
    (sound : CallSound start before task)
    (completed : taskStep before.disk task = .ok (disk, next)) :
    before.disk.index.recorded ⊆ disk.index.recorded := by
  have publishes : ∀ {event after}, before.disk.publish event = .ok after →
      before.disk.index.recorded ⊆ after.index.recorded :=
    fun published entry old =>
      (mem_recorded_publish published entry).mpr (Or.inl old)
  cases task with
  | opening event published =>
      cases published with
      | false =>
          simp only [taskStep] at completed
          split at completed
          next => simp at completed
          next recorded =>
            cases completed
            exact publishes recorded
      | true =>
          cases completed
          exact List.Subset.refl _
  | closing event stage =>
      cases stage with
      | findState =>
          simp only [taskStep, closingStep] at completed
          split at completed <;> cases completed <;>
            exact List.Subset.refl _
      | roll stage =>
          have ready := sound.2.2
          simp only [taskStep, closingStep] at completed
          split at completed
          next => simp at completed
          all_goals
            next rolled =>
              cases completed
              exact (rollStep_effect ready.1.1 rolled).recorded
      | publish =>
          simp only [taskStep, closingStep] at completed
          split at completed
          next => simp at completed
          next recorded =>
            cases completed
            exact publishes recorded
      | removeState =>
          cases completed
          exact List.Subset.refl _
  | rollover targetDate stage =>
      cases stage with
      | listStates =>
          cases completed
          exact List.Subset.refl _
      | roll gapId rest stage =>
          have ready := sound.1
          simp only [taskStep, rolloverStep] at completed
          split at completed
          next => simp at completed
          all_goals
            next rolled =>
              cases completed
              exact (rollStep_effect ready.1.1 rolled).recorded

/-- What a step leaves of the results and of the day index. -/
theorem advance_keeps
    {task : JournalTask} (sound : CallSound start before task)
    (others : List JournalTask) :
    before.disk.index.recorded ⊆
        (advance before task others).disk.index.recorded ∧
      ((advance before task others).returned = before.returned ∨
        ∃ event ∈ task.event?,
          (advance before task others).returned =
            before.returned ++ [event]) := by
  unfold advance
  cases completed : taskStep before.disk task with
  | error problem => exact ⟨List.Subset.refl _, Or.inl rfl⟩
  | ok result =>
      rcases result with ⟨disk, _ | next⟩
      · refine ⟨taskStep_recorded sound completed, ?_⟩
        cases isEvent : task.event? with
        | none => exact Or.inl (by simp)
        | some event => exact Or.inr ⟨event, rfl, by simp⟩
      · exact ⟨taskStep_recorded sound completed, Or.inl rfl⟩

/-- Only a call of `open` makes a gap known, and it has created it. -/
theorem CallsSound.known_or_creates
    {task : JournalTask} {others : List JournalTask} {gapId : String}
    (sound : CallSound start before task)
    (isKnown : Known start (advance before task others) gapId) :
    Known start before gapId ∨ task.Creates gapId := by
  rcases isKnown with old | ⟨event, member, opened, sameGap⟩
  · exact Or.inl (Or.inl old)
  · rcases (advance_keeps sound others).2 with
      same | ⟨result, isResult, extended⟩
    · rw [same] at member
      exact Or.inl (Or.inr ⟨event, member, opened, sameGap⟩)
    · rw [extended, List.mem_append, List.mem_singleton] at member
      rcases member with old | rfl
      · exact Or.inl (Or.inr ⟨event, old, opened, sameGap⟩)
      · cases task with
        | opening created published =>
            cases isResult
            exact Or.inr sameGap
        | closing closing stage =>
            cases isResult
            have closed : event.state = .closed := by
              cases stage <;> exact sound.1
            simp [opened] at closed
        | rollover targetDate stage => cases isResult

theorem closedHere_advance
    {task : JournalTask} {gapId : String}
    (sound : CallSound start before task) (others : List JournalTask)
    (closed : ClosedHere before gapId) :
    ClosedHere (advance before task others) gapId := by
  rcases closed with ⟨event, member, isClosed, sameGap⟩
  refine ⟨event, ?_, isClosed, sameGap⟩
  rcases (advance_keeps sound others).2 with same | ⟨result, _, extended⟩
  · rw [same]
    exact member
  · rw [extended]
    exact List.mem_append_left _ member

/-- A gap which is closed and has no state file gets none again. -/
theorem CallsSound.stays_removed
    {label : CallLabel} {gapId : String} (sound : CallsSound start before)
    (undisturbed : Undisturbed start before label)
    (stepped : callStep start before label = some after)
    (closed : ClosedPublished before.disk gapId)
    (removed : before.disk.openGaps.get? gapId = none) :
    ClosedPublished after.disk gapId ∧
      after.disk.openGaps.get? gapId = none := by
  cases label with
  | tick nowNs =>
      simp only [callStep, Option.ite_none_right_eq_some] at stepped
      rcases stepped with ⟨_, ⟨⟩⟩
      exact ⟨closed, removed⟩
  | openGap gapId affectedFrom call =>
      simp only [callStep, Option.ite_none_right_eq_some,
        Option.map_eq_some_iff] at stepped
      rcases stepped with ⟨_, event, _, rfl⟩
      exact ⟨closed, removed⟩
  | closeGap gapId call =>
      simp only [callStep, Option.ite_none_right_eq_some] at stepped
      rcases stepped with ⟨_, ⟨⟩⟩
      exact ⟨closed, removed⟩
  | rollover utcDate =>
      cases stepped
      exact ⟨closed, removed⟩
  | work position =>
      have soundAfter := sound.step undisturbed stepped
      simp only [callStep, Option.map_eq_some_iff] at stepped
      rcases stepped with ⟨task, found, rfl⟩
      have turn := perm_eraseIdx found
      have taskSound := sound.turn turn
      rcases closed with ⟨entry, recorded, sameGap, genuine⟩
      refine ⟨⟨entry, (advance_keeps taskSound _).1 recorded, sameGap,
        genuine⟩, ?_⟩
      by_contra present
      have accounts := (soundAfter.known gapId).mp
        (Option.isSome_iff_ne_none.mpr present)
      have notKnown : ¬ Known start before gapId := by
        intro isKnown
        have isSome := (sound.known gapId).mpr
          ⟨isKnown, mt (closedHere_advance taskSound _) accounts.2⟩
        simp [removed] at isSome
      rcases CallsSound.known_or_creates taskSound accounts.1 with
        isKnown | creates
      · exact notKnown isKnown
      · cases task with
        | opening event published =>
            exact taskSound.2.2.2 entry recorded
              (sameGap.trans creates.symm) genuine
        | closing event stage => exact creates
        | rollover targetDate stage => exact creates

/-- A gap which is closed, without a state file, in a sound state. -/
structure Removed (start : JournalDisk) (gapId : String)
    (calls : JournalCalls) : Prop where
  sound : CallsSound start calls
  closed : ClosedPublished calls.disk gapId
  removed : calls.disk.openGaps.get? gapId = none

theorem Removed.step
    {label : CallLabel} {gapId : String}
    (removed : Removed start gapId before)
    (undisturbed : Undisturbed start before label)
    (stepped : callStep start before label = some after) :
    Removed start gapId after := by
  rcases removed.sound.stays_removed undisturbed stepped removed.closed
    removed.removed with ⟨closed, absent⟩
  exact ⟨removed.sound.step undisturbed stepped, closed, absent⟩

end Steps

/-! ## The result -/

/--
A rollover never fails and always has a next step which leaves less to do; at
every moment the state files are those of the gaps which have been opened and
not been closed; and a gap whose `CLOSED` event is published gets no state file
again once it is removed.
-/
theorem rollover_tolerates
    {start : JournalDisk} (ready : JournalReady start)
    {startNs : Nat} {labels : List CallLabel} {final : JournalCalls}
    (undisturbed : StepsMeet (callStep start) (Undisturbed start)
      { disk := start, nowNs := startNs } labels)
    (reached : runFrom (callStep start)
      { disk := start, nowNs := startNs } labels = some final) :
    (∀ task ∈ final.failed, ¬ task.IsRollover) ∧
      (∀ task ∈ final.tasks, task.IsRollover → ∃ disk next,
        taskStep final.disk task = .ok (disk, next) ∧
          ∀ later ∈ next, later.rank < task.rank) ∧
      (∀ gapId, (final.disk.openGaps.get? gapId).isSome ↔
        Known start final gapId ∧ ¬ ClosedHere final gapId) ∧
      ∀ earlier later middle gapId, labels = earlier ++ later →
        runFrom (callStep start) { disk := start, nowNs := startNs }
            earlier = some middle →
          ClosedPublished middle.disk gapId →
            middle.disk.openGaps.get? gapId = none →
              final.disk.openGaps.get? gapId = none := by
  have sound : CallsSound start final :=
    invariant_of_run
      (fun _ _ _ before condition stepped => before.step condition stepped)
      (ready.callsSound startNs) undisturbed reached
  refine ⟨sound.failed, ?_, sound.known, ?_⟩
  · intro task member isRollover
    cases task with
    | opening event published => exact isRollover.elim
    | closing event stage => exact isRollover.elim
    | rollover targetDate stage =>
        exact sound.rollover_completes (sound.tasks _ member)
  · rintro earlier later middle gapId rfl upTo closed removed
    rcases undisturbed.of_append with ⟨first, second⟩
    have middleSound : CallsSound start middle :=
      invariant_of_run
        (fun _ _ _ before condition stepped => before.step condition stepped)
        (ready.callsSound startNs) first upTo
    rw [runFrom_append, upTo] at reached
    have last : Removed start gapId final :=
      invariant_of_run
        (fun _ _ _ before condition stepped => before.step condition stepped)
        (Removed.mk middleSound closed removed) (second middle upTo) reached
    exact last.removed

/-! ## Runs -/

/-- A gap is opened on the first day, and midnight comes. -/
def openFirst : List CallLabel :=
  [.openGap "gap-first" none { reason := .connectionLost },
    .work 0, .work 0, .tick (midnightNs 2)]

def closeFirst : CallLabel :=
  .closeGap "gap-first" { reason := .connectionLost }

/--
While a rollover is at work on the first gap, a second is opened, and a close
of the first has begun; it goes on when the rollover has finished.
-/
def overlappedRun : List CallLabel :=
  openFirst ++
    [.rollover 2, .work 0, .work 0,
      .openGap "gap-second" none { reason := .l2Sequence }, closeFirst,
      .work 1, .work 2, .work 1, .work 0, .work 1, .work 1, .work 1] ++
    List.replicate 3 (.work 0)

theorem overlappedRun_runs :
    (runFrom (callStep {}) { disk := {}, nowNs := midnightNs 1 }
      overlappedRun).isSome := by
  decide +kernel

/-- Where the run leads. -/
def overlappedFinal : JournalCalls :=
  (runFrom (callStep {}) { disk := {}, nowNs := midnightNs 1 }
    overlappedRun).get overlappedRun_runs

/-- No call has failed, and only the second gap has a state file. -/
theorem rollover_tolerates_overlapped :
    (∀ task ∈ overlappedFinal.failed, ¬ task.IsRollover) ∧
      overlappedFinal.tasks = [] ∧
      overlappedFinal.disk.openGaps.get? "gap-first" = none ∧
      (overlappedFinal.disk.openGaps.get? "gap-second").isSome := by
  have ready : JournalReady {} :=
    ⟨by simp [Dict.empty], by simp [Dict.empty]⟩
  have undisturbed : StepsMeet (callStep {}) (Undisturbed {})
      { disk := {}, nowNs := midnightNs 1 } overlappedRun := by
    decide +kernel
  have finished : overlappedFinal.tasks = [] ∧
      ClosedHere overlappedFinal "gap-first" ∧
      Known {} overlappedFinal "gap-second" ∧
      ¬ ClosedHere overlappedFinal "gap-second" := by
    decide +kernel
  rcases finished with ⟨finished, closed, second⟩
  rcases rollover_tolerates ready undisturbed
    (Option.some_get overlappedRun_runs).symm with
    ⟨noFailure, _, accounts, _⟩
  refine ⟨noFailure, finished, ?_, (accounts "gap-second").mpr second⟩
  rw [← Option.not_isSome_iff_eq_none]
  exact fun isOpen => ((accounts "gap-first").mp isOpen).2 closed

/-- The close comes between the listing of the files and the reading. -/
def unreadRun : List CallLabel :=
  openFirst ++ [.rollover 2, .work 0, closeFirst] ++
    List.replicate 8 (.work 1) ++ [.work 0]

/-- The close comes between the reading of the file and the writing. -/
def rewrittenRun : List CallLabel :=
  openFirst ++ [.rollover 2, .work 0, .work 0, closeFirst] ++
    List.replicate 8 (.work 1) ++ List.replicate 4 (.work 0)

/--
In the first run the rollover fails, as the state file it has listed is gone;
in the second it writes the state file of the closed gap again.
-/
theorem rollover_disturbed :
    (∃ final ∈ runFrom (callStep {}) { disk := {}, nowNs := midnightNs 1 }
        unreadRun,
      ∃ task ∈ final.failed, task.IsRollover) ∧
      ∃ final ∈ runFrom (callStep {})
          { disk := {}, nowNs := midnightNs 1 } rewrittenRun,
        final.tasks = [] ∧ final.failed = [] ∧ ClosedHere final "gap-first" ∧
          ClosedPublished final.disk "gap-first" ∧
          (final.disk.openGaps.get? "gap-first").isSome := by
  decide +kernel

end ShadowDataPlane.Edge
