import ShadowDataPlane.Edge.GapDecomposition

/-!
# What the next boot finds

`stale_open_events` reads the state files which earlier boots have left.  A
gap which the day index shows open (`Unclosed`) can be closed by the next boot
only if its state file is among them.

The first section says once what a step of `_roll_state_to` does to the state
files and to the day index.
-/

namespace ShadowDataPlane.Edge

open ShadowDataPlane.Foundation
open ShadowDataPlane.Contracts
open ShadowDataPlane.Central
open JournalDisk

/-! ## The effect of one step -/

section Effects

variable {disk after : JournalDisk} {event : GapEventV1}

theorem mem_recorded_publish
    (completed : disk.publish event = .ok after)
    (entry : Nat × GapEventV1) :
    entry ∈ after.index.recorded ↔
      entry ∈ disk.index.recorded ∨ entry = (event.eventDate, event) := by
  unfold JournalDisk.publish at completed
  split at completed
  next => simp at completed
  next index recorded =>
    rw [← Except.ok.inj completed,
      (DayIndex.recordGenerated_eq_ok_iff.mp recorded).2]
    show entry ∈ (if _ then disk.index.recorded else _) ↔ _
    split
    next present =>
      constructor
      · exact Or.inl
      · rintro (old | rfl)
        · exact old
        · exact present
    next => simp

/-- The gap a stage of the roll works on, and the day it has reached. -/
def RollStage.Rolls (gapId : String) (targetDate : Nat) : RollStage → Prop
  | .readState => True
  | .checkSealed opened | .closePrevious opened | .openNext opened =>
      opened.gapId = gapId ∧ rollDate opened < targetDate
  | .writeState opened => opened.gapId = gapId

/-- An event which a roll up to a date may record for a gap. -/
structure RolledEvent (gapId : String) (targetDate : Nat)
    (event : GapEventV1) : Prop where
  gapId : event.gapId = gapId
  opens : event.state = .opened → event.effectiveNs ≤ midnightNs targetDate
  closes : event.state = .closed → event.detail = continuesDetail

/-- What one step of a roll does. -/
structure RollEffect (disk : JournalDisk) (gapId : String)
    (targetDate : Nat) (stage : RollStage) (after : JournalDisk) :
    Prop where
  others : ∀ other ≠ gapId,
    after.openGaps.get? other = disk.openGaps.get? other
  state : after.openGaps.get? gapId = disk.openGaps.get? gapId ∨
    ∃ opened, stage = .writeState opened ∧
      after.openGaps.get? gapId = some opened
  recorded : disk.index.recorded ⊆ after.index.recorded
  added : ∀ entry ∈ after.index.recorded,
    entry ∈ disk.index.recorded ∨
      RolledEvent gapId targetDate entry.2
  sealedDays : after.index.sealedDays = disk.index.sealedDays

variable {gapId : String} {targetDate : Nat} {stage : RollStage}
variable {next : Option RollStage}

theorem RollEffect.refl
    (disk : JournalDisk) (gapId : String) (targetDate : Nat)
    (stage : RollStage) :
    RollEffect disk gapId targetDate stage disk where
  others := fun _ _ => rfl
  state := Or.inl rfl
  recorded := List.Subset.refl _
  added := fun _ => Or.inl
  sealedDays := rfl

theorem RollEffect.of_publish
    (completed : disk.publish event = .ok after)
    (rolled : RolledEvent gapId targetDate event) :
    RollEffect disk gapId targetDate stage after where
  others := fun other _ => by rw [(publish_ok completed).openGaps]
  state := Or.inl (by rw [(publish_ok completed).openGaps])
  recorded := fun entry old =>
    (mem_recorded_publish completed entry).mpr (Or.inl old)
  added := by
    intro entry member
    apply ((mem_recorded_publish completed entry).mp member).imp_right
    rintro rfl
    exact rolled
  sealedDays := (publish_ok completed).sealedDays

theorem continuedClosing_rolled
    {opened : GapEventV1} (sameGap : opened.gapId = gapId) :
    RolledEvent gapId targetDate (continuedClosing opened) where
  gapId := sameGap
  opens := by simp [continuedClosing]
  closes := fun _ => rfl

theorem continuedOpening_rolled
    {opened : GapEventV1} (sameGap : opened.gapId = gapId)
    (before : rollDate opened < targetDate) :
    RolledEvent gapId targetDate (continuedOpening opened) where
  gapId := sameGap
  opens := by
    intro _
    rw [continuedOpening_effectiveNs, midnightNs_le_midnightNs_iff]
    exact before
  closes := by simp [continuedOpening]

theorem rollStep_effect
    (rolls : stage.Rolls gapId targetDate)
    (completed : rollStep disk gapId targetDate stage = .ok (after, next)) :
    RollEffect disk gapId targetDate stage after := by
  cases stage with
  | readState =>
      simp only [rollStep] at completed
      split at completed
      next => simp at completed
      next =>
        cases completed
        exact RollEffect.refl ..
  | checkSealed opened =>
      simp only [rollStep] at completed
      split at completed
      · cases completed
        exact RollEffect.refl ..
      · cases completed
        exact RollEffect.refl ..
  | closePrevious opened =>
      simp only [rollStep] at completed
      split at completed
      next => simp at completed
      next published =>
        cases completed
        exact RollEffect.of_publish published
          (continuedClosing_rolled rolls.1)
  | openNext opened =>
      simp only [rollStep] at completed
      split at completed
      next => simp at completed
      next published =>
        cases completed
        exact RollEffect.of_publish published
          (continuedOpening_rolled rolls.1 rolls.2)
  | writeState opened =>
      cases completed
      exact {
        others := fun other different => by
          simp [Dict.get?_set, different]
        state := Or.inr ⟨opened, rfl, Dict.get?_set_self _ _ _⟩
        recorded := List.Subset.refl _
        added := fun _ => Or.inl
        sealedDays := rfl }

theorem rolls_nextDate
    {opened : GapEventV1} (sameGap : opened.gapId = gapId)
    (isNext : nextDate opened targetDate = some stage) :
    stage.Rolls gapId targetDate := by
  unfold nextDate at isNext
  split at isNext
  next before =>
    cases isNext
    exact ⟨sameGap, before⟩
  next => simp at isNext

/-- The next stage works on the same gap, if its state file names it. -/
theorem rollStep_rolls
    (rolls : stage.Rolls gapId targetDate)
    (named : ∀ state, disk.openGaps.get? gapId = some state →
      state.gapId = gapId)
    (completed :
      rollStep disk gapId targetDate stage = .ok (after, some later)) :
    RollStage.Rolls gapId targetDate later := by
  cases stage with
  | readState =>
      simp only [rollStep] at completed
      split at completed
      next => simp at completed
      next opened found =>
        simp only [Except.ok.injEq, Prod.mk.injEq] at completed
        exact rolls_nextDate (named opened found) completed.2
  | checkSealed opened =>
      simp only [rollStep] at completed
      split at completed
      · cases completed
        exact rolls
      · cases completed
        exact rolls
  | closePrevious opened =>
      simp only [rollStep] at completed
      split at completed
      next => simp at completed
      next =>
        cases completed
        exact rolls
  | openNext opened =>
      simp only [rollStep] at completed
      split at completed
      next => simp at completed
      next =>
        cases completed
        exact rolls.1
  | writeState opened =>
      simp only [rollStep, Except.ok.injEq, Prod.mk.injEq] at completed
      exact rolls_nextDate rolls completed.2

/-- A step which keeps going, or has nothing to do, has found the file. -/
theorem rollStep_found
    (completed :
      rollStep disk gapId targetDate .readState = .ok (after, next)) :
    (after.openGaps.get? gapId).isSome := by
  simp only [rollStep] at completed
  split at completed
  next => simp at completed
  next found =>
    cases completed
    simp [found]

end Effects

/-! ## Gaps nobody has closed -/

/-- A `CLOSED` event of a caller, not one of a rollover. -/
def GenuineClose (event : GapEventV1) : Prop :=
  event.state = .closed ∧ event.detail ≠ continuesDetail

instance (event : GapEventV1) : Decidable (GenuineClose event) :=
  inferInstanceAs (Decidable (_ ∧ _))

/-- An `OPEN` event is recorded and no later genuine `CLOSED` event. -/
def Unclosed (disk : JournalDisk) (gapId : String) : Prop :=
  ∃ opening ∈ disk.index.recorded,
    opening.2.gapId = gapId ∧ opening.2.state = .opened ∧
      ∀ closing ∈ disk.index.recorded, closing.2.gapId = gapId →
        GenuineClose closing.2 →
          closing.2.observedAtRealtimeNs < opening.2.effectiveNs

instance (disk : JournalDisk) (gapId : String) :
    Decidable (Unclosed disk gapId) :=
  inferInstanceAs (Decidable (∃ opening ∈ _, _ ∧ _ ∧ ∀ closing ∈ _, _ → _))

def staleOpenEvents (disk : JournalDisk) : List GapEventV1 :=
  (openStates disk).filterMap disk.openGaps.get?

theorem mem_staleOpenEvents
    {disk : JournalDisk} {gapId : String} {state : GapEventV1}
    (found : disk.openGaps.get? gapId = some state) :
    state ∈ staleOpenEvents disk := by
  apply List.mem_filterMap.mpr
  exact ⟨gapId, mem_openStates_iff.mpr (by simp [found]), found⟩

/-- The gap whose `OPEN` event is published and its state not written. -/
def halfOpened : Option JournalTask → Option String
  | some (.opening event true) => some event.gapId
  | _ => none

/-- What a stage of a roll relies on. -/
def RollKeeps (disk : JournalDisk) (gapId : String) (targetDate : Nat)
    (stage : RollStage) : Prop :=
  stage.Rolls gapId targetDate ∧
    (stage ≠ .readState → (disk.openGaps.get? gapId).isSome)

section Preservation

variable {disk after : JournalDisk} {event : GapEventV1}
variable {gapId other : String} {targetDate : Nat} {stage : RollStage}

/-- What is added leaves open only what was, or the gap it opens. -/
theorem Unclosed.of_added
    (unclosed : Unclosed after gapId)
    (added : ∀ entry, entry ∈ after.index.recorded ↔
      entry ∈ disk.index.recorded ∨ entry = (event.eventDate, event)) :
    Unclosed disk gapId ∨
      event.gapId = gapId ∧ event.state = .opened ∧
        ∀ closing ∈ disk.index.recorded, closing.2.gapId = gapId →
          GenuineClose closing.2 →
            closing.2.observedAtRealtimeNs < event.effectiveNs := by
  rcases unclosed with ⟨opening, member, sameGap, opened, unanswered⟩
  rcases (added opening).mp member with old | rfl
  · refine Or.inl ⟨opening, old, sameGap, opened, ?_⟩
    intro closing recorded
    exact unanswered closing ((added closing).mpr (Or.inl recorded))
  · refine Or.inr ⟨sameGap, opened, ?_⟩
    intro closing recorded
    exact unanswered closing ((added closing).mpr (Or.inl recorded))

theorem Unclosed.of_roll
    (unclosed : Unclosed after other)
    (effect : RollEffect disk gapId targetDate stage after)
    (different : other ≠ gapId) :
    Unclosed disk other := by
  rcases unclosed with ⟨opening, member, sameGap, opened, unanswered⟩
  refine ⟨opening, ?_, sameGap, opened, ?_⟩
  · rcases effect.added opening member with old | rolled
    · exact old
    · exact (different (sameGap.symm.trans rolled.gapId)).elim
  · intro closing recorded
    exact unanswered closing (effect.recorded recorded)

theorem RollEffect.state_isSome
    (effect : RollEffect disk gapId targetDate stage after)
    (found : (disk.openGaps.get? gapId).isSome) :
    (after.openGaps.get? gapId).isSome := by
  rcases effect.state with same | ⟨opened, _, written⟩
  · rw [same]
    exact found
  · simp [written]

/-- A step of a roll leaves the state file of its gap in place. -/
theorem RollKeeps.present
    {next : Option RollStage} (keeps : RollKeeps disk gapId targetDate stage)
    (completed : rollStep disk gapId targetDate stage = .ok (after, next)) :
    (after.openGaps.get? gapId).isSome := by
  by_cases reads : stage = .readState
  · subst reads
    exact rollStep_found completed
  · exact (rollStep_effect keeps.1 completed).state_isSome (keeps.2 reads)

theorem RollEffect.named
    (effect : RollEffect disk gapId targetDate stage after)
    (rolls : stage.Rolls gapId targetDate)
    (named : ∀ other state, disk.openGaps.get? other = some state →
      state.gapId = other) :
    ∀ other state, after.openGaps.get? other = some state →
      state.gapId = other := by
  intro other state found
  by_cases same : other = gapId
  · subst same
    rcases effect.state with unchanged | ⟨opened, rfl, written⟩
    · exact named other state (unchanged ▸ found)
    · rw [written] at found
      rw [← Option.some.inj found]
      exact rolls
  · exact named other state (effect.others other same ▸ found)

end Preservation

end ShadowDataPlane.Edge
