import ShadowDataPlane.Foundation.Dict

/-!
# The day index

Every chunk of a UTC day is recorded in the day's journal until the day is
sealed; sealing freezes the inventory.  A chunk recorded twice counts once, as
the source keys the inventory by chunk identity.

The inventory is kept in the order of recording, and only what is recorded is in
it: that the source reads manifests too, and sorts what it reads, is the matter
of the day's inventory on disk.  Disk errors, which the source answers by
freeing its reserve and trying again, are left out.
-/

namespace ShadowDataPlane.Edge

open ShadowDataPlane.Foundation

/-- `RuntimeError`: the UTC day is sealed. -/
structure SealedDayError where
  utcDate : Nat
deriving DecidableEq, Repr

/-- The references of all days, and the inventories of the sealed ones. -/
structure DayIndex (γ : Type*) where
  recorded : List (Nat × γ) := []
  sealedDays : Dict Nat (List γ) := Dict.empty
deriving DecidableEq

namespace DayIndex

variable {γ : Type*}

/-- Whether `SEALED.json` exists. -/
def DayIsSealed (index : DayIndex γ) (utcDate : Nat) : Prop :=
  (index.sealedDays.get? utcDate).isSome

instance (index : DayIndex γ) (utcDate : Nat) :
    Decidable (index.DayIsSealed utcDate) :=
  inferInstanceAs (Decidable (_ = true))

/-- The inventory of a day which is not sealed yet. -/
def refs (index : DayIndex γ) (utcDate : Nat) : List γ :=
  (index.recorded.filter fun entry => entry.1 = utcDate).map Prod.snd

def recordGenerated [DecidableEq γ] (index : DayIndex γ) (utcDate : Nat) (chunk : γ) :
    Except SealedDayError (DayIndex γ) :=
  if index.DayIsSealed utcDate then .error ⟨utcDate⟩
  else if (utcDate, chunk) ∈ index.recorded then .ok index
  else .ok { index with recorded := index.recorded ++ [(utcDate, chunk)] }

/-- Freeze the inventory of a day; a sealed day stays as it is. -/
def sealDay (index : DayIndex γ) (utcDate : Nat) : DayIndex γ :=
  if index.DayIsSealed utcDate then index
  else
    { index with
      sealedDays := index.sealedDays.set utcDate (index.refs utcDate) }

variable {index : DayIndex γ} {utcDate other : Nat}

@[simp]
theorem refs_sealDay (index : DayIndex γ) (utcDate other : Nat) :
    (index.sealDay utcDate).refs other = index.refs other := by
  unfold sealDay
  split <;> rfl

theorem dayIsSealed_sealDay :
    (index.sealDay utcDate).DayIsSealed other ↔
      other = utcDate ∨ index.DayIsSealed other := by
  unfold sealDay
  split
  next already =>
    constructor
    · exact Or.inr
    · rintro (rfl | isSealed)
      · exact already
      · exact isSealed
  next =>
    simp only [DayIsSealed, Dict.get?_set]
    split
    next same => simp [same]
    next different => simp [different]

/-- A sealed inventory holds what the day has recorded. -/
def SealsAgree (index : DayIndex γ) : Prop :=
  ∀ utcDate inventory, index.sealedDays.get? utcDate = some inventory →
    inventory = index.refs utcDate

theorem SealsAgree.sealDay
    (agree : index.SealsAgree) (utcDate : Nat) :
    (index.sealDay utcDate).SealsAgree := by
  intro date inventory found
  rw [refs_sealDay]
  unfold DayIndex.sealDay at found
  split at found
  next => exact agree date inventory found
  next =>
    rw [Dict.get?_set] at found
    split at found
    next same => rw [← Option.some.inj found, same]
    next => exact agree date inventory found

section Recording

variable [DecidableEq γ] {after : DayIndex γ} {chunk : γ}

theorem recordGenerated_eq_ok_iff :
    index.recordGenerated utcDate chunk = .ok after ↔
      ¬ index.DayIsSealed utcDate ∧
        after =
          { index with
            recorded :=
              if (utcDate, chunk) ∈ index.recorded then index.recorded
              else index.recorded ++ [(utcDate, chunk)] } := by
  unfold recordGenerated
  split
  next isSealed => simp [isSealed]
  next notSealed =>
    split
    next present =>
      simp only [Except.ok.injEq, notSealed, not_false_eq_true, true_and]
      exact eq_comm
    next absent =>
      simp only [Except.ok.injEq, notSealed, not_false_eq_true, true_and]
      exact eq_comm

/-- What recording a chunk does to the inventory of every day. -/
theorem refs_recordGenerated
    (completed : index.recordGenerated utcDate chunk = .ok after) :
    after.refs other =
      if other = utcDate ∧ chunk ∉ index.refs utcDate then
        index.refs other ++ [chunk]
      else index.refs other := by
  have known : (utcDate, chunk) ∈ index.recorded ↔
      chunk ∈ index.refs utcDate := by
    simp only [refs, List.mem_map, List.mem_filter, decide_eq_true_eq]
    constructor
    · exact fun member => ⟨(utcDate, chunk), ⟨member, rfl⟩, rfl⟩
    · rintro ⟨⟨date, item⟩, ⟨member, rfl⟩, rfl⟩
      exact member
  rcases recordGenerated_eq_ok_iff.mp completed with ⟨_, isAfter⟩
  by_cases present : (utcDate, chunk) ∈ index.recorded
  · rw [if_pos present] at isAfter
    have isKnown := known.mp present
    rw [if_neg fun both => both.2 isKnown, isAfter]
  · rw [if_neg present] at isAfter
    have unknown := mt known.mpr present
    by_cases same : other = utcDate
    · subst same
      rw [if_pos ⟨rfl, unknown⟩, isAfter]
      simp [refs]
    · have different : ¬ utcDate = other := Ne.symm same
      rw [if_neg fun both => same both.1, isAfter]
      simp [refs, different]

theorem sealedDays_recordGenerated
    (completed : index.recordGenerated utcDate chunk = .ok after) :
    after.sealedDays = index.sealedDays := by
  rcases recordGenerated_eq_ok_iff.mp completed with ⟨_, rfl⟩
  rfl

theorem dayIsSealed_recordGenerated
    (completed : index.recordGenerated utcDate chunk = .ok after) :
    after.DayIsSealed other ↔ index.DayIsSealed other := by
  rw [DayIsSealed, sealedDays_recordGenerated completed]
  rfl

theorem SealsAgree.recordGenerated
    (agree : index.SealsAgree)
    (completed : index.recordGenerated utcDate chunk = .ok after) :
    after.SealsAgree := by
  intro date inventory found
  have notSealed := (recordGenerated_eq_ok_iff.mp completed).1
  rw [sealedDays_recordGenerated completed] at found
  have different : date ≠ utcDate := by
    rintro rfl
    exact notSealed (by simp [DayIsSealed, found])
  rw [refs_recordGenerated completed,
    if_neg fun both => different both.1]
  exact agree date inventory found

end Recording

end DayIndex

end ShadowDataPlane.Edge
