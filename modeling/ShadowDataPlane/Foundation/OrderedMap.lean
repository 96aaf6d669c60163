import Mathlib.Data.List.Sort
import Mathlib.Order.Basic

/-!
# Finite maps in canonical order

An `OrderedMap` is a finite map stored as its key-ordered list of entries.
The strict order is a field, so two maps with the same bindings are equal and
no later proof has to quotient by an insertion order.

The operations are the ones a keyed accumulator needs: insertion, deletion,
and the two folds which build a map from a list of bindings.
-/

namespace ShadowDataPlane.Foundation

variable {κ ν : Type*} [LinearOrder κ]

/-- Insert a binding into a key-ordered entry list, replacing an equal key. -/
def insertEntry (key : κ) (value : ν) : List (κ × ν) → List (κ × ν)
  | [] => [(key, value)]
  | head :: tail =>
      if key < head.1 then (key, value) :: head :: tail
      else if key = head.1 then (key, value) :: tail
      else head :: insertEntry key value tail

theorem fst_mem_insertEntry
    {key : κ} {value : ν} {entries : List (κ × ν)} {entry : κ × ν}
    (member : entry ∈ insertEntry key value entries) :
    entry.1 = key ∨ entry ∈ entries := by
  induction entries with
  | nil =>
      simp only [insertEntry, List.mem_singleton] at member
      exact Or.inl (congrArg Prod.fst member)
  | cons head tail induction =>
      simp only [insertEntry] at member
      split at member
      · rcases List.mem_cons.mp member with rfl | old
        · exact Or.inl rfl
        · exact Or.inr old
      · split at member
        · rcases List.mem_cons.mp member with rfl | old
          · exact Or.inl rfl
          · exact Or.inr (List.mem_cons_of_mem _ old)
        · rcases List.mem_cons.mp member with rfl | old
          · exact Or.inr List.mem_cons_self
          · rcases induction old with equal | older
            · exact Or.inl equal
            · exact Or.inr (List.mem_cons_of_mem _ older)

theorem insertEntry_sorted
    (key : κ) (value : ν) {entries : List (κ × ν)}
    (sorted : entries.Pairwise fun left right => left.1 < right.1) :
    (insertEntry key value entries).Pairwise
      fun left right => left.1 < right.1 := by
  induction entries with
  | nil => simp [insertEntry]
  | cons head tail induction =>
      obtain ⟨headBelow, tailSorted⟩ := List.pairwise_cons.mp sorted
      simp only [insertEntry]
      split
      next below =>
        refine List.pairwise_cons.mpr ⟨?_, sorted⟩
        intro entry member
        rcases List.mem_cons.mp member with rfl | inTail
        · exact below
        · exact below.trans (headBelow entry inTail)
      next notBelow =>
        split
        next equal =>
          refine List.pairwise_cons.mpr ⟨?_, tailSorted⟩
          intro entry inTail
          simpa [equal] using headBelow entry inTail
        next different =>
          refine List.pairwise_cons.mpr ⟨?_, induction tailSorted⟩
          intro entry member
          rcases fst_mem_insertEntry member with equal | inTail
          · have above : head.1 < key :=
              lt_of_le_of_ne (not_lt.mp notBelow) (Ne.symm different)
            simpa [equal] using above
          · exact headBelow entry inTail

/-- A finite map, stored in the strict order of its keys. -/
structure OrderedMap (κ ν : Type*) [LinearOrder κ] where
  entries : List (κ × ν)
  sorted : entries.Pairwise fun left right => left.1 < right.1

namespace OrderedMap

instance [DecidableEq ν] : DecidableEq (OrderedMap κ ν) := fun left right =>
  decidable_of_iff (left.entries = right.entries)
    ⟨fun equal => by cases left; cases right; cases equal; rfl,
      fun equal => congrArg OrderedMap.entries equal⟩

@[ext]
theorem ext {left right : OrderedMap κ ν}
    (equal : left.entries = right.entries) : left = right := by
  cases left
  cases right
  cases equal
  rfl

/-- The map without bindings. -/
def empty : OrderedMap κ ν := ⟨[], List.Pairwise.nil⟩

/-- Bind `key` to `value`, replacing an earlier binding. -/
def insert (map : OrderedMap κ ν) (key : κ) (value : ν) : OrderedMap κ ν :=
  ⟨insertEntry key value map.entries,
    insertEntry_sorted key value map.sorted⟩

/-- Remove the binding of `key`, if there is one. -/
def erase (map : OrderedMap κ ν) (key : κ) : OrderedMap κ ν :=
  ⟨map.entries.filter fun entry => entry.1 ≠ key, map.sorted.filter _⟩

/-- The value bound to a key. -/
def get? (map : OrderedMap κ ν) (key : κ) : Option ν :=
  (map.entries.find? fun entry => entry.1 = key).map Prod.snd

/-- Whether the map has no binding. -/
def isEmpty (map : OrderedMap κ ν) : Bool := map.entries.isEmpty

/-- Insert one binding if `keep` accepts it. -/
def insertIf (keep : κ × ν → Bool) (map : OrderedMap κ ν) (binding : κ × ν) :
    OrderedMap κ ν :=
  if keep binding then map.insert binding.1 binding.2 else map

/-- Insert the bindings accepted by `keep`, later ones winning. -/
def ofListFilter (keep : κ × ν → Bool) (bindings : List (κ × ν)) :
    OrderedMap κ ν :=
  bindings.foldl (insertIf keep) empty

theorem insertEntry_append_of_above
    {key : κ} {value : ν} {entries : List (κ × ν)}
    (above : ∀ entry ∈ entries, entry.1 < key) :
    insertEntry key value entries = entries ++ [(key, value)] := by
  induction entries with
  | nil => rfl
  | cons head tail induction =>
      have headBelow := above head List.mem_cons_self
      have tailAbove : ∀ entry ∈ tail, entry.1 < key := fun entry member =>
        above entry (List.mem_cons_of_mem _ member)
      simp [insertEntry, not_lt.mpr headBelow.le, headBelow.ne',
        induction tailAbove]

theorem foldl_insertIf_of_sorted
    (keep : κ × ν → Bool) (rest : List (κ × ν)) (map : OrderedMap κ ν)
    (sorted :
      (map.entries ++ rest).Pairwise fun left right => left.1 < right.1)
    (kept : ∀ entry ∈ rest, keep entry = true) :
    (rest.foldl (insertIf keep) map).entries = map.entries ++ rest := by
  induction rest generalizing map with
  | nil => simp
  | cons head tail induction =>
      have headAbove : ∀ entry ∈ map.entries, entry.1 < head.1 :=
        fun entry member =>
          (List.pairwise_append.mp sorted).2.2 entry member head
            List.mem_cons_self
      have inserted :
          (insertIf keep map head).entries = map.entries ++ [head] := by
        simp [insertIf, kept head List.mem_cons_self, insert,
          insertEntry_append_of_above headAbove]
      rw [List.foldl_cons, induction]
      · simp [inserted]
      · simpa [inserted] using sorted
      · exact fun entry member =>
          kept entry (List.mem_cons_of_mem _ member)

/-- Rebuilding a map from its own entries returns the map. -/
theorem ofListFilter_entries
    (keep : κ × ν → Bool) (map : OrderedMap κ ν)
    (kept : ∀ entry ∈ map.entries, keep entry = true) :
    ofListFilter keep map.entries = map := by
  apply ext
  have folded :=
    foldl_insertIf_of_sorted keep map.entries empty
      (by simpa [empty] using map.sorted) kept
  simpa [ofListFilter, empty] using folded

theorem get?_empty (key : κ) :
    (empty : OrderedMap κ ν).get? key = none := rfl

theorem find?_insertEntry
    (key other : κ) (value : ν) (entries : List (κ × ν)) :
    (insertEntry key value entries).find? (fun entry => entry.1 = other) =
      if key = other then some (key, value)
      else entries.find? fun entry => entry.1 = other := by
  induction entries with
  | nil => by_cases same : key = other <;> simp [insertEntry, same]
  | cons head tail induction =>
      rw [insertEntry]
      split
      next => by_cases same : key = other <;> simp [same]
      next notBelow =>
        split
        next isHead =>
          by_cases same : key = other
          · simp [same]
          · have headDiffers : head.1 ≠ other := isHead ▸ same
            simp [same, headDiffers]
        next notHead =>
          rw [List.find?_cons, induction, List.find?_cons]
          by_cases same : key = other
          · have headDiffers : head.1 ≠ other := fun isOther =>
              notHead (same.trans isOther.symm)
            simp [same, headDiffers]
          · simp [same]

theorem get?_insert
    (map : OrderedMap κ ν) (key other : κ) (value : ν) :
    (map.insert key value).get? other =
      if key = other then some value else map.get? other := by
  rw [get?, insert, find?_insertEntry]
  split <;> rfl

theorem get?_erase (map : OrderedMap κ ν) (key other : κ) :
    (map.erase key).get? other =
      if key = other then none else map.get? other := by
  rw [get?, erase, List.find?_filter]
  by_cases same : key = other
  · subst same
    simp
  · have sameTest : (fun entry : κ × ν =>
        decide (decide (entry.1 ≠ key) = true ∧
          decide (entry.1 = other) = true)) =
        fun entry => decide (entry.1 = other) := by
      funext entry
      by_cases isOther : entry.1 = other
      · simp [isOther, Ne.symm same]
      · simp [isOther]
    rw [if_neg same, get?, sameTest]

/-- A property of bindings survives insertion of a binding which has it. -/
theorem forall_insert
    {holds : κ × ν → Prop} {map : OrderedMap κ ν} {key : κ} {value : ν}
    (old : ∀ entry ∈ map.entries, holds entry)
    (new : holds (key, value)) :
    ∀ entry ∈ (map.insert key value).entries, holds entry := by
  obtain ⟨entries, sorted⟩ := map
  simp only [insert] at old ⊢
  clear sorted
  induction entries with
  | nil => simpa [insertEntry] using new
  | cons head tail induction =>
      have tailOld : ∀ entry ∈ tail, holds entry := fun entry member =>
        old entry (List.mem_cons_of_mem _ member)
      have headOld := old head List.mem_cons_self
      intro entry member
      simp only [insertEntry] at member
      split at member
      · rcases List.mem_cons.mp member with rfl | inOld
        · exact new
        · exact old entry inOld
      · split at member
        · rcases List.mem_cons.mp member with rfl | inTail
          · exact new
          · exact tailOld entry inTail
        · rcases List.mem_cons.mp member with rfl | inTail
          · exact headOld
          · exact induction tailOld entry inTail

/-- A property of bindings survives deletion. -/
theorem forall_erase
    {holds : κ × ν → Prop} {map : OrderedMap κ ν} {key : κ}
    (old : ∀ entry ∈ map.entries, holds entry) :
    ∀ entry ∈ (map.erase key).entries, holds entry := fun entry member =>
  old entry (List.mem_of_mem_filter member)

end OrderedMap

end ShadowDataPlane.Foundation
