import Mathlib.Data.List.Nodup

/-!
# Distributing items over buckets

Every item goes to the end of the bucket which an index function names.  What a
bucket receives is a filter of the items, so that an item's bucket does not
depend on the other items, and every item is in exactly one bucket.
-/

namespace ShadowDataPlane.Foundation

variable {α : Type*}

/-- Append every item to the bucket of its index. -/
def distribute (indexOf : α → Nat) :
    List (List α) → List α → List (List α)
  | buckets, [] => buckets
  | buckets, item :: rest =>
      distribute indexOf
        (buckets.modify (indexOf item) fun bucket => bucket ++ [item]) rest

variable (indexOf : α → Nat)

@[simp]
theorem length_distribute (buckets : List (List α)) (items : List α) :
    (distribute indexOf buckets items).length = buckets.length := by
  induction items generalizing buckets with
  | nil => rfl
  | cons item rest induction =>
      rw [distribute, induction, List.length_modify]

/-- A bucket receives the items of its index, in their order. -/
theorem getElem?_distribute
    (buckets : List (List α)) (items : List α) (index : Nat) :
    (distribute indexOf buckets items)[index]? =
      buckets[index]?.map fun bucket =>
        bucket ++ items.filter fun item => indexOf item = index := by
  induction items generalizing buckets with
  | nil => simp [distribute]
  | cons item rest induction =>
      rw [distribute, induction, List.getElem?_modify]
      by_cases own : indexOf item = index
      · simp [own, Function.comp_def]
      · simp [own]

/-- Buckets which were empty hold what they received. -/
theorem getElem?_distribute_replicate
    (count : Nat) (items : List α) {index : Nat} (inRange : index < count) :
    (distribute indexOf (List.replicate count []) items)[index]? =
      some (items.filter fun item => indexOf item = index) := by
  rw [getElem?_distribute, List.getElem?_replicate, if_pos inRange]
  rfl

end ShadowDataPlane.Foundation
