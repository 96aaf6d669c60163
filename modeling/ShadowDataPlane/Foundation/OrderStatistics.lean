import Mathlib.Data.List.GetD
import Mathlib.Data.List.Sort

/-!
# Order statistics

The order statistic of a rank is the item at that place of the sorted list.  It
depends on the items alone and not on their order, it goes up with the rank,
and it does not go down when items go up (`orderStatistic_mono`).
-/

namespace ShadowDataPlane.Foundation

variable {α : Type*} [LinearOrder α]

/-! ## Sorting items which go up -/

/-- What is below all items comes first. -/
theorem orderedInsert_of_forall_le
    {item : α} {items : List α} (least : ∀ other ∈ items, item ≤ other) :
    items.orderedInsert (· ≤ ·) item = item :: items := by
  cases items with
  | nil => rfl
  | cons head tail =>
      exact List.orderedInsert_cons_of_le _ _ (least head List.mem_cons_self)

/-- Place by place, the insertion of a larger item gives a larger list. -/
theorem forall₂_orderedInsert
    {items others : List α} (below : List.Forall₂ (· ≤ ·) items others)
    (sorted : items.Pairwise (· ≤ ·)) (othersSorted : others.Pairwise (· ≤ ·))
    {item other : α} (le : item ≤ other) :
    List.Forall₂ (· ≤ ·) (items.orderedInsert (· ≤ ·) item)
      (others.orderedInsert (· ≤ ·) other) := by
  induction below generalizing item other with
  | nil => exact List.Forall₂.cons le List.Forall₂.nil
  | @cons head head' tail tail' headLe tailBelow induction =>
      rcases List.pairwise_cons.mp sorted with ⟨first, tailSorted⟩
      rcases List.pairwise_cons.mp othersSorted with ⟨first', tailSorted'⟩
      have inserted {small large : α} (le : small ≤ large) :
          List.Forall₂ (· ≤ ·) (tail.orderedInsert (· ≤ ·) small)
            (tail'.orderedInsert (· ≤ ·) large) :=
        induction tailSorted tailSorted' le
      rw [List.orderedInsert_cons, List.orderedInsert_cons]
      split
      next before =>
        split
        next => exact List.Forall₂.cons le (List.Forall₂.cons headLe tailBelow)
        next notBefore =>
          -- The head of the first list stands where the other is inserted.
          have moved := inserted (headLe.trans (le_of_not_ge notBefore))
          rw [orderedInsert_of_forall_le first] at moved
          exact List.Forall₂.cons (before.trans headLe) moved
      next notBefore =>
        split
        next before' =>
          have moved := inserted (le.trans before')
          rw [orderedInsert_of_forall_le first'] at moved
          exact List.Forall₂.cons ((le_of_not_ge notBefore).trans le) moved
        next => exact List.Forall₂.cons headLe (inserted le)

theorem forall₂_insertionSort
    {items others : List α} (below : List.Forall₂ (· ≤ ·) items others) :
    List.Forall₂ (· ≤ ·) (items.insertionSort (· ≤ ·))
      (others.insertionSort (· ≤ ·)) := by
  induction below with
  | nil => exact List.Forall₂.nil
  | cons le _ induction =>
      exact forall₂_orderedInsert induction
        (List.pairwise_insertionSort _ _) (List.pairwise_insertionSort _ _) le

/-- One item which goes up. -/
theorem forall₂_set
    {items : List α} {index : Nat} {raised : α}
    (le : ∀ item ∈ items[index]?, item ≤ raised) :
    List.Forall₂ (· ≤ ·) items (items.set index raised) := by
  induction items generalizing index with
  | nil => exact List.Forall₂.nil
  | cons head tail induction =>
      cases index with
      | zero => exact List.Forall₂.cons (le head rfl) (List.forall₂_refl tail)
      | succ index => exact List.Forall₂.cons le_rfl (induction le)

/-! ## Ranks -/

/-- The item of a rank, counted from zero; the default beyond the last. -/
def orderStatistic (default : α) (items : List α) (rank : Nat) : α :=
  (items.insertionSort (· ≤ ·)).getD rank default

variable {default : α} {items others : List α} {rank : Nat}

theorem orderStatistic_perm (perm : items.Perm others) :
    orderStatistic default items rank = orderStatistic default others rank := by
  have same : items.insertionSort (· ≤ ·) = others.insertionSort (· ≤ ·) :=
    (((List.perm_insertionSort _ items).trans perm).trans
      (List.perm_insertionSort _ others).symm).eq_of_pairwise
        (fun _ _ _ _ => le_antisymm) (List.pairwise_insertionSort _ items)
        (List.pairwise_insertionSort _ others)
  rw [orderStatistic, orderStatistic, same]

theorem orderStatistic_mem (inRange : rank < items.length) :
    orderStatistic default items rank ∈ items := by
  rw [← List.length_insertionSort (· ≤ ·) items] at inRange
  rw [orderStatistic, List.getD_eq_getElem _ _ inRange]
  exact (List.mem_insertionSort (· ≤ ·)).mp (List.getElem_mem inRange)

theorem orderStatistic_le_of_le
    {later : Nat} (le : rank ≤ later) (inRange : later < items.length) :
    orderStatistic default items rank ≤
      orderStatistic default items later := by
  rw [← List.length_insertionSort (· ≤ ·) items] at inRange
  rw [orderStatistic, orderStatistic, List.getD_eq_getElem _ _ inRange,
    List.getD_eq_getElem _ _ (le.trans_lt inRange)]
  rcases le.eq_or_lt with rfl | before
  · exact le_rfl
  · exact List.pairwise_iff_getElem.mp (List.pairwise_insertionSort _ items)
      rank later _ inRange before

theorem orderStatistic_mono (below : List.Forall₂ (· ≤ ·) items others) :
    orderStatistic default items rank ≤
      orderStatistic default others rank := by
  have sorted := forall₂_insertionSort below
  rw [orderStatistic, orderStatistic]
  by_cases inRange : rank < (items.insertionSort (· ≤ ·)).length
  · have inOthers := inRange
    rw [sorted.length_eq] at inOthers
    rw [List.getD_eq_getElem _ _ inRange, List.getD_eq_getElem _ _ inOthers]
    exact List.forall₂_iff_get.mp sorted |>.2 rank inRange inOthers
  · have notInOthers := inRange
    rw [sorted.length_eq] at notInOthers
    rw [List.getD_eq_default _ _ (Nat.not_lt.mp inRange),
      List.getD_eq_default _ _ (Nat.not_lt.mp notInOthers)]

end ShadowDataPlane.Foundation
