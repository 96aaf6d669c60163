import Mathlib.Data.List.Sort

/-!
# Stable sorting

Python's `sorted` keeps the order of equal keys, as `List.insertionSort` does.
Sorting commutes with filtering, and a list whose first part lies below its
second is sorted part by part.
-/

namespace ShadowDataPlane.Foundation

variable {α : Type*} (below : α → α → Prop) [DecidableRel below]

theorem orderedInsert_append
    {item : α} (left : List α) {right : List α}
    (first : ∀ other ∈ right, below item other) :
    (left ++ right).orderedInsert below item =
      left.orderedInsert below item ++ right := by
  induction left with
  | nil =>
      cases right with
      | nil => rfl
      | cons head rest =>
          exact List.orderedInsert_cons_of_le below rest
            (first head List.mem_cons_self)
  | cons head rest induction =>
      rw [List.cons_append, List.orderedInsert_cons,
        List.orderedInsert_cons]
      split
      · rfl
      · rw [induction]
        rfl

/-- A list whose first part lies below its second is sorted part by part. -/
theorem insertionSort_append
    {left right : List α}
    (apart : ∀ item ∈ left, ∀ other ∈ right, below item other) :
    (left ++ right).insertionSort below =
      left.insertionSort below ++ right.insertionSort below := by
  induction left with
  | nil => rfl
  | cons item rest induction =>
      rw [List.cons_append, List.insertionSort_cons,
        List.insertionSort_cons]
      rw [induction fun other member =>
        apart other (List.mem_cons_of_mem _ member)]
      apply orderedInsert_append
      intro other member
      apply apart item List.mem_cons_self
      exact (List.perm_insertionSort below right).mem_iff.mp member

/-- Images are sorted as what they are images of. -/
theorem insertionSort_map
    {β : Type*} (image : β → α) (items : List β) :
    (items.map image).insertionSort below =
      (items.insertionSort fun left right =>
        below (image left) (image right)).map image :=
  (List.map_insertionSort (fun left right => below (image left) (image right))
    below image items fun _ _ _ _ => Iff.rfl).symm

section Filter

variable [IsTrans α below]

theorem filter_orderedInsert
    (keep : α → Bool) (item : α) {items : List α}
    (sorted : items.Pairwise below) :
    (items.orderedInsert below item).filter keep =
      if keep item then (items.filter keep).orderedInsert below item
      else items.filter keep := by
  induction items with
  | nil => by_cases kept : keep item <;> simp [kept]
  | cons head rest induction =>
      rcases List.pairwise_cons.mp sorted with ⟨first, restSorted⟩
      by_cases before : below item head
      · -- The item goes first, before everything the filter keeps.
        have goesFirst :
            ((head :: rest).filter keep).orderedInsert below item =
              item :: (head :: rest).filter keep := by
          cases kept : (head :: rest).filter keep with
          | nil => rfl
          | cons other others =>
              have member : other ∈ head :: rest :=
                List.mem_of_mem_filter
                  (kept ▸ List.mem_cons_self : other ∈ _)
              have later : below item other := by
                rcases List.mem_cons.mp member with rfl | inRest
                · exact before
                · exact IsTrans.trans _ _ _ before (first other inRest)
              exact List.orderedInsert_cons_of_le _ _ later
        rw [List.orderedInsert_cons, if_pos before, goesFirst,
          List.filter_cons]
      · have insertion (others : List α) :
            (head :: others).orderedInsert below item =
              head :: others.orderedInsert below item := by
          rw [List.orderedInsert_cons, if_neg before]
        have tail := induction restSorted
        rw [insertion]
        by_cases keepHead : keep head
        · rw [List.filter_cons_of_pos keepHead, tail,
            List.filter_cons_of_pos keepHead, insertion]
          split <;> rfl
        · rw [List.filter_cons_of_neg keepHead, tail,
            List.filter_cons_of_neg keepHead]

/-- Sorting and filtering commute. -/
theorem filter_insertionSort
    [Std.Total below] (keep : α → Bool) (items : List α) :
    (items.insertionSort below).filter keep =
      (items.filter keep).insertionSort below := by
  induction items with
  | nil => rfl
  | cons item rest induction =>
      rw [List.insertionSort_cons,
        filter_orderedInsert below keep item
          (List.pairwise_insertionSort below rest),
        induction, List.filter_cons]
      split <;> rfl

end Filter

/-- An item more stands somewhere among the others when all are sorted. -/
theorem exists_insertionSort_insert
    [IsTrans α below] [Std.Total below] (item : α) (left right : List α) :
    ∃ before after,
      (left ++ item :: right).insertionSort below = before ++ item :: after ∧
        (left ++ right).insertionSort below = before ++ after := by
  induction left with
  | nil =>
      refine ⟨_, _, List.orderedInsert_eq_take_drop below item _, ?_⟩
      exact (List.takeWhile_append_dropWhile).symm
  | cons head rest induction =>
      rcases induction with ⟨before, after, withItem, without⟩
      rw [List.cons_append, List.cons_append, List.insertionSort_cons,
        List.insertionSort_cons, withItem, without]
      have sorted := List.pairwise_insertionSort below (rest ++ item :: right)
      rw [withItem] at sorted
      clear withItem without
      induction before with
      | cons first others inner =>
          by_cases ahead : below head first
          · refine ⟨head :: first :: others, after, ?_, ?_⟩
            · rw [List.cons_append, List.orderedInsert_cons_of_le _ _ ahead]
              rfl
            · rw [List.cons_append, List.orderedInsert_cons_of_le _ _ ahead]
              rfl
          · rcases inner (List.pairwise_cons.mp sorted).2 with
              ⟨before, after', withItem, without⟩
            refine ⟨first :: before, after', ?_, ?_⟩
            · rw [List.cons_append,
                List.orderedInsert_of_not_le _ _ ahead, withItem]
              rfl
            · rw [List.cons_append,
                List.orderedInsert_of_not_le _ _ ahead, without]
              rfl
      | nil =>
          rw [List.nil_append, List.nil_append]
          by_cases ahead : below head item
          · -- What stands behind the item stands behind the head, too.
            refine ⟨[head], after, ?_, ?_⟩
            · rw [List.orderedInsert_cons_of_le _ _ ahead]
              rfl
            · cases after with
              | nil => rfl
              | cons next others =>
                  have behind : below head next :=
                    IsTrans.trans _ _ _ ahead
                      ((List.pairwise_cons.mp sorted).1 next
                        List.mem_cons_self)
                  rw [List.orderedInsert_cons_of_le _ _ behind]
                  rfl
          · refine ⟨[], after.orderedInsert below head, ?_, rfl⟩
            rw [List.orderedInsert_of_not_le _ _ ahead]
            rfl

/-- Items with different keys are sorted by them in one way. -/
theorem insertionSort_perm
    {κ : Type*} [LinearOrder κ] {key : α → κ} {items others : List α}
    (perm : items.Perm others) (distinct : (items.map key).Nodup) :
    items.insertionSort (fun left right => key left ≤ key right) =
      others.insertionSort fun left right => key left ≤ key right := by
  have total : Std.Total fun left right : α => key left ≤ key right :=
    ⟨fun left right => le_total (key left) (key right)⟩
  have trans : IsTrans α fun left right => key left ≤ key right :=
    ⟨fun _ _ _ first second => le_trans first second⟩
  have sortedItems := List.perm_insertionSort
    (fun left right => key left ≤ key right) items
  have sortedOthers := List.perm_insertionSort
    (fun left right => key left ≤ key right) others
  refine List.Perm.eq_of_pairwise ?_ (List.pairwise_insertionSort _ items)
    (List.pairwise_insertionSort _ others)
    (sortedItems.trans (perm.trans sortedOthers.symm))
  intro left right isLeft isRight before after
  exact List.inj_on_of_nodup_map distinct (sortedItems.mem_iff.mp isLeft)
    (perm.mem_iff.mpr (sortedOthers.mem_iff.mp isRight))
    (le_antisymm before after)

/-! ## Sorting by a key -/

section Keys

variable {κ : Type*} [LinearOrder κ]

/-- Python's `sorted(items, key=key)`. -/
def sortByKey (key : α → κ) (items : List α) : List α :=
  items.insertionSort fun left right => key left ≤ key right

variable {key : α → κ}

theorem mem_sortByKey {items : List α} {item : α} :
    item ∈ sortByKey key items ↔ item ∈ items :=
  (List.perm_insertionSort _ items).mem_iff

theorem sortByKey_sorted (items : List α) :
    (sortByKey key items).Pairwise fun left right => key left ≤ key right := by
  have total : Std.Total fun left right => key left ≤ key right :=
    ⟨fun left right => le_total (key left) (key right)⟩
  have transitive : IsTrans α fun left right => key left ≤ key right :=
    ⟨fun _ _ _ => le_trans⟩
  exact List.pairwise_insertionSort _ items

theorem filter_sortByKey (keep : α → Bool) (items : List α) :
    (sortByKey key items).filter keep = sortByKey key (items.filter keep) := by
  have total : Std.Total fun left right => key left ≤ key right :=
    ⟨fun left right => le_total (key left) (key right)⟩
  have transitive : IsTrans α fun left right => key left ≤ key right :=
    ⟨fun _ _ _ => le_trans⟩
  exact filter_insertionSort _ keep items

/-- What is not above one of the first items is one of them as well. -/
theorem mem_take_of_key_le
    {items : List α} {count : Nat} {first item : α}
    (sorted : items.Pairwise fun left right => key left ≤ key right)
    (taken : first ∈ items.take count) (member : item ∈ items)
    (le : key item ≤ key first) (unique : key item = key first → item = first) :
    item ∈ items.take count := by
  rw [← List.take_append_drop count items] at member sorted
  rcases List.mem_append.mp member with inFront | behind
  · exact inFront
  · have above := (List.pairwise_append.mp sorted).2.2 first taken item behind
    rw [unique (le_antisymm le above)]
    exact taken

/-- The first items of a strictly ascending list are those with few below. -/
theorem mem_take_iff_countP_le
    {items : List α} {item : α} (count : Nat)
    (ascending : items.Pairwise fun left right => key left < key right)
    (member : item ∈ items) :
    item ∈ items.take count ↔
      (items.countP fun other => key other ≤ key item) ≤ count := by
  induction items generalizing count with
  | nil => simp at member
  | cons head tail induction =>
      rw [List.pairwise_cons] at ascending
      cases count with
      | zero =>
          have counted :
              0 < (head :: tail).countP fun other => key other ≤ key item :=
            List.countP_pos_iff.mpr ⟨item, member, by simp⟩
          simp only [List.take_zero, List.not_mem_nil, false_iff]
          exact Nat.not_le.mpr counted
      | succ count =>
          rw [List.take_succ_cons, List.mem_cons]
          rcases List.mem_cons.mp member with rfl | behind
          · have none :
                (tail.countP fun other => key other ≤ key item) = 0 := by
              rw [List.countP_eq_zero]
              intro other inTail
              simpa using ascending.1 other inTail
            simp [none]
          · have above := ascending.1 item behind
            have different : item ≠ head := by
              rintro rfl
              exact lt_irrefl _ above
            rw [List.countP_cons_of_pos (by simpa using above.le),
              induction count ascending.2 behind]
            simp only [different, false_or]
            omega

end Keys

/-- Items which are dropped behind another one do not change its place. -/
theorem idxOf_filter_of_leading
    [DecidableEq α] {keep : α → Bool} {items : List α} {item : α}
    (kept : keep item)
    (leading : ∀ before after, items = before ++ item :: after →
      ∀ other ∈ before, keep other)
    (member : item ∈ items) :
    (items.filter keep).idxOf item = items.idxOf item := by
  rcases List.eq_append_cons_of_mem member with ⟨before, after, split, fresh⟩
  have unchanged : before.filter keep = before :=
    List.filter_eq_self.mpr (leading before after split)
  rw [split, List.filter_append, unchanged, List.filter_cons_of_pos kept,
    List.idxOf_append, List.idxOf_append, if_neg fresh, if_neg fresh]
  simp

end ShadowDataPlane.Foundation
