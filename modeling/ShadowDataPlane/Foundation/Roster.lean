import Mathlib.Data.Finset.SDiff
import Mathlib.Data.Finset.Card

/-!
# Lists without duplicates which change member by member

`replaceMember` puts a new member in the place of an old one,
`applyReplacements` does so one after another, and `List.eraseDups` keeps
first occurrences, as `dict.fromkeys` does.
-/

namespace ShadowDataPlane.Foundation

variable {α : Type*} [DecidableEq α]

/-- `items[items.index(old)] = new`. -/
def replaceMember (items : List α) (old new : α) : List α :=
  items.set (items.idxOf old) new

@[simp]
theorem length_replaceMember (items : List α) (old new : α) :
    (replaceMember items old new).length = items.length :=
  List.length_set

theorem nodup_replaceMember
    {items : List α} {old new : α}
    (distinct : items.Nodup) (fresh : new ∉ items) :
    (replaceMember items old new).Nodup :=
  distinct.set fresh

/-- The old member gives way to the new one; every other member stays. -/
theorem mem_replaceMember_iff
    {items : List α} {old : α}
    (distinct : items.Nodup) (member : old ∈ items) (new other : α) :
    other ∈ replaceMember items old new ↔
      other = new ∨ (other ∈ items ∧ other ≠ old) := by
  induction items with
  | nil => cases member
  | cons head rest induction =>
      rcases List.nodup_cons.mp distinct with ⟨headFresh, restDistinct⟩
      by_cases same : head = old
      · subst same
        have replaced :
            replaceMember (head :: rest) head new = new :: rest := by
          simp [replaceMember]
        rw [replaced, List.mem_cons, List.mem_cons]
        constructor
        · rintro (isNew | inRest)
          · exact Or.inl isNew
          · apply Or.inr
            exact ⟨Or.inr inRest, fun isHead => headFresh (isHead ▸ inRest)⟩
        · rintro (isNew | ⟨isHead | inRest, different⟩)
          · exact Or.inl isNew
          · exact absurd isHead different
          · exact Or.inr inRest
      · have inRest : old ∈ rest :=
          (List.mem_cons.mp member).resolve_left (Ne.symm same)
        have replaced :
            replaceMember (head :: rest) old new =
              head :: replaceMember rest old new := by
          simp [replaceMember, List.idxOf_cons_ne rest same]
        rw [replaced, List.mem_cons, induction restDistinct inRest,
          List.mem_cons]
        constructor
        · rintro (isHead | isNew | ⟨inOthers, different⟩)
          · exact Or.inr ⟨Or.inl isHead, isHead ▸ same⟩
          · exact Or.inl isNew
          · exact Or.inr ⟨Or.inr inOthers, different⟩
        · rintro (isNew | ⟨isHead | inOthers, different⟩)
          · exact Or.inr (Or.inl isNew)
          · exact Or.inl isHead
          · exact Or.inr (Or.inr ⟨inOthers, different⟩)

/-! ## First occurrences -/

theorem nodup_eraseDups (items : List α) : items.eraseDups.Nodup := by
  match items with
  | [] => exact List.nodup_nil
  | head :: rest =>
      have shorter :
          (rest.filter fun item => !item == head).length < rest.length + 1 :=
        Nat.lt_succ_of_le (List.length_filter_le _ rest)
      rw [List.eraseDups_cons, List.nodup_cons]
      constructor
      · simp
      · exact nodup_eraseDups _
termination_by items.length

theorem eraseDups_of_nodup
    {items : List α} (distinct : items.Nodup) : items.eraseDups = items := by
  induction items with
  | nil => rfl
  | cons head rest induction =>
      rcases List.nodup_cons.mp distinct with ⟨fresh, restDistinct⟩
      have unchanged :
          (rest.filter fun item => !item == head) = rest := by
        rw [List.filter_eq_self]
        intro item member
        have different : item ≠ head := fun same => fresh (same ▸ member)
        simpa using different
      rw [List.eraseDups_cons, unchanged, induction restDistinct]

/-- The first items which pass stand before as many which pass or fail. -/
theorem take_filter_subset
    {β : Type*} (keep : β → Bool) (items : List β) (count : Nat) {item : β}
    (member : item ∈ (items.filter keep).take count) :
    item ∈ items.take (count + items.countP fun item => !keep item) := by
  induction items generalizing count with
  | nil => simp at member
  | cons head rest induction =>
      by_cases kept : keep head
      · rw [List.filter_cons_of_pos kept] at member
        cases count with
        | zero => simp at member
        | succ count =>
            rw [List.take_succ_cons] at member
            have counted :
                (head :: rest).countP (fun item => !keep item) =
                  rest.countP fun item => !keep item := by
              simp [kept]
            rw [counted, Nat.succ_add, List.take_succ_cons, List.mem_cons]
            exact (List.mem_cons.mp member).imp_right (induction count)
      · rw [List.filter_cons_of_neg kept] at member
        have counted :
            (head :: rest).countP (fun item => !keep item) =
              rest.countP (fun item => !keep item) + 1 := by
          simp [kept]
        rw [counted, ← Nat.add_assoc, List.take_succ_cons]
        exact List.mem_cons_of_mem head (induction count member)

/-- The item which passes after `count` others. -/
theorem exists_split_of_lt_countP
    {β : Type*} {keep : β → Bool} {items : List β} {count : Nat}
    (more : count < items.countP keep) :
    ∃ before item after, items = before ++ item :: after ∧ keep item ∧
      before.countP keep = count := by
  induction items generalizing count with
  | nil => simp at more
  | cons head rest induction =>
      by_cases kept : keep head
      · cases count with
        | zero => exact ⟨[], head, rest, rfl, kept, rfl⟩
        | succ count =>
            rw [List.countP_cons_of_pos kept] at more
            rcases induction (Nat.lt_of_succ_lt_succ more) with
              ⟨before, item, after, split, passes, counted⟩
            refine ⟨head :: before, item, after, ?_, passes, ?_⟩
            · rw [split, List.cons_append]
            · rw [List.countP_cons_of_pos kept, counted]
      · rw [List.countP_cons_of_neg kept] at more
        rcases induction more with
          ⟨before, item, after, split, passes, counted⟩
        refine ⟨head :: before, item, after, ?_, passes, ?_⟩
        · rw [split, List.cons_append]
        · rw [List.countP_cons_of_neg kept, counted]

/-- Distinct items have at most as many members of a list as it is long. -/
theorem countP_mem_le
    {items : List α} (distinct : items.Nodup) (others : List α) :
    (items.countP fun item => item ∈ others) ≤ others.length := by
  calc
    _ = (items.filter fun item => item ∈ others).toFinset.card := by
      rw [List.toFinset_card_of_nodup (distinct.filter _),
        List.countP_eq_length_filter]
    _ ≤ others.toFinset.card := by
      apply Finset.card_le_card
      intro item member
      rw [List.mem_toFinset, List.mem_filter] at member
      exact List.mem_toFinset.mpr (of_decide_eq_true member.2)
    _ ≤ others.length := List.toFinset_card_le others

/-! ## Several replacements -/

/-- A member of a list and what takes its place. -/
structure Replacement (α : Type*) where
  incumbent : α
  challenger : α

/-- Make every replacement, in order. -/
def applyReplacements (items : List α) (replacements : List (Replacement α)) :
    List α :=
  replacements.foldl
    (fun items replacement =>
      replaceMember items replacement.incumbent replacement.challenger) items

@[simp]
theorem applyReplacements_nil (items : List α) :
    applyReplacements items [] = items := rfl

@[simp]
theorem applyReplacements_cons
    (items : List α) (replacement : Replacement α)
    (rest : List (Replacement α)) :
    applyReplacements items (replacement :: rest) =
      applyReplacements
        (replaceMember items replacement.incumbent replacement.challenger)
        rest := rfl

theorem applyReplacements_append
    (items : List α) (first second : List (Replacement α)) :
    applyReplacements items (first ++ second) =
      applyReplacements (applyReplacements items first) second :=
  List.foldl_append

/-- Whatever is in the list now was in it before, or has entered it. -/
theorem entered_of_mem_applyReplacements
    {replacements : List (Replacement α)} {items : List α} {member : α}
    (present : member ∈ applyReplacements items replacements) :
    member ∈ items ∨
      ∃ replacement ∈ replacements, replacement.challenger = member := by
  induction replacements generalizing items with
  | nil => exact Or.inl present
  | cons replacement rest induction =>
      rcases induction present with inMiddle | ⟨later, inRest, enters⟩
      · rcases List.mem_or_eq_of_mem_set inMiddle with old | isNew
        · exact Or.inl old
        · exact Or.inr ⟨replacement, List.mem_cons_self, isNew.symm⟩
      · exact Or.inr ⟨later, List.mem_cons_of_mem _ inRest, enters⟩

theorem mem_replaceMember_or_eq
    {items : List α} {member : α} (present : member ∈ items) (old new : α) :
    member ∈ replaceMember items old new ∨ member = old := by
  by_cases same : member = old
  · exact Or.inr same
  · apply Or.inl
    rcases List.mem_iff_getElem.mp present with ⟨index, bound, rfl⟩
    apply List.mem_iff_getElem.mpr
    refine ⟨index, by simpa using bound, ?_⟩
    apply List.getElem_set_ne
    rintro rfl
    exact same (List.getElem_idxOf bound)

/-- Whatever was in the list before is in it now, or has left it. -/
theorem left_of_mem
    {replacements : List (Replacement α)} {items : List α} {member : α}
    (present : member ∈ items) :
    member ∈ applyReplacements items replacements ∨
      ∃ replacement ∈ replacements, replacement.incumbent = member := by
  induction replacements generalizing items with
  | nil => exact Or.inl present
  | cons replacement rest induction =>
      rcases mem_replaceMember_or_eq present replacement.incumbent
        replacement.challenger with inMiddle | isOld
      · rcases induction inMiddle with stays | ⟨later, inRest, leaves⟩
        · exact Or.inl stays
        · exact Or.inr ⟨later, List.mem_cons_of_mem _ inRest, leaves⟩
      · exact Or.inr ⟨replacement, List.mem_cons_self, isOld.symm⟩

/-- At most as many members enter as replacements are made. -/
theorem card_entered_le
    (items : List α) (replacements : List (Replacement α)) :
    ((applyReplacements items replacements).toFinset \ items.toFinset).card ≤
      replacements.length := by
  have entered :
      (applyReplacements items replacements).toFinset \ items.toFinset ⊆
        (replacements.map Replacement.challenger).toFinset := by
    intro member outside
    rw [Finset.mem_sdiff, List.mem_toFinset, List.mem_toFinset] at outside
    rw [List.mem_toFinset, List.mem_map]
    exact (entered_of_mem_applyReplacements outside.1).resolve_left outside.2
  calc
    _ ≤ (replacements.map Replacement.challenger).toFinset.card :=
      Finset.card_le_card entered
    _ ≤ replacements.length := by
      simpa using List.toFinset_card_le
        (replacements.map Replacement.challenger)

/-- At most as many members leave as replacements are made. -/
theorem card_left_le
    (items : List α) (replacements : List (Replacement α)) :
    (items.toFinset \ (applyReplacements items replacements).toFinset).card ≤
      replacements.length := by
  have left :
      items.toFinset \ (applyReplacements items replacements).toFinset ⊆
        (replacements.map Replacement.incumbent).toFinset := by
    intro member outside
    rw [Finset.mem_sdiff, List.mem_toFinset, List.mem_toFinset] at outside
    rw [List.mem_toFinset, List.mem_map]
    exact (left_of_mem outside.1).resolve_left outside.2
  calc
    _ ≤ (replacements.map Replacement.incumbent).toFinset.card :=
      Finset.card_le_card left
    _ ≤ replacements.length := by
      simpa using List.toFinset_card_le
        (replacements.map Replacement.incumbent)

end ShadowDataPlane.Foundation
