import Mathlib.Data.List.Basic

/-!
# An item and the items before it

`EachWithEarlier holds earlier items` says that something holds of every item
of a list together with everything which comes before it.  It is a recursion
along the list, so that it can be followed step by step; it says the same of
every way to split the list.
-/

namespace ShadowDataPlane.Foundation

variable {α : Type*} {holds : List α → α → Prop}

def EachWithEarlier (holds : List α → α → Prop) : List α → List α → Prop
  | _, [] => True
  | earlier, item :: rest =>
      holds earlier item ∧ EachWithEarlier holds (earlier ++ [item]) rest

namespace EachWithEarlier

instance decidable [∀ earlier item, Decidable (holds earlier item)] :
    ∀ earlier items : List α, Decidable (EachWithEarlier holds earlier items)
  | _, [] => inferInstanceAs (Decidable True)
  | earlier, item :: rest =>
      have := decidable (earlier ++ [item]) rest
      inferInstanceAs (Decidable (_ ∧ _))

theorem cons_iff {earlier : List α} {item : α} {rest : List α} :
    EachWithEarlier holds earlier (item :: rest) ↔
      holds earlier item ∧ EachWithEarlier holds (earlier ++ [item]) rest :=
  Iff.rfl

theorem append_iff {earlier items others : List α} :
    EachWithEarlier holds earlier (items ++ others) ↔
      EachWithEarlier holds earlier items ∧
        EachWithEarlier holds (earlier ++ items) others := by
  induction items generalizing earlier with
  | nil => simp [EachWithEarlier]
  | cons item rest induction =>
      rw [List.cons_append, cons_iff, cons_iff, induction, and_assoc,
        List.append_assoc, List.singleton_append]

/-- It holds of every way to split the list. -/
theorem iff_forall_split {earlier items : List α} :
    EachWithEarlier holds earlier items ↔
      ∀ before item after, items = before ++ item :: after →
        holds (earlier ++ before) item := by
  constructor
  · rintro each before item after rfl
    exact (cons_iff.mp (append_iff.mp each).2).1
  · intro split
    induction items generalizing earlier with
    | nil => trivial
    | cons item rest induction =>
        constructor
        · simpa using split [] item rest rfl
        · apply induction
          rintro before next after rfl
          simpa using split (item :: before) next after rfl

end EachWithEarlier

end ShadowDataPlane.Foundation
