import Mathlib.Data.List.Basic

/-!
# The lines of a text

`linesOf` takes a text apart after every separator.  Each line keeps the
separator which ends it, and what follows the last one is a line, too, unless
it is empty.  A text is taken apart independently of what comes before it, if
that ends with a separator (`linesOf_append_ended`).
-/

namespace ShadowDataPlane.Foundation

variable {α : Type*} [DecidableEq α] {separator : α}

def linesOf (separator : α) : List α → List (List α)
  | [] => []
  | item :: rest =>
      if item = separator then [item] :: linesOf separator rest
      else
        match linesOf separator rest with
        | [] => [[item]]
        | line :: later => (item :: line) :: later

/-- A text without a separator in front of a line belongs to the line. -/
theorem linesOf_append_of_cons
    {text rest line : List α} {later : List (List α)}
    (unbroken : separator ∉ text)
    (first : linesOf separator rest = line :: later) :
    linesOf separator (text ++ rest) = (text ++ line) :: later := by
  induction text with
  | nil => exact first
  | cons item text induction =>
      rw [List.mem_cons, not_or] at unbroken
      rw [List.cons_append, linesOf, if_neg (Ne.symm unbroken.1),
        induction unbroken.2]
      rfl

/-- A line which is ended is the first one. -/
theorem linesOf_append_line
    {text : List α} (unbroken : separator ∉ text) (rest : List α) :
    linesOf separator (text ++ [separator] ++ rest) =
      (text ++ [separator]) :: linesOf separator rest := by
  rw [List.append_assoc]
  apply linesOf_append_of_cons unbroken
  rw [List.singleton_append, linesOf, if_pos rfl]

/-- A text without a separator is one line. -/
theorem linesOf_of_not_mem
    {text : List α} (unbroken : separator ∉ text) (some : text ≠ []) :
    linesOf separator text = [text] := by
  induction text with
  | nil => exact absurd rfl some
  | cons item text induction =>
      rw [List.mem_cons, not_or] at unbroken
      rw [linesOf, if_neg (Ne.symm unbroken.1)]
      by_cases empty : text = []
      · rw [empty]
        rfl
      · rw [induction unbroken.2 empty]

/-- Lines which are ended, and the text behind them. -/
theorem linesOf_flatMap_append
    {β : Type*} {text : β → List α}
    (unbroken : ∀ item, separator ∉ text item) (items : List β)
    (rest : List α) :
    linesOf separator
        ((items.flatMap fun item => text item ++ [separator]) ++ rest) =
      (items.map fun item => text item ++ [separator]) ++
        linesOf separator rest := by
  induction items with
  | nil => rfl
  | cons item items induction =>
      rw [List.flatMap_cons, List.append_assoc,
        linesOf_append_line (unbroken item), induction]
      rfl

theorem linesOf_ne_nil {text : List α} (some : text ≠ []) :
    linesOf separator text ≠ [] := by
  cases text with
  | nil => exact absurd rfl some
  | cons item text =>
      rw [linesOf]
      split
      next => exact List.cons_ne_nil _ _
      next =>
        split
        next => exact List.cons_ne_nil _ _
        next => exact List.cons_ne_nil _ _

/-- Behind a separator the lines begin anew. -/
theorem linesOf_append_ended (text rest : List α) :
    linesOf separator (text ++ [separator] ++ rest) =
      linesOf separator (text ++ [separator]) ++ linesOf separator rest := by
  induction text with
  | nil =>
      rw [List.nil_append, List.singleton_append, linesOf, if_pos rfl,
        linesOf, if_pos rfl]
      rfl
  | cons item text induction =>
      rw [List.cons_append, List.cons_append, linesOf, linesOf, induction]
      split
      next => rfl
      next =>
        have some : linesOf separator (text ++ [separator]) ≠ [] :=
          linesOf_ne_nil (by simp)
        cases isFirst : linesOf separator (text ++ [separator]) with
        | nil => exact absurd isFirst some
        | cons line later => rfl

end ShadowDataPlane.Foundation
