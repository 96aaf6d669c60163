import Mathlib.Data.List.Induction

/-!
# Since when a key is a member

A history is a list of entries, oldest first, each of which contains some keys
from its time on.  A key joins with the first entry of an unbroken run of
entries which contain it; `lastJoined` is the time of the last such entry, if
the key is a member at the end.
-/

namespace ShadowDataPlane.Foundation

variable {ε κ τ : Type*} (contains : ε → κ → Prop)
variable [∀ entry key, Decidable (contains entry key)] (time : ε → τ)

/-- The time of the entry with which a key joined, while it is a member. -/
def lastJoined (history : List ε) (key : κ) : Option τ :=
  history.foldl (fun joined entry =>
    if contains entry key then some (joined.getD (time entry)) else none) none

variable {contains time}

@[simp]
theorem lastJoined_nil (key : κ) :
    lastJoined contains time ([] : List ε) key = none := rfl

theorem lastJoined_concat (history : List ε) (entry : ε) (key : κ) :
    lastJoined contains time (history ++ [entry]) key =
      if contains entry key then
        some ((lastJoined contains time history key).getD (time entry))
      else none := by
  simp only [lastJoined, List.foldl_append, List.foldl_cons, List.foldl_nil]

/-- The members at the end are the keys of the last entry. -/
theorem lastJoined_isSome_iff {history : List ε} {key : κ} :
    (lastJoined contains time history key).isSome ↔
      ∃ entry ∈ history.getLast?, contains entry key := by
  induction history using List.reverseRecOn with
  | nil => simp
  | append_singleton history entry _ =>
      rw [lastJoined_concat, List.getLast?_concat]
      split
      next member => simp [member]
      next absent => simp [absent]

/--
What holds of every entry of a history and the one before it still holds when
an entry is added for which it holds.
-/
theorem forall_adjacent_concat
    {relation : List ε → ε → ε → Prop} {history : List ε} {entry : ε}
    (adjacent : ∀ earlier previous next later,
      history = earlier ++ previous :: next :: later →
        relation earlier previous next)
    (joins : ∀ earlier previous, history = earlier ++ [previous] →
      relation earlier previous entry) :
    ∀ earlier previous next later,
      history ++ [entry] = earlier ++ previous :: next :: later →
        relation earlier previous next := by
  intro earlier previous next later split
  induction later using List.reverseRecOn with
  | nil =>
      have same : history ++ [entry] = (earlier ++ [previous]) ++ [next] := by
        rw [split, List.append_assoc]
        rfl
      rcases List.append_inj' same rfl with ⟨rfl, isNext⟩
      cases isNext
      exact joins earlier previous rfl
  | append_singleton later last _ =>
      have same : history ++ [entry] =
          (earlier ++ previous :: next :: later) ++ [last] := by
        rw [split, List.append_assoc]
        rfl
      exact adjacent earlier previous next later (List.append_inj' same rfl).1

end ShadowDataPlane.Foundation
