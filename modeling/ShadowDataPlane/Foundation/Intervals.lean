import Mathlib.Order.Interval.Set.Basic
import Mathlib.Data.List.Pairwise

/-!
# Half-open intervals and the instants they cover

An interval is a pair `(start, stop)` of a linear order and stands for
`Set.Ico start stop`.  A list of intervals denotes the union of its members.

`Separated` is the shape of a validity report: every interval is nonempty and
each one starts no earlier than every interval before it stops.  The lemmas
say how a separated list grows at its end, which is the only way an
accumulator builds one.
-/

namespace ShadowDataPlane.Foundation

variable {τ : Type*} [LinearOrder τ]

/-- The instants covered by a list of half-open intervals. -/
def instants (intervals : List (τ × τ)) : Set τ :=
  { instant | ∃ interval ∈ intervals, instant ∈ Set.Ico interval.1 interval.2 }

theorem mem_instants_iff
    {intervals : List (τ × τ)} {instant : τ} :
    instant ∈ instants intervals ↔
      ∃ interval ∈ intervals,
        interval.1 ≤ instant ∧ instant < interval.2 :=
  Iff.rfl

@[simp]
theorem instants_nil : instants ([] : List (τ × τ)) = ∅ := by
  ext instant
  simp [mem_instants_iff]

theorem instants_append (left right : List (τ × τ)) :
    instants (left ++ right) = instants left ∪ instants right := by
  ext instant
  simp only [mem_instants_iff, List.mem_append, Set.mem_union]
  constructor
  · rintro ⟨interval, inLeft | inRight, bounds⟩
    · exact Or.inl ⟨interval, inLeft, bounds⟩
    · exact Or.inr ⟨interval, inRight, bounds⟩
  · rintro (⟨interval, inLeft, bounds⟩ | ⟨interval, inRight, bounds⟩)
    · exact ⟨interval, Or.inl inLeft, bounds⟩
    · exact ⟨interval, Or.inr inRight, bounds⟩

theorem instants_singleton (interval : τ × τ) :
    instants [interval] = Set.Ico interval.1 interval.2 := by
  ext instant
  simp [mem_instants_iff, Set.mem_Ico]

/-- Dropping the empty intervals of a list keeps the covered instants. -/
theorem instants_filter_nonempty (intervals : List (τ × τ)) :
    instants (intervals.filter fun interval => interval.1 < interval.2) =
      instants intervals := by
  ext instant
  simp only [mem_instants_iff, List.mem_filter, decide_eq_true_eq]
  constructor
  · rintro ⟨interval, ⟨member, _⟩, bounds⟩
    exact ⟨interval, member, bounds⟩
  · rintro ⟨interval, member, lower, upper⟩
    exact ⟨interval, ⟨member, lower.trans_lt upper⟩, lower, upper⟩

/-- Ordered intervals: none is reversed and each starts after the ones before. -/
def Ordered (intervals : List (τ × τ)) : Prop :=
  (∀ interval ∈ intervals, interval.1 ≤ interval.2) ∧
    intervals.Pairwise fun left right => left.2 ≤ right.1

/-- Ordered intervals none of which is empty. -/
def Separated (intervals : List (τ × τ)) : Prop :=
  (∀ interval ∈ intervals, interval.1 < interval.2) ∧
    intervals.Pairwise fun left right => left.2 ≤ right.1

theorem ordered_nil : Ordered ([] : List (τ × τ)) :=
  ⟨by simp, List.Pairwise.nil⟩

theorem Ordered.concat
    {intervals : List (τ × τ)} {interval : τ × τ}
    (ordered : Ordered intervals)
    (after : ∀ old ∈ intervals, old.2 ≤ interval.1)
    (forward : interval.1 ≤ interval.2) :
    Ordered (intervals ++ [interval]) := by
  refine ⟨?_, List.pairwise_append.mpr
    ⟨ordered.2, List.pairwise_singleton _ _, ?_⟩⟩
  · intro member inAppend
    rcases List.mem_append.mp inAppend with old | last
    · exact ordered.1 member old
    · rw [List.mem_singleton.mp last]
      exact forward
  · intro old oldMember last lastMember
    rw [List.mem_singleton.mp lastMember]
    exact after old oldMember

theorem Ordered.separated_filter
    {intervals : List (τ × τ)} (ordered : Ordered intervals) :
    Separated (intervals.filter fun interval => interval.1 < interval.2) := by
  refine ⟨?_, ordered.2.filter _⟩
  intro interval member
  simpa using (List.mem_filter.mp member).2

end ShadowDataPlane.Foundation
