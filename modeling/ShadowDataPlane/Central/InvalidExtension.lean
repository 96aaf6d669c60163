import ShadowDataPlane.Central.Finalize

/-!
# Extending the explicitly invalid time

A gap closes before the book is valid again.  `_extend_invalid_until_valid` moves
the end of every explicitly invalid span to the start of the next valid one, or
to the end of the window, unless it lies inside a valid span already.

The end only moves across time which is not valid: what a span shares with the
valid time stays the same, and nothing between its old end and the next valid
instant is left out.
-/

namespace ShadowDataPlane.Central

open ShadowDataPlane.Foundation
open ShadowDataPlane.Contracts

/-- Nonempty spans inside the window. -/
def ClippedTo (window : CollectionWindow) (spans : List Span) : Prop :=
  ∀ span ∈ spans,
    window.startNs ≤ span.1 ∧ span.1 < span.2 ∧ span.2 ≤ window.endNs

instance (window : CollectionWindow) (spans : List Span) :
    Decidable (ClippedTo window spans) :=
  inferInstanceAs (Decidable (∀ span ∈ spans, _))

/-- An invalid span which was extended across time which is not valid. -/
structure Extension (window : CollectionWindow) (valid : List Span)
    (span extended : Span) : Prop where
  contains :
    Set.Ico span.1 span.2 ⊆ Set.Ico extended.1 extended.2
  /-- No conflict is added. -/
  shared :
    Set.Ico extended.1 extended.2 ∩ instants valid =
      Set.Ico span.1 span.2 ∩ instants valid
  ends : extended.2 = window.endNs ∨
    ∃ interval ∈ valid, interval.1 ≤ extended.2 ∧ extended.2 < interval.2
  /-- Nothing up to the next valid instant is left unclassified. -/
  reaches : ∀ instant, span.2 ≤ instant → instant < window.endNs →
    Disjoint (Set.Icc span.2 instant) (instants valid) →
      instant ∈ Set.Ico extended.1 extended.2

/-- Where an extended span ends: inside a valid one, at its start or last. -/
theorem extendedEndNs_ends
    {window : CollectionWindow} {valid : List Span}
    (clipped : ClippedTo window valid) (endNs : Nat) :
    extendedEndNs (sortSpans valid) window.endNs endNs = window.endNs ∨
      ∃ interval ∈ valid,
        interval.1 ≤ extendedEndNs (sortSpans valid) window.endNs endNs ∧
          extendedEndNs (sortSpans valid) window.endNs endNs <
            interval.2 := by
  unfold extendedEndNs
  split
  next inside =>
    rcases List.any_eq_true.mp inside with ⟨interval, member, bounds⟩
    simp only [decide_eq_true_eq] at bounds
    exact Or.inr ⟨interval, mem_sortSpans.mp member, bounds⟩
  next =>
    cases isNext : (sortSpans valid).find? fun span => endNs ≤ span.1 with
    | none => exact Or.inl rfl
    | some interval =>
        have member := mem_sortSpans.mp (List.mem_of_find?_eq_some isNext)
        exact Or.inr ⟨interval, member, le_refl _, (clipped interval member).2.1⟩

theorem extension_extendedEndNs
    {window : CollectionWindow} {valid : List Span} {span : Span}
    (clipped : ClippedTo window valid) (forward : span.1 < span.2)
    (inWindow : span.2 ≤ window.endNs) :
    Extension window valid span
      (span.1, extendedEndNs (sortSpans valid) window.endNs span.2) := by
  rcases extendedEndNs_spec valid inWindow with ⟨later, apart⟩
  have uncovered : ∀ instant, span.2 ≤ instant →
      instant < extendedEndNs (sortSpans valid) window.endNs span.2 →
        instant ∉ instants valid := by
    intro instant lower upper covered
    rw [← coe_coverage] at covered
    exact apart instant lower upper covered
  constructor
  · exact Set.Ico_subset_Ico_right later
  · ext instant
    constructor
    · rintro ⟨⟨lower, upper⟩, isValid⟩
      refine ⟨⟨lower, ?_⟩, isValid⟩
      by_contra beyond
      exact uncovered instant (not_lt.mp beyond) upper isValid
    · rintro ⟨⟨lower, upper⟩, isValid⟩
      exact ⟨⟨lower, upper.trans_le later⟩, isValid⟩
  · exact extendedEndNs_ends clipped span.2
  · intro instant lower upper unclassified
    refine ⟨forward.le.trans lower, ?_⟩
    by_contra beyond
    have passed := not_lt.mp beyond
    rcases extendedEndNs_ends clipped span.2 with atEnd | ⟨valid, member, bounds⟩
    · rw [atEnd] at passed
      exact absurd upper (not_lt.mpr passed)
    · -- The extended end is itself a valid instant on the way.
      exact Set.disjoint_left.mp unclassified ⟨later, passed⟩
        (mem_instants_iff.mpr ⟨valid, member, bounds⟩)

/--
Extending the explicitly invalid spans until the next valid instant adds nothing
but time which is not valid, and leaves none of it unclassified.
-/
theorem extend_until_valid_exact
    {window : CollectionWindow} {valid intervals : List Span}
    (clipped : ClippedTo window intervals) (inside : ClippedTo window valid) :
    List.Forall₂ (Extension window valid) intervals
      (extendInvalidUntilValid window.endNs valid intervals) := by
  rw [extendInvalidUntilValid, List.forall₂_map_right_iff]
  apply List.forall₂_same.mpr
  intro span member
  exact extension_extendedEndNs inside (clipped span member).2.1
    (clipped span member).2.2

/-- Gaps which end inside, between and behind the valid spans. -/
theorem extend_until_valid_exact_sample :
    List.Forall₂ (Extension ⟨0, 100⟩ [(10, 20), (30, 40)])
      [(5, 15), (12, 20), (18, 25), (25, 30), (35, 60)]
      [(5, 15), (12, 30), (18, 30), (25, 30), (35, 100)] :=
  @extend_until_valid_exact ⟨0, 100⟩ _ _ (by decide) (by decide)

end ShadowDataPlane.Central
