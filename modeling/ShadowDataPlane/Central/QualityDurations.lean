import Mathlib.Order.Interval.Finset.Nat
import ShadowDataPlane.Central.Quality

/-!
# What the durations count

`unionDuration` clips, sorts and merges; what it returns is the number of
instants of the window which some span covers.  The merge is followed by an
induction over the sorted spans whose invariant is that nothing still to come
starts before the current span does.
-/

namespace ShadowDataPlane.Central

open ShadowDataPlane.Foundation

/-- The instants some span covers. -/
def coverage (spans : List Span) : Finset Nat :=
  spans.foldr (fun span covered => Finset.Ico span.1 span.2 ∪ covered) ∅

@[simp]
theorem coverage_nil : coverage [] = ∅ := rfl

@[simp]
theorem coverage_cons (span : Span) (rest : List Span) :
    coverage (span :: rest) = Finset.Ico span.1 span.2 ∪ coverage rest := rfl

@[simp]
theorem mem_coverage_iff {spans : List Span} {instant : Nat} :
    instant ∈ coverage spans ↔
      ∃ span ∈ spans, span.1 ≤ instant ∧ instant < span.2 := by
  induction spans with
  | nil => simp
  | cons span rest induction => simp [induction]

/-- The instants of the window some span covers. -/
def windowCoverage (windowStartNs windowEndNs : Nat) (spans : List Span) :
    Finset Nat :=
  coverage spans ∩ Finset.Ico windowStartNs windowEndNs

theorem mem_windowCoverage_iff
    {windowStartNs windowEndNs : Nat} {spans : List Span} {instant : Nat} :
    instant ∈ windowCoverage windowStartNs windowEndNs spans ↔
      (windowStartNs ≤ instant ∧ instant < windowEndNs) ∧
        ∃ span ∈ spans, span.1 ≤ instant ∧ instant < span.2 := by
  simp [windowCoverage, and_comm]

theorem clipSpan_eq_some_iff
    {windowStartNs windowEndNs : Nat} {span clipped : Span} :
    clipSpan windowStartNs windowEndNs span = some clipped ↔
      max span.1 windowStartNs < min span.2 windowEndNs ∧
        clipped = (max span.1 windowStartNs, min span.2 windowEndNs) := by
  unfold clipSpan
  split
  next kept => simp [kept, eq_comm]
  next dropped => simp [dropped]

/-- Clipping keeps exactly the covered instants of the window. -/
theorem coverage_clip (windowStartNs windowEndNs : Nat) (spans : List Span) :
    coverage (spans.filterMap (clipSpan windowStartNs windowEndNs)) =
      windowCoverage windowStartNs windowEndNs spans := by
  ext instant
  rw [mem_coverage_iff, mem_windowCoverage_iff]
  simp only [List.mem_filterMap, clipSpan_eq_some_iff]
  constructor
  · rintro ⟨clipped, ⟨span, member, _, rfl⟩, lower, upper⟩
    dsimp only at lower upper
    exact ⟨by omega, span, member, by omega, by omega⟩
  · rintro ⟨inWindow, span, member, lower, upper⟩
    exact ⟨_, ⟨span, member, by omega, rfl⟩, by dsimp only; omega,
      by dsimp only; omega⟩

theorem sortSpans_perm (spans : List Span) : (sortSpans spans).Perm spans :=
  List.perm_insertionSort _ spans

@[simp]
theorem mem_sortSpans {span : Span} {spans : List Span} :
    span ∈ sortSpans spans ↔ span ∈ spans :=
  (sortSpans_perm spans).mem_iff

theorem coverage_sortSpans (spans : List Span) :
    coverage (sortSpans spans) = coverage spans := by
  ext instant
  simp

instance : Std.Total fun left right : Span => toLex left ≤ toLex right :=
  ⟨fun left right => le_total (toLex left) (toLex right)⟩

instance : IsTrans Span fun left right => toLex left ≤ toLex right :=
  ⟨fun _ _ _ first second => le_trans first second⟩

/-- Sorted spans are ordered by their starts. -/
theorem sortSpans_starts (spans : List Span) :
    (sortSpans spans).Pairwise fun left right => left.1 ≤ right.1 := by
  refine List.Pairwise.imp ?_
    (List.pairwise_insertionSort
      (fun left right : Span => toLex left ≤ toLex right) spans)
  intro left right ordered
  rcases Prod.Lex.le_iff.mp ordered with strict | ⟨equal, _⟩
  · exact strict.le
  · exact equal.le

/-! ## The merge -/

/-- The merge adds the instants of the current span and of what follows. -/
theorem mergeDuration_some
    (total : Nat) (current : Span) (rest : List Span)
    (forward : ∀ span ∈ rest, span.1 ≤ span.2)
    (later : ∀ span ∈ rest, current.1 ≤ span.1)
    (ordered : rest.Pairwise fun left right => left.1 ≤ right.1) :
    mergeDuration total (some current) rest =
      total + (coverage (current :: rest)).card := by
  induction rest generalizing total current with
  | nil => simp [mergeDuration]
  | cons span rest induction =>
      obtain ⟨first, restOrdered⟩ := List.pairwise_cons.mp ordered
      have here : span ∈ span :: rest := List.mem_cons_self
      have restForward : ∀ other ∈ rest, other.1 ≤ other.2 :=
        fun other member => forward other (List.mem_cons_of_mem _ member)
      have spanForward := forward span here
      have spanLater := later span here
      rw [mergeDuration]
      split
      next touching =>
        rw [induction total (current.1, max current.2 span.2) restForward
          (fun other member => later other (List.mem_cons_of_mem _ member))
          restOrdered]
        congr 2
        ext instant
        simp only [mem_coverage_iff, List.exists_mem_cons_iff]
        constructor
        · rintro (⟨lower, upper⟩ | inRest)
          · by_cases inCurrent : instant < current.2
            · exact Or.inl ⟨lower, inCurrent⟩
            · exact Or.inr (Or.inl ⟨by omega, by omega⟩)
          · exact Or.inr (Or.inr inRest)
        · rintro (⟨lower, upper⟩ | ⟨lower, upper⟩ | inRest)
          · exact Or.inl ⟨lower, by omega⟩
          · exact Or.inl ⟨by omega, by omega⟩
          · exact Or.inr inRest
      next apart =>
        rw [induction _ span restForward first restOrdered]
        have disjoint : Disjoint (Finset.Ico current.1 current.2)
            (coverage (span :: rest)) := by
          refine Finset.disjoint_left.mpr ?_
          intro instant inCurrent inLater
          obtain ⟨other, member, lower, _⟩ := mem_coverage_iff.mp inLater
          have starts : span.1 ≤ other.1 := by
            rcases List.mem_cons.mp member with rfl | inRest
            · exact le_refl _
            · exact first other inRest
          have upper := (Finset.mem_Ico.mp inCurrent).2
          omega
        rw [coverage_cons current, Finset.card_union_of_disjoint disjoint,
          Nat.card_Ico]
        omega

theorem mergeDuration_none
    (spans : List Span)
    (forward : ∀ span ∈ spans, span.1 ≤ span.2)
    (ordered : spans.Pairwise fun left right => left.1 ≤ right.1) :
    mergeDuration 0 none spans = (coverage spans).card := by
  cases spans with
  | nil => rfl
  | cons span rest =>
      obtain ⟨first, restOrdered⟩ := List.pairwise_cons.mp ordered
      rw [mergeDuration, mergeDuration_some 0 span rest
        (fun other member => forward other (List.mem_cons_of_mem _ member))
        first restOrdered, Nat.zero_add]

/-- The union duration is the number of covered instants of the window. -/
theorem unionDuration_eq_card
    (windowStartNs windowEndNs : Nat) (intervals : List Span) :
    unionDuration windowStartNs windowEndNs intervals =
      (windowCoverage windowStartNs windowEndNs intervals).card := by
  rw [unionDuration, mergeDuration_none, coverage_sortSpans, coverage_clip]
  · intro span member
    obtain ⟨_, _, clipped⟩ :=
      List.mem_filterMap.mp (mem_sortSpans.mp member)
    obtain ⟨nonempty, rfl⟩ := clipSpan_eq_some_iff.mp clipped
    exact nonempty.le
  · exact sortSpans_starts _

/-- Intersections cover what both lists cover. -/
theorem mem_coverage_intersections_iff
    {left right : List Span} {instant : Nat} :
    instant ∈ coverage (intersections left right) ↔
      instant ∈ coverage left ∧ instant ∈ coverage right := by
  simp only [mem_coverage_iff, intersections, List.mem_flatMap,
    List.mem_filterMap]
  constructor
  · rintro ⟨span, ⟨one, isOne, other, isOther, meet⟩, lower, upper⟩
    split at meet
    next =>
      rw [← Option.some.inj meet] at lower upper
      dsimp only at lower upper
      exact ⟨⟨one, isOne, by omega, by omega⟩,
        ⟨other, isOther, by omega, by omega⟩⟩
    next => simp at meet
  · rintro ⟨⟨one, isOne, oneLower, oneUpper⟩,
      ⟨other, isOther, otherLower, otherUpper⟩⟩
    refine ⟨(max one.1 other.1, min one.2 other.2),
      ⟨one, isOne, other, isOther, ?_⟩, by dsimp only; omega,
      by dsimp only; omega⟩
    rw [if_pos (by omega)]

/-- An intersection duration vanishes when no instant of the window is shared. -/
theorem intersectionDuration_eq_zero_iff
    {left right : List Span} {windowStartNs windowEndNs : Nat} :
    intersectionDuration left right windowStartNs windowEndNs = 0 ↔
      ∀ instant, windowStartNs ≤ instant → instant < windowEndNs →
        instant ∈ coverage left → instant ∉ coverage right := by
  rw [intersectionDuration, unionDuration_eq_card, Finset.card_eq_zero,
    Finset.eq_empty_iff_forall_notMem]
  constructor
  · intro disjoint instant fromStart beforeEnd inLeft inRight
    have shared := mem_coverage_intersections_iff.mpr ⟨inLeft, inRight⟩
    exact disjoint instant (mem_windowCoverage_iff.mpr
      ⟨⟨fromStart, beforeEnd⟩, mem_coverage_iff.mp shared⟩)
  · intro disjoint instant member
    obtain ⟨⟨fromStart, beforeEnd⟩, covered⟩ :=
      mem_windowCoverage_iff.mp member
    obtain ⟨inLeft, inRight⟩ :=
      mem_coverage_intersections_iff.mp (mem_coverage_iff.mpr covered)
    exact disjoint instant fromStart beforeEnd inLeft inRight

/-! ## Extending invalid spans -/

/--
The extended end lies beyond the old one, and no valid instant lies between
the two.
-/
theorem extendedEndNs_spec
    (valid : List Span) {windowEndNs endNs : Nat} (inWindow : endNs ≤ windowEndNs) :
    endNs ≤ extendedEndNs (sortSpans valid) windowEndNs endNs ∧
      ∀ instant, endNs ≤ instant →
        instant < extendedEndNs (sortSpans valid) windowEndNs endNs →
          instant ∉ coverage valid := by
  unfold extendedEndNs
  split
  next => exact ⟨le_refl _, fun instant lower upper => by omega⟩
  next uncovered =>
    have notInside : ∀ span ∈ valid, span.1 ≤ endNs → span.2 ≤ endNs := by
      intro span member starts
      by_contra goesOn
      refine uncovered (List.any_eq_true.mpr
        ⟨span, mem_sortSpans.mpr member, ?_⟩)
      simp only [decide_eq_true_eq]
      omega
    cases next : (sortSpans valid).find? fun span => endNs ≤ span.1 with
    | none =>
        refine ⟨inWindow, fun instant lower _ covered => ?_⟩
        obtain ⟨span, member, starts, ends⟩ := mem_coverage_iff.mp covered
        have early := List.find?_eq_none.mp next span
          (mem_sortSpans.mpr member)
        simp only [decide_eq_true_eq] at early
        have ended := notInside span member (by omega)
        omega
    | some found =>
        have beyond : endNs ≤ found.1 := by
          simpa using List.find?_some next
        refine ⟨beyond, fun instant lower upper covered => ?_⟩
        obtain ⟨span, member, starts, ends⟩ := mem_coverage_iff.mp covered
        simp only [Option.map_some, Option.getD_some] at upper
        by_cases early : span.1 ≤ endNs
        · have ended := notInside span member early
          omega
        · -- The first span from `endNs` on starts no later than this one.
          obtain ⟨before, after, split, earlier⟩ :=
            (List.find?_eq_some_iff_append.mp next).2
          have inSorted := mem_sortSpans.mpr member
          rw [split] at inSorted
          have starts' : found.1 ≤ span.1 := by
            rcases List.mem_append.mp inSorted with inBefore | inRest
            · have notYet := earlier span inBefore
              simp at notYet
              omega
            · rcases List.mem_cons.mp inRest with rfl | inAfter
              · exact le_refl _
              · have ordered := sortSpans_starts valid
                rw [split] at ordered
                exact (List.pairwise_cons.mp
                  (List.pairwise_append.mp ordered).2.1).1 span inAfter
          omega

end ShadowDataPlane.Central
