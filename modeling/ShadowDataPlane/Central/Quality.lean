import ShadowDataPlane.Central.Reconstructor
import ShadowDataPlane.Foundation.Intervals

/-!
# The day quality check

`_finalize` reads the gap ledger a second time.  It checks the emitted L2
validity, matches `OPEN` and `CLOSED` events into explicitly invalid
intervals, extends each of these to the next valid instant, and compares the
durations.  This module embeds the readers; `Central.QualityDurations` says
what their durations count.
-/

namespace ShadowDataPlane.Central

open ShadowDataPlane.Foundation
open ShadowDataPlane.Contracts

/-- A pair `(start, end)` of nanosecond instants. -/
abbrev Span := Nat × Nat

/-- Why the validity file of a symbol is refused. -/
inductive QualityError where
  | invalidValidityOrdering (line : Nat)
deriving DecidableEq, Repr

/-- The rows of `l2-validity.jsonl` from `line` on. -/
def validateValidityFrom (dayStart dayEnd : Nat) :
    Nat → Option Nat → List ValidityInterval → Except QualityError (List Span)
  | _, _, [] => .ok []
  | line, previousEnd, interval :: rest =>
      if interval.connectionId = "" ∨
          ¬ (dayStart ≤ interval.validFromNs ∧
            interval.validFromNs < interval.validToNs ∧
            interval.validToNs ≤ dayEnd) ∨
          (∃ earlier ∈ previousEnd, interval.validFromNs < earlier) then
        .error (.invalidValidityOrdering line)
      else do
        let spans ←
          validateValidityFrom dayStart dayEnd (line + 1)
            (some interval.validToNs) rest
        return interval.span :: spans

/-- Check the order of the emitted intervals and return their spans. -/
def validateValidity (utcDate : Nat) (intervals : List ValidityInterval) :
    Except QualityError (List Span) :=
  validateValidityFrom (midnightNs utcDate) (midnightNs (utcDate + 1)) 1 none
    intervals

theorem validateValidityFrom_eq_ok
    {dayStart dayEnd : Nat} (line : Nat) (previousEnd : Option Nat)
    {intervals : List ValidityInterval}
    (named : ∀ interval ∈ intervals, interval.connectionId ≠ "")
    (inside : ∀ interval ∈ intervals,
      dayStart ≤ interval.validFromNs ∧ interval.validToNs ≤ dayEnd)
    (separated : Separated (intervals.map ValidityInterval.span))
    (after : ∀ earlier ∈ previousEnd, ∀ interval ∈ intervals,
      earlier ≤ interval.validFromNs) :
    validateValidityFrom dayStart dayEnd line previousEnd intervals =
      .ok (intervals.map ValidityInterval.span) := by
  induction intervals generalizing line previousEnd with
  | nil => rfl
  | cons interval rest induction =>
      have here : interval ∈ interval :: rest := List.mem_cons_self
      obtain ⟨nonempty, ordered⟩ := separated
      simp only [List.map_cons, List.pairwise_cons] at ordered
      have forward : interval.validFromNs < interval.validToNs :=
        nonempty interval.span (List.mem_map_of_mem here)
      have tail := induction (line + 1) (some interval.validToNs)
        (fun other member => named other (List.mem_cons_of_mem _ member))
        (fun other member => inside other (List.mem_cons_of_mem _ member))
        ⟨fun span member =>
          nonempty span (List.mem_cons_of_mem _ member), ordered.2⟩
        (by
          intro earlier isEnd other member
          rw [← Option.mem_some.mp isEnd]
          exact ordered.1 other.span (List.mem_map_of_mem member))
      have accepted : ¬ (interval.connectionId = "" ∨
          ¬ (dayStart ≤ interval.validFromNs ∧
            interval.validFromNs < interval.validToNs ∧
            interval.validToNs ≤ dayEnd) ∨
          ∃ earlier ∈ previousEnd, interval.validFromNs < earlier) := by
        rintro (unnamed | outside | ⟨earlier, isEnd, early⟩)
        · exact named interval here unnamed
        · exact outside ⟨(inside interval here).1, forward,
            (inside interval here).2⟩
        · exact absurd (after earlier isEnd interval here) (not_le.mpr early)
      rw [validateValidityFrom, if_neg accepted, tail]
      rfl

/-- Named, separated intervals inside the day pass the validity check. -/
theorem validateValidity_eq_ok
    {utcDate : Nat} {intervals : List ValidityInterval}
    (named : ∀ interval ∈ intervals, interval.connectionId ≠ "")
    (inside : ∀ interval ∈ intervals,
      midnightNs utcDate ≤ interval.validFromNs ∧
        interval.validToNs ≤ midnightNs (utcDate + 1))
    (separated : Separated (intervals.map ValidityInterval.span)) :
    validateValidity utcDate intervals =
      .ok (intervals.map ValidityInterval.span) :=
  validateValidityFrom_eq_ok 1 none named inside separated (by simp)

/-! ## Reading the gap ledger -/

/-- The detail of the `CLOSED` event which ends a gap's part of a day. -/
def continuesDetail : String := "gap continues into the next UTC day"

/-- The effective time the reader computes; a zero backdate counts as none. -/
def explicitEffectiveNs (event : GapEventV1) : Nat :=
  match event.state, event.affectedFromRealtimeNs with
  | .opened, some affected =>
      if affected = 0 then event.observedAtRealtimeNs else affected
  | _, _ => event.observedAtRealtimeNs

/-- The reader sorts tuples of effective time, gap, state and detail. -/
def explicitKey (event : GapEventV1) : Nat ×ₗ String ×ₗ String ×ₗ String :=
  toLex (explicitEffectiveNs event,
    toLex (event.gapId, toLex (event.state.value, event.detail)))

def explicitEvents (symbol : String) (ledger : List GapEventV1) :
    List GapEventV1 :=
  (ledger.filter fun event => event.Relevant symbol .depth).insertionSort
    fun left right => explicitKey left ≤ explicitKey right

/-- The gaps still open and the intervals matched so far. -/
structure ExplicitMatch where
  opened : Dict String Nat := Dict.empty
  intervals : List Span := []
deriving DecidableEq

/-- The end of a matched interval, one later when the gap goes on. -/
def explicitEndNs (closing : GapEventV1) : Nat :=
  explicitEffectiveNs closing +
    if closing.detail = continuesDetail then 1 else 0

def ExplicitMatch.step (matched : ExplicitMatch) (event : GapEventV1) :
    ExplicitMatch :=
  match event.state with
  | .opened =>
      { matched with
        opened := matched.opened.set event.gapId (explicitEffectiveNs event) }
  | .closed =>
      match matched.opened.get? event.gapId with
      | none => matched
      | some startNs =>
          { opened := matched.opened.erase event.gapId
            intervals := matched.intervals ++
              [(startNs, explicitEndNs event)] }

/-- Clip one span to the window and drop it when nothing is left. -/
def clipSpan (windowStartNs windowEndNs : Nat) (span : Span) : Option Span :=
  if max span.1 windowStartNs < min span.2 windowEndNs then
    some (max span.1 windowStartNs, min span.2 windowEndNs)
  else none

/-- The explicitly invalid spans before they are clipped. -/
def explicitSpans (symbol : String) (windowEndNs : Nat)
    (ledger : List GapEventV1) : List Span :=
  let matched :=
    (explicitEvents symbol ledger).foldl ExplicitMatch.step {}
  matched.intervals ++
    matched.opened.values.map fun startNs => (startNs, windowEndNs)

def explicitInvalidIntervals (symbol : String)
    (windowStartNs windowEndNs : Nat) (ledger : List GapEventV1) :
    List Span :=
  (explicitSpans symbol windowEndNs ledger).filterMap
    (clipSpan windowStartNs windowEndNs)

def sortSpans (spans : List Span) : List Span :=
  spans.insertionSort fun left right => toLex left ≤ toLex right

/-- Where an invalid span ends once it is extended to the next valid one. -/
def extendedEndNs (sortedValid : List Span) (windowEndNs endNs : Nat) : Nat :=
  if sortedValid.any fun valid => valid.1 ≤ endNs ∧ endNs < valid.2 then endNs
  else
    ((sortedValid.find? fun valid => endNs ≤ valid.1).map Prod.fst).getD
      windowEndNs

def extendInvalidUntilValid (windowEndNs : Nat) (validIntervals : List Span)
    (intervals : List Span) : List Span :=
  intervals.map fun span =>
    (span.1, extendedEndNs (sortSpans validIntervals) windowEndNs span.2)

/-! ## Durations -/

/-- Add up the lengths of the merged spans, `current` being the last one. -/
def mergeDuration : Nat → Option Span → List Span → Nat
  | total, none, [] => total
  | total, some current, [] => total + (current.2 - current.1)
  | total, none, span :: rest => mergeDuration total (some span) rest
  | total, some current, span :: rest =>
      if span.1 ≤ current.2 then
        mergeDuration total (some (current.1, max current.2 span.2)) rest
      else
        mergeDuration (total + (current.2 - current.1)) (some span) rest

def unionDuration (windowStartNs windowEndNs : Nat) (intervals : List Span) :
    Nat :=
  mergeDuration 0 none
    (sortSpans (intervals.filterMap (clipSpan windowStartNs windowEndNs)))

def intersections (left right : List Span) : List Span :=
  left.flatMap fun one => right.filterMap fun other =>
    if max one.1 other.1 < min one.2 other.2 then
      some (max one.1 other.1, min one.2 other.2)
    else none

def intersectionDuration (left right : List Span)
    (windowStartNs windowEndNs : Nat) : Nat :=
  unionDuration windowStartNs windowEndNs (intersections left right)

/-- The durations `_finalize` records for one symbol. -/
structure SymbolCoverage where
  expectedNs : Int
  validNs : Int
  explicitInvalidNs : Int
  conflictingNs : Int
  unclassifiedNs : Int
deriving DecidableEq, Repr

def symbolCoverage (symbol : String) (windowStartNs windowEndNs : Nat)
    (validIntervals : List Span) (ledger : List GapEventV1) :
    SymbolCoverage :=
  let explicitInvalid :=
    extendInvalidUntilValid windowEndNs validIntervals
      (explicitInvalidIntervals symbol windowStartNs windowEndNs ledger)
  let accountedNs :=
    unionDuration windowStartNs windowEndNs (validIntervals ++ explicitInvalid)
  let expectedNs : Int := windowEndNs - windowStartNs
  { expectedNs := expectedNs
    validNs := unionDuration windowStartNs windowEndNs validIntervals
    explicitInvalidNs :=
      unionDuration windowStartNs windowEndNs explicitInvalid
    conflictingNs :=
      intersectionDuration validIntervals explicitInvalid windowStartNs
        windowEndNs
    unclassifiedNs := expectedNs - accountedNs }

end ShadowDataPlane.Central
