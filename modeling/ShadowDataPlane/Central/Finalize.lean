import Mathlib.Data.Set.Card
import Mathlib.Order.CompletePartialOrder
import ShadowDataPlane.Central.QualityDurations
import ShadowDataPlane.Contracts.Universe
import ShadowDataPlane.Foundation.Result

/-!
# The acceptance of a day

`_finalize` decides whether a normalized day enters the processed data.  It
measures the validity and the explicitly invalid time of every symbol inside the
collection window and accepts the day when no symbol is below the contract.

The decision is stated here in terms of the instants of the window: the valid
and the invalid ones have to be disjoint, to exhaust the window, and the valid
ones have to be at least 999 of 1000.
-/

namespace ShadowDataPlane.Central

open ShadowDataPlane.Foundation
open ShadowDataPlane.Contracts

/-! ## Files -/

/-- The identity of a sealed day, which the markers pass on. -/
structure DayIdentity where
  coreGeneration : Option Nat := none
  candidateRevision : Option Nat := none
  decisionSequence : Option Nat := none
  universeVersion : Option String := none
  universeHash : Option String := none
  sealedManifestSha256 : Option String := none
deriving DecidableEq, Repr

/--
The fields `_finalize` reads from `_NORMALIZED.json`; symbols which are no list
of texts are none.
-/
structure NormalizedDay extends NormalizedMarker where
  collectionWindowStartNs : Option Nat := none
  collectionWindowEndNs : Option Nat := none
  identity : DayIdentity := {}

/-- What the reconstruction left for a symbol. -/
structure SymbolOutputs where
  validity : Option (List ValidityInterval) := none
  checkpoint : Option L2CheckpointV1 := none

/-- The body of `_PROCESSED.json` and of `_QUALITY_REJECTED.json`. -/
structure QualityMarker where
  collectorId : String
  utcDate : Nat
  symbols : List String
  identity : DayIdentity
  collectionWindowStartNs : Nat
  collectionWindowEndNs : Nat
  l2Coverage : Dict String SymbolCoverage

/-- The derived files of a day. -/
structure DerivedDay where
  normalized : Option NormalizedDay
  outputs : String → SymbolOutputs
  /-- `transport-gaps.jsonl`, where a missing file reads like an empty one. -/
  transportGaps : List GapEventV1
  processed : Option QualityMarker := none
  qualityRejected : Option (QualityMarker × List String) := none

/-- Why a day is not accepted. -/
inductive FinalizeError where
  | notNormalized
  | noUniverse
  | symbolMismatch
  | windowOutsideDay
  | validity (symbol : String) (error : QualityError)
  | checkpointIdentity (symbol : String)
  | missingOutputs (symbols : List String)
  | emptyValidity (symbols : List String)
  | belowContract (symbols : List String)
deriving DecidableEq, Repr

def FinalizeError.message (qualityRoot : String) : FinalizeError → String
  | .notNormalized => "day is not normalized"
  | .noUniverse => "normalized day has no authoritative 60-symbol universe"
  | .symbolMismatch => "requested symbols do not match sealed universe"
  | .windowOutsideDay => "normalized collection window falls outside UTC day"
  | .validity symbol (.invalidValidityOrdering line) =>
      "invalid L2 validity ordering " ++ qualityRoot ++ "/symbol=" ++ symbol ++
        "/l2-validity.jsonl:" ++ toString line
  | .checkpointIdentity symbol =>
      "L2 checkpoint identity mismatch: " ++ qualityRoot ++ "/symbol=" ++
        symbol ++ "/l2-checkpoint.json"
  | .missingOutputs symbols =>
      "missing L2 outputs: " ++ String.intercalate "," symbols
  | .emptyValidity symbols =>
      "empty L2 validity: " ++ String.intercalate "," symbols
  | .belowContract symbols =>
      "L2 coverage below quality contract: " ++ String.intercalate "," symbols

/-! ## The decision -/

/-- `MINIMUM_L2_VALID_RATIO_PER_MILLE`. -/
def minimumL2ValidRatioPerMille : Int := 999

/-- Whether the loop adds a symbol to `rejected`. -/
def SymbolCoverage.BelowContract (coverage : SymbolCoverage) : Prop :=
  coverage.validNs * 1000 < coverage.expectedNs * minimumL2ValidRatioPerMille ∨
    coverage.unclassifiedNs ≠ 0 ∨ coverage.conflictingNs ≠ 0

instance (coverage : SymbolCoverage) : Decidable coverage.BelowContract :=
  inferInstanceAs (Decidable (_ ∨ _ ∨ _))

/-- The lists of the loop over the symbols. -/
structure FinalizeTally where
  missing : List String := []
  empty : List String := []
  coverage : Dict String SymbolCoverage := Dict.empty
  rejected : List String := []

/-- The collection window of a day. -/
structure CollectionWindow where
  startNs : Nat
  endNs : Nat
deriving DecidableEq, Repr

section Finalize

variable (derived : DerivedDay) (collectorId : String) (utcDate : Nat)

/-- One turn of the loop over the symbols. -/
def FinalizeTally.step (window : CollectionWindow) (tally : FinalizeTally)
    (symbol : String) : Except FinalizeError FinalizeTally :=
  match (derived.outputs symbol).validity,
      (derived.outputs symbol).checkpoint with
  | some intervals, some checkpoint =>
      if intervals = [] then
        .ok { tally with empty := tally.empty ++ [symbol] }
      else
        match validateValidity utcDate intervals with
        | .error error => .error (.validity symbol error)
        | .ok validIntervals =>
            if checkpoint.collectorId ≠ collectorId ∨
                checkpoint.utcDate ≠ utcDate ∨
                checkpoint.exchangeSymbol ≠ symbol then
              .error (.checkpointIdentity symbol)
            else
              let coverage := symbolCoverage symbol window.startNs window.endNs
                validIntervals derived.transportGaps
              .ok { tally with
                coverage := tally.coverage.set symbol coverage
                rejected :=
                  if coverage.BelowContract then tally.rejected ++ [symbol]
                  else tally.rejected }
  | _, _ => .ok { tally with missing := tally.missing ++ [symbol] }

/-- The 60 symbols of the normalized day. -/
def expectedUniverse (normalized : NormalizedDay) :
    Except FinalizeError (List String) :=
  match normalized.expectedSymbols with
  | none => .error .noUniverse
  | some expected =>
      if expected.length ≠ 60 ∨ expected.toFinset.card ≠ 60 then
        .error .noUniverse
      else .ok expected

/-- The window of the normalized day, which is the whole day by default. -/
def collectionWindow (normalized : NormalizedDay) :
    Except FinalizeError CollectionWindow :=
  let startNs := normalized.collectionWindowStartNs.getD (midnightNs utcDate)
  let endNs := normalized.collectionWindowEndNs.getD (midnightNs (utcDate + 1))
  if midnightNs utcDate ≤ startNs ∧ startNs < endNs ∧
      endNs ≤ midnightNs (utcDate + 1) then
    .ok { startNs, endNs }
  else .error .windowOutsideDay

/-- What `_finalize` knows before it writes: the marker and who is rejected. -/
def assessDay (symbols : List String) :
    Except FinalizeError (QualityMarker × List String) :=
  match derived.normalized with
  | none => .error .notNormalized
  | some normalized => do
      let expected ← expectedUniverse normalized
      if sortSymbols symbols ≠ sortSymbols expected then
        .error .symbolMismatch
      else
        let window ← collectionWindow utcDate normalized
        let tally ← symbols.foldlM
          (FinalizeTally.step derived collectorId utcDate window) {}
        if tally.missing ≠ [] then .error (.missingOutputs tally.missing)
        else if tally.empty ≠ [] then .error (.emptyValidity tally.empty)
        else
          .ok ({
            collectorId
            utcDate
            symbols
            identity := normalized.identity
            collectionWindowStartNs := window.startNs
            collectionWindowEndNs := window.endNs
            l2Coverage := tally.coverage }, tally.rejected)

/-- `_finalize`: the result and the files after it. -/
def finalize (symbols : List String) :
    Except FinalizeError Unit × DerivedDay :=
  match assessDay derived collectorId utcDate symbols with
  | .error error => (.error error, derived)
  | .ok (marker, rejected) =>
      if rejected ≠ [] then
        (.error (.belowContract rejected),
          { derived with qualityRejected := some (marker, rejected) })
      else
        (.ok (),
          { derived with processed := some marker, qualityRejected := none })

/-! ## The measures of one symbol -/

/-- The spans of the validity file of a symbol. -/
def validSpans (symbol : String) : List Span :=
  ((derived.outputs symbol).validity.getD []).map ValidityInterval.span

/-- The extended explicitly invalid spans of a symbol. -/
def invalidSpans (window : CollectionWindow) (symbol : String) : List Span :=
  extendInvalidUntilValid window.endNs (validSpans derived symbol)
    (explicitInvalidIntervals symbol window.startNs window.endNs
      derived.transportGaps)

end Finalize

/-- The instants of the window. -/
def CollectionWindow.span (window : CollectionWindow) : Set Nat :=
  Set.Ico window.startNs window.endNs

/-- Every instant of the window is valid or invalid, and enough are valid. -/
structure ExactlyClassified (window : CollectionWindow)
    (valid invalid : Set Nat) : Prop where
  disjoint : Disjoint (valid ∩ window.span) (invalid ∩ window.span)
  covers : window.span ⊆ valid ∪ invalid
  ratio : 999 * window.span.ncard ≤ 1000 * (valid ∩ window.span).ncard

/-- The durations of a symbol add up to the window. -/
def SymbolCoverage.Balanced (coverage : SymbolCoverage) : Prop :=
  coverage.validNs + coverage.explicitInvalidNs - coverage.conflictingNs +
    coverage.unclassifiedNs = coverage.expectedNs

/-! ## What the measures count -/

theorem validateValidityFrom_spans
    {dayStart dayEnd line : Nat} {previousEnd : Option Nat}
    {intervals : List ValidityInterval} {spans : List Span}
    (accepted : validateValidityFrom dayStart dayEnd line previousEnd
      intervals = .ok spans) :
    spans = intervals.map ValidityInterval.span := by
  induction intervals generalizing line previousEnd spans with
  | nil =>
      cases accepted
      rfl
  | cons interval rest induction =>
      rw [validateValidityFrom] at accepted
      split at accepted
      next => cases accepted
      next =>
        rcases bind_eq_ok_iff.mp accepted with ⟨others, read, joined⟩
        cases joined
        rw [List.map_cons, induction read]

/-- The accepted spans are those of the rows. -/
theorem validateValidity_spans
    {utcDate : Nat} {intervals : List ValidityInterval} {spans : List Span}
    (accepted : validateValidity utcDate intervals = .ok spans) :
    spans = intervals.map ValidityInterval.span :=
  validateValidityFrom_spans accepted

theorem coe_coverage (spans : List Span) :
    (coverage spans : Set Nat) = instants spans := by
  ext instant
  rw [Finset.mem_coe, mem_coverage_iff, mem_instants_iff]

theorem coe_windowCoverage (window : CollectionWindow) (spans : List Span) :
    (windowCoverage window.startNs window.endNs spans : Set Nat) =
      instants spans ∩ window.span := by
  rw [windowCoverage, Finset.coe_inter, coe_coverage, Finset.coe_Ico,
    CollectionWindow.span]

/-- A union duration is the number of instants of the window it counts. -/
theorem unionDuration_eq_ncard (window : CollectionWindow) (spans : List Span) :
    unionDuration window.startNs window.endNs spans =
      (instants spans ∩ window.span).ncard := by
  rw [unionDuration_eq_card, ← coe_windowCoverage, Set.ncard_coe_finset]

theorem instants_intersections (left right : List Span) :
    instants (intersections left right) = instants left ∩ instants right := by
  rw [← coe_coverage, ← coe_coverage, ← coe_coverage]
  ext instant
  exact mem_coverage_intersections_iff

theorem CollectionWindow.finite_span (window : CollectionWindow) :
    window.span.Finite :=
  Set.finite_Ico window.startNs window.endNs

theorem CollectionWindow.ncard_span (window : CollectionWindow) :
    window.span.ncard = window.endNs - window.startNs := by
  rw [CollectionWindow.span, ← Finset.coe_Ico, Set.ncard_coe_finset,
    Nat.card_Ico]

/-- The measures of a symbol in terms of its valid and invalid instants. -/
structure Measures (window : CollectionWindow) (valid invalid : Set Nat)
    (coverage : SymbolCoverage) : Prop where
  expectedNs : coverage.expectedNs = window.span.ncard
  validNs : coverage.validNs = (valid ∩ window.span).ncard
  explicitInvalidNs :
    coverage.explicitInvalidNs = (invalid ∩ window.span).ncard
  conflictingNs : coverage.conflictingNs =
    ((valid ∩ window.span) ∩ (invalid ∩ window.span)).ncard
  unclassifiedNs : coverage.unclassifiedNs = (window.span.ncard : Int) -
    ((valid ∩ window.span) ∪ (invalid ∩ window.span)).ncard

theorem symbolCoverage_measures
    (symbol : String) {window : CollectionWindow}
    (forward : window.startNs < window.endNs) (valid : List Span)
    (ledger : List GapEventV1) :
    Measures window (instants valid)
      (instants (extendInvalidUntilValid window.endNs valid
        (explicitInvalidIntervals symbol window.startNs window.endNs ledger)))
      (symbolCoverage symbol window.startNs window.endNs valid ledger) := by
  have length : (window.span.ncard : Int) = window.endNs - window.startNs := by
    rw [window.ncard_span]
    omega
  constructor
  · exact length.symm
  · exact congrArg Nat.cast (unionDuration_eq_ncard window valid)
  · exact congrArg Nat.cast (unionDuration_eq_ncard window _)
  · rw [← Set.inter_inter_distrib_right, ← instants_intersections]
    exact congrArg Nat.cast (unionDuration_eq_ncard window _)
  · rw [← Set.union_inter_distrib_right, ← instants_append, length,
      ← unionDuration_eq_ncard]
    rfl

namespace Measures

variable {window : CollectionWindow} {valid invalid : Set Nat}
  {coverage : SymbolCoverage}

theorem balanced (measures : Measures window valid invalid coverage) :
    coverage.Balanced := by
  have counted := Set.ncard_union_add_ncard_inter (valid ∩ window.span)
    (invalid ∩ window.span) (window.finite_span.inter_of_right valid)
    (window.finite_span.inter_of_right invalid)
  rw [SymbolCoverage.Balanced, measures.expectedNs, measures.validNs,
    measures.explicitInvalidNs, measures.conflictingNs, measures.unclassifiedNs]
  omega

theorem conflicting_eq_zero_iff
    (measures : Measures window valid invalid coverage) :
    coverage.conflictingNs = 0 ↔
      Disjoint (valid ∩ window.span) (invalid ∩ window.span) := by
  have finite := (window.finite_span.inter_of_right valid).inter_of_left
    (invalid ∩ window.span)
  rw [measures.conflictingNs, Nat.cast_eq_zero, Set.ncard_eq_zero finite,
    Set.disjoint_iff_inter_eq_empty]

theorem unclassified_eq_zero_iff
    (measures : Measures window valid invalid coverage) :
    coverage.unclassifiedNs = 0 ↔ window.span ⊆ valid ∪ invalid := by
  rw [measures.unclassifiedNs, ← Set.union_inter_distrib_right]
  constructor
  · intro classified
    have whole : (valid ∪ invalid) ∩ window.span = window.span :=
      Set.eq_of_subset_of_ncard_le Set.inter_subset_right (by omega)
        window.finite_span
    exact Set.inter_eq_right.mp whole
  · intro covers
    rw [Set.inter_eq_right.mpr covers, sub_self]

/-- A symbol is not rejected exactly if its instants are classified. -/
theorem not_belowContract_iff
    (measures : Measures window valid invalid coverage) :
    ¬ coverage.BelowContract ↔ ExactlyClassified window valid invalid := by
  rw [SymbolCoverage.BelowContract, minimumL2ValidRatioPerMille, not_or, not_or,
    not_not, not_not, measures.unclassified_eq_zero_iff,
    measures.conflicting_eq_zero_iff, measures.validNs, measures.expectedNs]
  constructor
  · rintro ⟨ratio, covers, disjoint⟩
    exact ⟨disjoint, covers, by omega⟩
  · intro classified
    refine ⟨?_, classified.covers, classified.disjoint⟩
    have ratio := classified.ratio
    omega

end Measures

/-! ## The decision on a day -/

section Acceptance

variable {derived : DerivedDay} {collectorId : String} {utcDate : Nat}
  {window : CollectionWindow} {symbols : List String}

/-- The outputs of a symbol: its checkpoint, and rows in a valid order. -/
structure OutputsReady (derived : DerivedDay) (collectorId : String)
    (utcDate : Nat) (symbol : String) : Prop where
  checkpoint : ∃ checkpoint, (derived.outputs symbol).checkpoint =
      some checkpoint ∧ checkpoint.collectorId = collectorId ∧
    checkpoint.utcDate = utcDate ∧ checkpoint.exchangeSymbol = symbol
  validity : ∃ intervals, (derived.outputs symbol).validity = some intervals ∧
    ∃ spans, validateValidity utcDate intervals = .ok spans

/-- A normalized day with its window, and the outputs of its 60 symbols. -/
structure ReadyDay (derived : DerivedDay) (collectorId : String)
    (utcDate : Nat) (window : CollectionWindow) (symbols : List String) :
    Prop where
  normalized : ∃ normalized, derived.normalized = some normalized ∧
    collectionWindow utcDate normalized = .ok window ∧
    ∃ expected, expectedUniverse normalized = .ok expected ∧
      sortSymbols symbols = sortSymbols expected
  outputs : ∀ symbol ∈ symbols,
    OutputsReady derived collectorId utcDate symbol

/-- The coverage which the loop computes for a symbol. -/
def coverageOf (derived : DerivedDay) (window : CollectionWindow)
    (symbol : String) : SymbolCoverage :=
  symbolCoverage symbol window.startNs window.endNs (validSpans derived symbol)
    derived.transportGaps

/-- Whether the validity file of a symbol has no rows. -/
def IsEmpty (derived : DerivedDay) (symbol : String) : Prop :=
  validSpans derived symbol = []

instance (derived : DerivedDay) (symbol : String) :
    Decidable (IsEmpty derived symbol) :=
  inferInstanceAs (Decidable (_ = []))

/-- One turn of the loop for a symbol with outputs. -/
theorem step_of_outputsReady
    {symbol : String} (ready : OutputsReady derived collectorId utcDate symbol)
    (tally : FinalizeTally) :
    FinalizeTally.step derived collectorId utcDate window tally symbol =
      .ok (if IsEmpty derived symbol then
        { tally with empty := tally.empty ++ [symbol] }
      else { tally with
        coverage := tally.coverage.set symbol (coverageOf derived window symbol)
        rejected :=
          if (coverageOf derived window symbol).BelowContract then
            tally.rejected ++ [symbol]
          else tally.rejected }) := by
  rcases ready.checkpoint with ⟨checkpoint, isCheckpoint, identity⟩
  rcases ready.validity with ⟨intervals, isValidity, spans, accepted⟩
  have isSpans := validateValidity_spans accepted
  have isValid : validSpans derived symbol = spans := by
    rw [validSpans, isValidity, Option.getD_some, isSpans]
  simp only [FinalizeTally.step, isValidity, isCheckpoint]
  by_cases none : intervals = []
  · rw [if_pos none, if_pos]
    rw [IsEmpty, isValid, isSpans, none]
    rfl
  · have some : ¬ IsEmpty derived symbol := by
      rw [IsEmpty, isValid, isSpans, List.map_eq_nil_iff]
      exact none
    rw [if_neg none, if_neg some]
    simp only [accepted]
    rw [if_neg (by simp [identity]), coverageOf, isValid]

/-- The lists after the loop over symbols with outputs. -/
theorem foldlM_step_of_outputsReady
    (window : CollectionWindow)
    (ready : ∀ symbol ∈ symbols,
      OutputsReady derived collectorId utcDate symbol)
    (tally : FinalizeTally) :
    ∃ final, symbols.foldlM
        (FinalizeTally.step derived collectorId utcDate window) tally =
          .ok final ∧
      final.missing = tally.missing ∧
      final.empty = tally.empty ++
        symbols.filter (fun symbol => IsEmpty derived symbol) ∧
      final.rejected = tally.rejected ++ symbols.filter (fun symbol =>
        ¬ IsEmpty derived symbol ∧
          (coverageOf derived window symbol).BelowContract) := by
  induction symbols generalizing tally with
  | nil => exact ⟨tally, rfl, rfl, by simp, by simp⟩
  | cons symbol rest induction =>
      rw [List.foldlM_cons,
        step_of_outputsReady (ready symbol List.mem_cons_self)]
      rcases induction
          (fun other inRest => ready other (List.mem_cons_of_mem _ inRest))
          (if IsEmpty derived symbol then
            { tally with empty := tally.empty ++ [symbol] }
          else { tally with
            coverage :=
              tally.coverage.set symbol (coverageOf derived window symbol)
            rejected :=
              if (coverageOf derived window symbol).BelowContract then
                tally.rejected ++ [symbol]
              else tally.rejected }) with
        ⟨final, folded, missing, empty, rejected⟩
      refine ⟨final, folded, ?_, ?_, ?_⟩
      · rw [missing]
        split <;> rfl
      · rw [empty, List.filter_cons]
        by_cases none : IsEmpty derived symbol <;> simp [none]
      · rw [rejected, List.filter_cons]
        by_cases none : IsEmpty derived symbol
        · simp [none]
        · by_cases below : (coverageOf derived window symbol).BelowContract <;>
            simp [none, below]

/-- The window of a day which has one is not empty. -/
theorem collectionWindow_forward
    {normalized : NormalizedDay}
    (accepted : collectionWindow utcDate normalized = .ok window) :
    window.startNs < window.endNs := by
  rw [collectionWindow] at accepted
  split at accepted
  next inside =>
    cases accepted
    exact inside.2.1
  next => cases accepted

/-- A symbol without valid instants does not meet the contract. -/
theorem not_exactlyClassified_of_isEmpty
    (forward : window.startNs < window.endNs) {symbol : String}
    (isEmpty : IsEmpty derived symbol) (invalid : Set Nat) :
    ¬ ExactlyClassified window (instants (validSpans derived symbol))
      invalid := by
  intro classified
  have ratio := classified.ratio
  rw [isEmpty, instants_nil, Set.empty_inter, Set.ncard_empty,
    window.ncard_span] at ratio
  omega

/-- A ready day is accepted if the loop reports no symbol. -/
theorem finalize_eq_ok_iff
    (ready : ReadyDay derived collectorId utcDate window symbols) :
    (finalize derived collectorId utcDate symbols).1 = .ok () ↔
      ∀ symbol ∈ symbols, ¬ IsEmpty derived symbol ∧
        ¬ (coverageOf derived window symbol).BelowContract := by
  rcases ready.normalized with
    ⟨normalized, isNormalized, isWindow, expected, isExpected, sameSymbols⟩
  rcases foldlM_step_of_outputsReady window ready.outputs {} with
    ⟨tally, folded, missing, empty, rejected⟩
  have assessed : assessDay derived collectorId utcDate symbols =
      if tally.empty ≠ [] then .error (.emptyValidity tally.empty)
      else .ok ({
        collectorId
        utcDate
        symbols
        identity := normalized.identity
        collectionWindowStartNs := window.startNs
        collectionWindowEndNs := window.endNs
        l2Coverage := tally.coverage }, tally.rejected) := by
    rw [assessDay, isNormalized]
    simp only
    rw [isExpected, ok_bind, if_neg (not_not.mpr sameSymbols), isWindow,
      ok_bind, folded, ok_bind, if_neg (not_not.mpr missing)]
  have accepted : (finalize derived collectorId utcDate symbols).1 = .ok () ↔
      tally.empty = [] ∧ tally.rejected = [] := by
    rw [finalize, assessed]
    by_cases noEmpty : tally.empty = []
    · rw [if_neg (not_not.mpr noEmpty)]
      by_cases noRejected : tally.rejected = []
      · simp [noEmpty, noRejected]
      · simp [noRejected]
    · rw [if_pos noEmpty]
      simp [noEmpty]
  rw [accepted, empty, rejected, List.nil_append, List.nil_append,
    List.filter_eq_nil_iff, List.filter_eq_nil_iff]
  constructor
  · rintro ⟨noEmpty, noRejected⟩ symbol member
    have nonempty := noEmpty symbol member
    have unrejected := noRejected symbol member
    rw [decide_eq_true_eq] at nonempty unrejected
    exact ⟨nonempty, fun below => unrejected ⟨nonempty, below⟩⟩
  · intro meets
    constructor
    · intro symbol member
      rw [decide_eq_true_eq]
      exact (meets symbol member).1
    · intro symbol member
      rw [decide_eq_true_eq]
      exact fun below => (meets symbol member).2 below.2

/--
A day with outputs for its 60 symbols is accepted exactly if the valid and the
invalid instants of every symbol are disjoint and exhaust the window, and at
least 999 of 1000 instants are valid; and the recorded durations of every
symbol add up to the window.
-/
theorem day_acceptance_exact
    (ready : ReadyDay derived collectorId utcDate window symbols) :
    ((finalize derived collectorId utcDate symbols).1 = .ok () ↔
        ∀ symbol ∈ symbols,
          ExactlyClassified window (instants (validSpans derived symbol))
            (instants (invalidSpans derived window symbol))) ∧
      ∀ symbol ∈ symbols, (coverageOf derived window symbol).Balanced := by
  rcases ready.normalized with
    ⟨normalized, isNormalized, isWindow, expected, isExpected, sameSymbols⟩
  have forward := collectionWindow_forward isWindow
  have measures (symbol : String) :
      Measures window (instants (validSpans derived symbol))
        (instants (invalidSpans derived window symbol))
        (coverageOf derived window symbol) :=
    symbolCoverage_measures symbol forward (validSpans derived symbol)
      derived.transportGaps
  refine ⟨?_, fun symbol _ => (measures symbol).balanced⟩
  rw [finalize_eq_ok_iff ready]
  constructor
  · intro meets symbol member
    exact (measures symbol).not_belowContract_iff.mp (meets symbol member).2
  · intro classified symbol member
    constructor
    · intro isEmpty
      exact not_exactlyClassified_of_isEmpty forward isEmpty _
        (classified symbol member)
    · exact (measures symbol).not_belowContract_iff.mpr
        (classified symbol member)

end Acceptance

/-! ## A day with a gap -/

def recoveredSymbols : List String :=
  (List.range 60).map fun index => "S" ++ toString index

/--
The second day of the epoch.  A gap of all depth streams ends ten seconds after
its start, and the books are valid again five seconds later.
-/
def recoveredDay : DerivedDay where
  normalized := some { expectedSymbols := some recoveredSymbols }
  outputs symbol := {
    validity := some
      [⟨midnightNs 1, midnightNs 1 + 100000000000, "a", "CONNECTION_LOST_GAP"⟩,
        ⟨midnightNs 1 + 115000000000, midnightNs 2, "b", "DAY_END"⟩]
    checkpoint := some (unanchoredCheckpoint
      { collectorId := "collector", utcDate := 1, exchangeSymbol := symbol }
      []) }
  transportGaps :=
    [{ gapId := "gap-depth"
       state := .opened
       reason := .connectionLost
       streamTypes := [.depth]
       observedAtRealtimeNs := midnightNs 1 + 102000000000
       affectedFromRealtimeNs := some (midnightNs 1 + 100000000000) },
      { gapId := "gap-depth"
        state := .closed
        reason := .connectionLost
        streamTypes := [.depth]
        observedAtRealtimeNs := midnightNs 1 + 110000000000
        closedUnaffected := GapEventV1.unaffected .closed }]

theorem recoveredDay_ready :
    ReadyDay recoveredDay "collector" 1 ⟨midnightNs 1, midnightNs 2⟩
      recoveredSymbols where
  normalized :=
    ⟨_, rfl, by rfl, recoveredSymbols, by rfl, rfl⟩
  outputs symbol _ := {
    checkpoint := ⟨_, rfl, rfl, rfl, rfl⟩
    validity := ⟨_, rfl,
      [(midnightNs 1, midnightNs 1 + 100000000000),
        (midnightNs 1 + 115000000000, midnightNs 2)], by rfl⟩ }

/-- The gap is extended to the next valid interval, and the day is accepted. -/
theorem day_acceptance_exact_recovered :
    invalidSpans recoveredDay ⟨midnightNs 1, midnightNs 2⟩ "S7" =
        [(midnightNs 1 + 100000000000, midnightNs 1 + 115000000000)] ∧
      (∀ symbol ∈ recoveredSymbols,
        ExactlyClassified ⟨midnightNs 1, midnightNs 2⟩
          (instants (validSpans recoveredDay symbol))
          (instants (invalidSpans recoveredDay
            ⟨midnightNs 1, midnightNs 2⟩ symbol))) ∧
      ∀ symbol ∈ recoveredSymbols,
        (coverageOf recoveredDay ⟨midnightNs 1, midnightNs 2⟩
          symbol).Balanced := by
  have acceptance :=
    day_acceptance_exact recoveredDay_ready
  have accepted :
      (finalize recoveredDay "collector" 1 recoveredSymbols).1 = .ok () := by
    decide +kernel
  exact ⟨by decide +kernel, acceptance.1.mp accepted, acceptance.2⟩

end ShadowDataPlane.Central
