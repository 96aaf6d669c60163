import ShadowDataPlane.Central.Finalize
import ShadowDataPlane.Foundation.Transition

/-!
# The markers of a day over repeated runs

A day can be finalized again after its outputs, its ledger or its normalized
marker have changed.  An accepting run writes `_PROCESSED.json` and removes
the rejection.  A run which does not accept leaves by one of several errors,
and none of these exits removes the success marker of an earlier run.

The markers tell the truth when a success marker is that of the latest run.
They keep doing so exactly as long as no run which finds unacceptable files
finds a success marker, too.
-/

namespace ShadowDataPlane.Central

open ShadowDataPlane.Foundation
open ShadowDataPlane.Contracts

/-! ## When a run accepts -/

section Acceptance

variable {derived : DerivedDay} {collectorId : String} {utcDate : Nat}
variable {symbols : List String}

/-- Complete outputs, none of them empty or below the contract. -/
def Acceptable (derived : DerivedDay) (collectorId : String) (utcDate : Nat)
    (symbols : List String) : Prop :=
  ∃ window, ReadyDay derived collectorId utcDate window symbols ∧
    ∀ symbol ∈ symbols, ¬ IsEmpty derived symbol ∧
      ¬ (coverageOf derived window symbol).BelowContract

/-- A loop which reports nothing missing and nothing empty met every output. -/
theorem outputsReady_of_foldlM
    {window : CollectionWindow} {tally final : FinalizeTally}
    (folded : symbols.foldlM
      (FinalizeTally.step derived collectorId utcDate window) tally =
        .ok final)
    (noneMissing : final.missing = []) (noneEmpty : final.empty = []) :
    tally.missing = [] ∧ tally.empty = [] ∧
      ∀ symbol ∈ symbols,
        OutputsReady derived collectorId utcDate symbol := by
  induction symbols generalizing tally with
  | nil =>
      cases folded
      exact ⟨noneMissing, noneEmpty, by simp⟩
  | cons symbol rest induction =>
      rw [List.foldlM_cons] at folded
      rcases bind_eq_ok_iff.mp folded with ⟨next, stepped, continued⟩
      rcases induction continued with ⟨nextMissing, nextEmpty, restReady⟩
      unfold FinalizeTally.step at stepped
      split at stepped
      next intervals checkpoint isValidity isCheckpoint =>
        split at stepped
        next =>
          cases stepped
          simp at nextEmpty
        next =>
          split at stepped
          next => cases stepped
          next spans validated =>
            split at stepped
            next => cases stepped
            next identity =>
              cases stepped
              push Not at identity
              refine ⟨nextMissing, nextEmpty, ?_⟩
              intro other member
              rcases List.mem_cons.mp member with rfl | inRest
              · exact {
                  checkpoint := ⟨checkpoint, isCheckpoint, identity⟩
                  validity := ⟨intervals, isValidity, spans, validated⟩ }
              · exact restReady other inRest
      next =>
        cases stepped
        simp at nextMissing

/-- A run which accepts met a ready day. -/
theorem readyDay_of_accepted
    (accepted : (finalize derived collectorId utcDate symbols).1 = .ok ()) :
    ∃ window, ReadyDay derived collectorId utcDate window symbols := by
  rw [finalize] at accepted
  split at accepted
  next => cases accepted
  next marker rejected assessed =>
    rw [assessDay] at assessed
    split at assessed
    next => cases assessed
    next normalized isNormalized =>
      rcases bind_eq_ok_iff.mp assessed with ⟨expected, isExpected, assessed⟩
      split at assessed
      next => cases assessed
      next sameSymbols =>
        rcases bind_eq_ok_iff.mp assessed with ⟨window, isWindow, assessed⟩
        rcases bind_eq_ok_iff.mp assessed with ⟨tally, folded, assessed⟩
        split at assessed
        next => cases assessed
        next noneMissing =>
          split at assessed
          next => cases assessed
          next noneEmpty =>
            refine ⟨window, ?_, ?_⟩
            · exact ⟨normalized, isNormalized, isWindow, expected, isExpected,
                not_not.mp sameSymbols⟩
            · exact (outputsReady_of_foldlM folded (not_not.mp noneMissing)
                (not_not.mp noneEmpty)).2.2

/-- A run accepts exactly the acceptable files. -/
theorem finalize_accepts_iff :
    (finalize derived collectorId utcDate symbols).1 = .ok () ↔
      Acceptable derived collectorId utcDate symbols := by
  constructor
  · intro accepted
    rcases readyDay_of_accepted accepted with ⟨window, ready⟩
    exact ⟨window, ready, (finalize_eq_ok_iff ready).mp accepted⟩
  · rintro ⟨window, ready, meets⟩
    exact (finalize_eq_ok_iff ready).mpr meets

/-- An accepting run leaves its success marker and no rejection. -/
theorem finalize_markers_of_accepted
    (accepted : (finalize derived collectorId utcDate symbols).1 = .ok ()) :
    (finalize derived collectorId utcDate symbols).2.processed.isSome ∧
      (finalize derived collectorId utcDate symbols).2.qualityRejected =
        none := by
  rw [finalize] at accepted ⊢
  split at accepted
  next => cases accepted
  next marker rejected assessed =>
    split at accepted
    next => cases accepted
    next => simp_all

/-- A run which does not accept leaves the success marker as it is. -/
theorem finalize_processed_of_not_accepted
    (refused : (finalize derived collectorId utcDate symbols).1 ≠ .ok ()) :
    (finalize derived collectorId utcDate symbols).2.processed =
      derived.processed := by
  rw [finalize] at refused ⊢
  split
  next => rfl
  next marker rejected assessed =>
    split
    next => rfl
    next noneRejected => simp [assessed, noneRejected] at refused

end Acceptance

/-! ## Runs -/

/-- How a run ended. -/
inductive RunVerdict where
  | accepted
  | refused (error : FinalizeError)
  /-- A file the run read did not parse. -/
  | unreadable
deriving DecidableEq, Repr

/-- What happens to the files of a day. -/
inductive DayLabel where
  /-- The outputs, the ledger and the normalized marker are replaced. -/
  | change (normalized : Option NormalizedDay)
      (outputs : String → SymbolOutputs) (transportGaps : List GapEventV1)
  | run (symbols : List String)
  /-- A run which raises at a file that does not parse. -/
  | unreadable

/-- A day and the verdict of the latest run. -/
structure DayRun where
  derived : DerivedDay
  latest : Option RunVerdict := none

namespace DayRun

variable (collectorId : String) (utcDate : Nat)

/-- The effect of a label, which is always possible. -/
def handle (state : DayRun) : DayLabel → DayRun
  | .change normalized outputs transportGaps =>
      { state with derived :=
          { state.derived with normalized, outputs, transportGaps } }
  | .run symbols =>
      match finalize state.derived collectorId utcDate symbols with
      | (.ok (), derived) => ⟨derived, some .accepted⟩
      | (.error error, derived) => ⟨derived, some (.refused error)⟩
  | .unreadable => ⟨state.derived, some .unreadable⟩

def step (state : DayRun) (label : DayLabel) : Option DayRun :=
  some (state.handle collectorId utcDate label)

/-- A success marker is that of the latest run and stands alone. -/
structure Truthful (state : DayRun) : Prop where
  latest : state.derived.processed.isSome → state.latest = some .accepted
  alone : state.derived.processed.isSome →
    state.derived.qualityRejected = none

/-- A run whose files are not acceptable finds no success marker. -/
def FindsNoMarker (state : DayRun) : DayLabel → Prop
  | .change _ _ _ => True
  | .run symbols =>
      Acceptable state.derived collectorId utcDate symbols ∨
        state.derived.processed = none
  | .unreadable => state.derived.processed = none

variable {collectorId} {utcDate}

theorem handle_run_of_acceptable
    {state : DayRun} {symbols : List String}
    (acceptable : Acceptable state.derived collectorId utcDate symbols) :
    (state.handle collectorId utcDate (.run symbols)).Truthful := by
  have accepted := finalize_accepts_iff.mpr acceptable
  have markers := finalize_markers_of_accepted accepted
  rw [handle]
  split
  next derived ended =>
    rw [ended] at markers
    exact ⟨fun _ => rfl, fun _ => markers.2⟩
  next error derived ended =>
    rw [ended] at accepted
    cases accepted

/-- An unacceptable run keeps the success marker and is not accepting. -/
theorem handle_run_of_not_acceptable
    {state : DayRun} {symbols : List String}
    (unacceptable : ¬ Acceptable state.derived collectorId utcDate symbols) :
    (state.handle collectorId utcDate (.run symbols)).derived.processed =
        state.derived.processed ∧
      (state.handle collectorId utcDate (.run symbols)).latest ≠
        some .accepted := by
  have refused := mt finalize_accepts_iff.mp unacceptable
  have kept := finalize_processed_of_not_accepted refused
  rw [handle]
  split
  next derived ended =>
    rw [ended] at refused
    exact absurd rfl refused
  next error derived ended =>
    rw [ended] at kept
    exact ⟨kept, by simp⟩

/-- A state without a success marker tells the truth. -/
theorem Truthful.of_processed_none
    {state : DayRun} (none : state.derived.processed = none) :
    state.Truthful := by
  constructor <;> simp [none]

theorem Truthful.handle
    {state : DayRun} (truthful : state.Truthful) {label : DayLabel}
    (finds : state.FindsNoMarker collectorId utcDate label) :
    (state.handle collectorId utcDate label).Truthful := by
  cases label with
  | change normalized outputs transportGaps =>
      exact ⟨truthful.latest, truthful.alone⟩
  | run symbols =>
      by_cases acceptable :
          Acceptable state.derived collectorId utcDate symbols
      · exact handle_run_of_acceptable acceptable
      · apply Truthful.of_processed_none
        rw [(handle_run_of_not_acceptable acceptable).1]
        exact finds.resolve_left acceptable
  | unreadable => exact Truthful.of_processed_none finds

/-- A step after which the markers tell the truth found no stale one. -/
theorem findsNoMarker_of_truthful
    {state : DayRun} {label : DayLabel}
    (truthful : (state.handle collectorId utcDate label).Truthful) :
    state.FindsNoMarker collectorId utcDate label := by
  cases label with
  | change normalized outputs transportGaps => trivial
  | run symbols =>
      by_cases acceptable :
          Acceptable state.derived collectorId utcDate symbols
      · exact Or.inl acceptable
      · right
        rcases handle_run_of_not_acceptable acceptable with
          ⟨kept, notAccepted⟩
        rw [← kept, ← Option.not_isSome_iff_eq_none]
        exact fun marked => notAccepted (truthful.latest marked)
  | unreadable =>
      show state.derived.processed = none
      rw [← Option.not_isSome_iff_eq_none]
      intro marked
      cases truthful.latest marked

/--
Whatever changes and runs follow one another, the markers of a day tell the
truth after each of them exactly if no run whose files are not acceptable
finds a success marker.
-/
theorem truthful_throughout_iff
    {start : DayRun} (fresh : start.Truthful) (labels : List DayLabel) :
    Throughout (step collectorId utcDate) Truthful start labels ↔
      StepsMeet (step collectorId utcDate) (FindsNoMarker collectorId utcDate)
        start labels := by
  refine throughout_iff_stepsMeet ?_ (fun _ truthful => truthful) ?_ fresh
    (runFrom_of_total (fun _ _ => rfl) start labels)
  · intro before label after truthful finds stepped
    rw [← Option.some.inj stepped]
    exact truthful.handle finds
  · intro before label after _ stepped truthful
    rw [← Option.some.inj stepped] at truthful
    exact findsNoMarker_of_truthful truthful

/-! ## A day which is accepted and then loses its outputs -/

/-- A day without outputs, which was not finalized yet. -/
def outputlessStart : DayRun where
  derived := { recoveredDay with outputs := fun _ => {} }

theorem outputlessStart_truthful : outputlessStart.Truthful :=
  Truthful.of_processed_none rfl

/-- The reconstruction writes the outputs of a day with a gap. -/
def appearing : DayLabel :=
  .change recoveredDay.normalized recoveredDay.outputs
    recoveredDay.transportGaps

/-- The outputs are removed again. -/
def vanishing : DayLabel :=
  .change recoveredDay.normalized (fun _ => {}) recoveredDay.transportGaps

/-- The day is accepted, its outputs vanish, and it is finalized again. -/
def vanishingLabels : List DayLabel :=
  [appearing, .run recoveredSymbols, vanishing, .run recoveredSymbols]

theorem runFrom_vanishingLabels :
    (runFrom (step "collector" 1) outputlessStart vanishingLabels).map
      (fun state => (state.derived.processed.isSome, state.latest)) =
        some (true, some (.refused (.missingOutputs recoveredSymbols))) := by
  decide +kernel

/-- The second run raises and leaves the success marker of the first one. -/
theorem vanishing_outputs_leave_marker :
    ¬ Throughout (step "collector" 1) Truthful outputlessStart
      vanishingLabels := by
  intro visited
  rcases Option.map_eq_some_iff.mp runFrom_vanishingLabels with
    ⟨final, reached, ended⟩
  rw [Prod.mk.injEq] at ended
  have truthful := visited _ [] final (List.append_nil _).symm reached
  rw [truthful.latest ended.1] at ended
  cases ended.2

/-- The day is refused, gets its outputs and is accepted twice. -/
theorem truthful_throughout_appearing :
    Throughout (step "collector" 1) Truthful outputlessStart
      [.run recoveredSymbols, appearing, .run recoveredSymbols,
        .run recoveredSymbols] := by
  apply (truthful_throughout_iff outputlessStart_truthful _).mpr
  refine ⟨Or.inr rfl, trivial, Or.inl ?_, Or.inl ?_, trivial⟩
  · apply finalize_accepts_iff.mp
    decide +kernel
  · apply finalize_accepts_iff.mp
    decide +kernel

end DayRun

end ShadowDataPlane.Central
