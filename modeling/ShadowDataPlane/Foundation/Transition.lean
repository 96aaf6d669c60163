import Mathlib.Data.List.Perm.Basic

/-!
# Runs of a labelled machine

A machine takes one label at a time and may refuse it.  `runFrom` takes a list
of labels in a row; `StepsMeet` says that every step of such a run meets a
condition on the state it is taken in.  `invariant_of_run` is the only
induction over runs of this development.

A machine with outputs never refuses.  Two of them cannot be told apart in
states which a simulation relates (`outputs_eq_of_simulation`).
-/

namespace ShadowDataPlane.Foundation

variable {σ ι : Type*} (step : σ → ι → Option σ)

/-- Take labels one after another. -/
def runFrom : σ → List ι → Option σ
  | state, [] => some state
  | state, label :: rest =>
      match step state label with
      | none => none
      | some next => runFrom next rest

/-- Every step of the run meets the condition. -/
def StepsMeet (condition : σ → ι → Prop) : σ → List ι → Prop
  | _, [] => True
  | state, label :: rest =>
      condition state label ∧
        match step state label with
        | none => True
        | some next => StepsMeet condition next rest

instance decidableStepsMeet
    (condition : σ → ι → Prop)
    [∀ state label, Decidable (condition state label)] :
    (state : σ) → (labels : List ι) →
      Decidable (StepsMeet step condition state labels)
  | _, [] => inferInstanceAs (Decidable True)
  | state, label :: rest =>
      have : Decidable (match step state label with
          | none => True
          | some next => StepsMeet step condition next rest) :=
        match step state label with
        | none => inferInstanceAs (Decidable True)
        | some next => decidableStepsMeet condition next rest
      inferInstanceAs (Decidable (_ ∧ _))

variable {step}

/-- A machine which never refuses folds its labels. -/
theorem runFrom_of_total
    {react : σ → ι → σ}
    (total : ∀ state label, step state label = some (react state label))
    (start : σ) (labels : List ι) :
    runFrom step start labels = some (labels.foldl react start) := by
  induction labels generalizing start with
  | nil => rfl
  | cons label rest induction =>
      rw [runFrom, total]
      exact induction (react start label)

/-- What every step preserves holds at the end of a run. -/
theorem invariant_of_run
    {condition : σ → ι → Prop} {invariant : σ → Prop}
    (preserved : ∀ before label after, invariant before →
      condition before label → step before label = some after →
        invariant after)
    {start final : σ} {labels : List ι}
    (initially : invariant start)
    (meets : StepsMeet step condition start labels)
    (reached : runFrom step start labels = some final) :
    invariant final := by
  induction labels generalizing start with
  | nil => exact Option.some.inj reached ▸ initially
  | cons label rest induction =>
      simp only [runFrom, StepsMeet] at reached meets
      cases stepped : step start label with
      | none => simp [stepped] at reached
      | some next =>
          rw [stepped] at reached
          rw [stepped] at meets
          exact induction
            (preserved start label next initially meets.1 stepped)
            meets.2 reached

/-- The condition which every step meets. -/
theorem stepsMeet_true (state : σ) (labels : List ι) :
    StepsMeet step (fun _ _ => True) state labels := by
  induction labels generalizing state with
  | nil => trivial
  | cons label rest induction =>
      refine ⟨trivial, ?_⟩
      cases step state label with
      | none => trivial
      | some next => exact induction next

/-- A condition which every label meets in every state. -/
theorem stepsMeet_of_forall
    {condition : σ → ι → Prop} {labels : List ι}
    (meets : ∀ label ∈ labels, ∀ state, condition state label) (start : σ) :
    StepsMeet step condition start labels := by
  induction labels generalizing start with
  | nil => trivial
  | cons label rest induction =>
      refine ⟨meets label List.mem_cons_self start, ?_⟩
      cases step start label with
      | none => trivial
      | some next =>
          exact induction
            (fun other inRest => meets other (List.mem_cons_of_mem _ inRest))
            next

/-- A run which meets a condition meets every weaker one. -/
theorem StepsMeet.mono
    {condition weaker : σ → ι → Prop}
    (implies : ∀ state label, condition state label → weaker state label)
    {state : σ} {labels : List ι}
    (meets : StepsMeet step condition state labels) :
    StepsMeet step weaker state labels := by
  induction labels generalizing state with
  | nil => trivial
  | cons label rest induction =>
      rw [StepsMeet] at meets ⊢
      refine ⟨implies state label meets.1, ?_⟩
      cases stepped : step state label with
      | none => trivial
      | some next =>
          rw [stepped] at meets
          exact induction meets.2

/-- A run which meets two conditions meets both at every step. -/
theorem StepsMeet.and
    {first second : σ → ι → Prop} {state : σ} {labels : List ι}
    (left : StepsMeet step first state labels)
    (right : StepsMeet step second state labels) :
    StepsMeet step (fun state label => first state label ∧ second state label)
      state labels := by
  induction labels generalizing state with
  | nil => trivial
  | cons label rest induction =>
      rw [StepsMeet] at left right ⊢
      refine ⟨⟨left.1, right.1⟩, ?_⟩
      cases stepped : step state label with
      | none => trivial
      | some next =>
          rw [stepped] at left right
          exact induction left.2 right.2

/-- What an invariant implies is met by every step. -/
theorem stepsMeet_of_invariant
    {assumed condition : σ → ι → Prop} {invariant : σ → Prop}
    (preserved : ∀ before label after, invariant before →
      assumed before label → step before label = some after →
        invariant after)
    (implies : ∀ state label, invariant state → condition state label)
    {start : σ} {labels : List ι} (initially : invariant start)
    (meets : StepsMeet step assumed start labels) :
    StepsMeet step condition start labels := by
  induction labels generalizing start with
  | nil => trivial
  | cons label rest induction =>
      rw [StepsMeet] at meets ⊢
      refine ⟨implies start label initially, ?_⟩
      cases stepped : step start label with
      | none => trivial
      | some next =>
          rw [stepped] at meets
          exact induction
            (preserved start label next initially meets.1 stepped) meets.2

theorem runFrom_append (state : σ) (earlier later : List ι) :
    runFrom step state (earlier ++ later) =
      (runFrom step state earlier).bind fun middle =>
        runFrom step middle later := by
  induction earlier generalizing state with
  | nil => rfl
  | cons label rest induction =>
      rw [List.cons_append, runFrom, runFrom]
      cases step state label with
      | none => rfl
      | some next => exact induction next

/-- Both parts of a run meet what the whole run meets. -/
theorem StepsMeet.of_append
    {condition : σ → ι → Prop} {state : σ} {earlier later : List ι}
    (meets : StepsMeet step condition state (earlier ++ later)) :
    StepsMeet step condition state earlier ∧
      ∀ middle, runFrom step state earlier = some middle →
        StepsMeet step condition middle later := by
  induction earlier generalizing state with
  | nil =>
      constructor
      · trivial
      · rintro middle ⟨⟩
        exact meets
  | cons label rest induction =>
      rw [List.cons_append, StepsMeet] at meets
      rw [StepsMeet, runFrom]
      cases stepped : step state label with
      | none => exact ⟨⟨meets.1, trivial⟩, by rintro middle ⟨⟩⟩
      | some next =>
          rw [stepped] at meets
          rcases induction meets.2 with ⟨first, second⟩
          exact ⟨⟨meets.1, first⟩, second⟩

/-- Every state which a run visits has the property. -/
def Throughout (step : σ → ι → Option σ) (property : σ → Prop) (start : σ)
    (labels : List ι) : Prop :=
  ∀ earlier later state, labels = earlier ++ later →
    runFrom step start earlier = some state → property state

/--
A property which the invariant implies, and which a step breaks unless it meets
the condition, holds throughout a run exactly if all steps meet the condition.
-/
theorem throughout_iff_stepsMeet
    {condition : σ → ι → Prop} {invariant property : σ → Prop}
    (preserved : ∀ before label after, invariant before →
      condition before label → step before label = some after →
        invariant after)
    (sound : ∀ state, invariant state → property state)
    (necessary : ∀ before label after, invariant before →
      step before label = some after → property after →
        condition before label)
    {start final : σ} {labels : List ι} (initially : invariant start)
    (reached : runFrom step start labels = some final) :
    Throughout step property start labels ↔
      StepsMeet step condition start labels := by
  constructor
  · intro visited
    induction labels generalizing start with
    | nil => trivial
    | cons label rest induction =>
        rw [runFrom] at reached
        cases stepped : step start label with
        | none => simp [stepped] at reached
        | some next =>
            rw [stepped] at reached
            have meets := necessary start label next initially stepped
              (visited [label] rest next rfl (by rw [runFrom, stepped]; rfl))
            rw [StepsMeet, stepped]
            refine ⟨meets, induction
              (preserved start label next initially meets stepped) reached ?_⟩
            intro earlier later state split visits
            apply visited (label :: earlier) later state (by rw [split]; rfl)
            rw [runFrom, stepped]
            exact visits
  · rintro meets earlier later state rfl visits
    exact sound state
      (invariant_of_run preserved initially meets.of_append.1 visits)

/-! ## Machines with outputs -/

/-- What a machine puts out while it takes labels one after another. -/
def outputs {ω : Type*} (react : σ → ι → σ × ω) : σ → List ι → List ω
  | _, [] => []
  | state, label :: rest =>
      (react state label).2 :: outputs react (react state label).1 rest

/--
Related states put out the same for ever.  The relation may depend on the
labels still to come.
-/
theorem outputs_eq_of_simulation
    {τ ω : Type*} {left : σ → ι → σ × ω} {right : τ → ι → τ × ω}
    {related : List ι → σ → τ → Prop}
    (matched : ∀ label rest before before',
      related (label :: rest) before before' →
        (left before label).2 = (right before' label).2 ∧
          related rest (left before label).1 (right before' label).1)
    {labels : List ι} {start : σ} {start' : τ}
    (initially : related labels start start') :
    outputs left start labels = outputs right start' labels := by
  induction labels generalizing start start' with
  | nil => rfl
  | cons label rest induction =>
      rcases matched label rest start start' initially with ⟨same, still⟩
      simp only [outputs]
      rw [same, induction still]

/-! ## Choosing an item -/

/-- The item whose turn it is, and the others. -/
theorem perm_eraseIdx
    {α : Type*} {items : List α} {position : Nat} {item : α}
    (found : items[position]? = some item) :
    items.Perm (item :: items.eraseIdx position) := by
  rcases List.getElem?_eq_some_iff.mp found with ⟨bound, rfl⟩
  exact (List.getElem_cons_eraseIdx_perm bound).symm

end ShadowDataPlane.Foundation
