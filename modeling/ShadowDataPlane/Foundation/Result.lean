import Mathlib.Data.List.Forall2

/-!
# Computations which can fail

Lemmas for programs in `Except`: what a successful bind, a successful fold
and a successful map say about their parts.
-/

namespace ShadowDataPlane.Foundation

universe u v

variable {ε : Type u} {α β σ : Type v}

theorem bind_eq_ok_iff
    {first : Except ε α} {next : α → Except ε β} {result : β} :
    (first >>= next) = .ok result ↔
      ∃ middle, first = .ok middle ∧ next middle = .ok result := by
  cases first with
  | error problem => simp [bind, Except.bind]
  | ok middle => simp [bind, Except.bind]

@[simp]
theorem ok_bind (value : α) (next : α → Except ε β) :
    (Except.ok value >>= next) = next value := rfl

theorem eq_ok_of_toOption
    {computed : Except ε α} {result : α}
    (some : computed.toOption = .some result) : computed = .ok result := by
  cases computed with
  | error problem => cases some
  | ok value => rw [Option.some.inj some]

/-- What every step of a fold preserves holds of its result. -/
theorem foldlM_preserves
    {step : σ → α → Except ε σ} {holds : σ → Prop}
    {items : List α} {initial final : σ}
    (preserved : ∀ item ∈ items, ∀ before after, holds before →
      step before item = .ok after → holds after)
    (initially : holds initial)
    (completed : items.foldlM step initial = .ok final) : holds final := by
  induction items generalizing initial with
  | nil =>
      rw [← Except.ok.inj completed]
      exact initially
  | cons item rest induction =>
      rw [List.foldlM_cons] at completed
      obtain ⟨middle, stepped, continued⟩ := bind_eq_ok_iff.mp completed
      exact induction
        (fun other member =>
          preserved other (List.mem_cons_of_mem _ member))
        (preserved item List.mem_cons_self initial middle initially stepped)
        continued

/-- A successful map relates every item to its result. -/
theorem mapM_forall₂
    {convert : α → Except ε β} {items : List α} {results : List β}
    (completed : items.mapM convert = .ok results) :
    List.Forall₂ (fun item result => convert item = .ok result)
      items results := by
  induction items generalizing results with
  | nil =>
      rw [List.mapM_nil] at completed
      rw [← Except.ok.inj completed]
      exact List.Forall₂.nil
  | cons item rest induction =>
      rw [List.mapM_cons] at completed
      obtain ⟨head, converted, continued⟩ := bind_eq_ok_iff.mp completed
      obtain ⟨tail, tailConverted, assembled⟩ := bind_eq_ok_iff.mp continued
      rw [← Except.ok.inj assembled]
      exact List.Forall₂.cons converted (induction tailConverted)

theorem mapM_eq_ok_of_forall₂
    {convert : α → Except ε β} {items : List α} {results : List β}
    (related : List.Forall₂ (fun item result => convert item = .ok result)
      items results) :
    items.mapM convert = .ok results := by
  induction related with
  | nil => rfl
  | cons converted _ induction =>
      rw [List.mapM_cons, converted, ok_bind, induction]
      rfl

/-- Every result of a successful map comes from an item. -/
theorem exists_of_mem_mapM
    {convert : α → Except ε β} {items : List α} {results : List β}
    (completed : items.mapM convert = .ok results)
    {result : β} (member : result ∈ results) :
    ∃ item ∈ items, convert item = .ok result := by
  have related := mapM_forall₂ completed
  clear completed
  induction related with
  | nil => simp at member
  | cons converted _ induction =>
      rcases List.mem_cons.mp member with rfl | inRest
      · exact ⟨_, List.mem_cons_self, converted⟩
      · obtain ⟨item, isItem, itemConverted⟩ := induction inRest
        exact ⟨item, List.mem_cons_of_mem _ isItem, itemConverted⟩

/-- A map fails with the problem of one of its items. -/
theorem exists_error_of_mapM
    {convert : α → Except ε β} {items : List α} {problem : ε}
    (failed : items.mapM convert = .error problem) :
    ∃ item ∈ items, convert item = .error problem := by
  induction items with
  | nil => cases failed
  | cons item rest induction =>
      rw [List.mapM_cons] at failed
      cases converted : convert item with
      | error first =>
          rw [converted] at failed
          cases failed
          exact ⟨item, List.mem_cons_self, converted⟩
      | ok head =>
          rw [converted, ok_bind] at failed
          cases others : rest.mapM convert with
          | ok tail =>
              rw [others] at failed
              cases failed
          | error later =>
              rw [others] at failed
              cases failed
              rcases induction others with ⟨other, isOther, itemFailed⟩
              exact ⟨other, List.mem_cons_of_mem _ isOther, itemFailed⟩

/-- A map whose items all succeed succeeds. -/
theorem exists_mapM_eq_ok
    {convert : α → Except ε β} {items : List α}
    (each : ∀ item ∈ items, ∃ result, convert item = .ok result) :
    ∃ results, items.mapM convert = .ok results := by
  induction items with
  | nil => exact ⟨[], rfl⟩
  | cons item rest induction =>
      rcases each item List.mem_cons_self with ⟨head, converted⟩
      rcases induction fun other inRest =>
        each other (List.mem_cons_of_mem _ inRest) with ⟨tail, restConverted⟩
      refine ⟨head :: tail, ?_⟩
      rw [List.mapM_cons, converted, ok_bind, restConverted]
      rfl

/-- Every item of a successful map has a result. -/
theorem exists_result_of_mem_mapM
    {convert : α → Except ε β} {items : List α} {results : List β}
    (completed : items.mapM convert = .ok results)
    {item : α} (member : item ∈ items) :
    ∃ result ∈ results, convert item = .ok result := by
  have related := mapM_forall₂ completed
  clear completed
  induction related with
  | nil => simp at member
  | cons converted _ induction =>
      rcases List.mem_cons.mp member with rfl | inRest
      · exact ⟨_, List.mem_cons_self, converted⟩
      · obtain ⟨result, isResult, itemConverted⟩ := induction inRest
        exact ⟨result, List.mem_cons_of_mem _ isResult, itemConverted⟩

end ShadowDataPlane.Foundation
