import ShadowDataPlane.Edge.UniverseChanges

/-!
# Paused automation

Without `automation_enabled` no decision is planned.  A decision which was
planned before the pause stays in `pending.json`: `observe_and_plan` returns
before it would remove the file, and `apply_due` does not look at the setting.
A plan which comes after the active decision takes effect at its midnight,
unless the operator puts an override before it.

A process which is stopped between two operations dies in the first of them
after none of its writes.
-/

namespace ShadowDataPlane.Edge

open ShadowDataPlane.Contracts
open ShadowDataPlane.Foundation
open ShadowDataPlane.Central

section Pause

variable {δ : Type} [DecimalArithmetic δ]

/-- A process which starts has a policy without automation. -/
def KeepsPaused : StoreLabel δ → Prop
  | .perform (.initializeStore policy _)
  | .crash (.initializeStore policy _) _ => policy.automationEnabled = false
  | _ => True

/--
What became active since the boot comes from operators, and the active universe
is that of the last decision which became active.
-/
structure OperatorsOnly (booted final : UniverseDisk) : Prop where
  earlier : booted.history <+: final.history
  applied : ∀ due ∈ final.history.drop booted.history.length,
    ∃ file, due.origin = .overridden file
  active : ∀ active ∈ final.active, ∃ last ∈ final.history.getLast?,
    SameRoles last.decision active

/-- No plan is left which comes after the active decision. -/
def NoPlanLeft (disk : UniverseDisk) : Prop :=
  ∀ plan ∈ disk.pending, ∀ active ∈ disk.active,
    plan.decision.decisionSequence ≤ active.decisionSequence

/-- The pending plan is due, and no due override comes after it. -/
def PlanPrevails (store : UniverseStore δ) (disk : UniverseDisk) (now : Int) :
    Prop :=
  ∃ plan ∈ disk.pending, store.IsDue now plan.decision ∧
    ∀ candidate ∈ store.dueCandidates { disk with pending := none } now,
      ¬ UniverseStore.ComesBefore plan candidate

/-- A decision which becomes active is not the pending plan. -/
def Overtaken (state : StoreState δ) : StoreLabel δ → Prop
  | .perform (.applyDue now) =>
      ∀ store ∈ state.store, ¬ PlanPrevails store state.disk now
  | .crash (.applyDue now) count =>
      ∀ store ∈ state.store,
        count ≤ (store.rejections state.disk).length ∨
          ¬ PlanPrevails store state.disk now
  | _ => True

/-! ## What is selected -/

theorem foldl_laterOf_of_forall
    {plan : Activation} {candidates : List Activation}
    (last : ∀ candidate ∈ candidates,
      ¬ UniverseStore.ComesBefore plan candidate) :
    candidates.foldl UniverseStore.laterOf (some plan) = some plan := by
  induction candidates with
  | nil => rfl
  | cons candidate rest induction =>
      rw [List.forall_mem_cons] at last
      rw [List.foldl_cons, UniverseStore.laterOf, if_neg last.1]
      exact induction last.2

theorem mem_of_foldl_laterOf_of_exists
    {plan due : Activation} {candidates : List Activation}
    (later : ∃ candidate ∈ candidates,
      UniverseStore.ComesBefore plan candidate)
    (selected :
      candidates.foldl UniverseStore.laterOf (some plan) = some due) :
    due ∈ candidates := by
  induction candidates with
  | nil => simp at later
  | cons candidate rest induction =>
      rw [List.foldl_cons, UniverseStore.laterOf] at selected
      split at selected
      next =>
        rcases mem_of_foldl_laterOf selected with isCandidate | inRest
        · rw [Option.some.inj isCandidate]
          exact List.mem_cons_self
        · exact List.mem_cons_of_mem _ inRest
      next notLater =>
        refine List.mem_cons_of_mem _ (induction ?_ selected)
        rcases later with ⟨other, member, before⟩
        rcases List.mem_cons.mp member with rfl | inRest
        · exact absurd before notLater
        · exact ⟨other, inRest, before⟩

/-- The candidates are the plan, when it is due, and the due overrides. -/
theorem dueCandidates_eq
    (store : UniverseStore δ) (disk : UniverseDisk) (now : Int) :
    store.dueCandidates disk now =
      (disk.pending.toList.filter fun plan =>
        store.IsDue now plan.decision) ++
        store.dueCandidates { disk with pending := none } now := by
  simp only [UniverseStore.dueCandidates, List.filter_append,
    Option.toList_none, List.nil_append]

theorem overridden_of_mem
    {store : UniverseStore δ} {disk : UniverseDisk} {now : Int}
    {due : Activation}
    (member : due ∈ store.dueCandidates { disk with pending := none } now) :
    ∃ file, due.origin = .overridden file := by
  rcases List.mem_filterMap.mp (List.mem_of_mem_filter member) with
    ⟨⟨file, content⟩, _, read⟩
  rcases Option.map_eq_some_iff.mp read with ⟨decision, _, rfl⟩
  exact ⟨file, rfl⟩

/-- A plan which prevails is selected. -/
theorem PlanPrevails.selectDue
    {store : UniverseStore δ} {disk : UniverseDisk} {now : Int}
    (prevails : PlanPrevails store disk now) :
    ∃ plan ∈ disk.pending, store.selectDue disk now = some plan := by
  rcases prevails with ⟨plan, isPending, isDue, last⟩
  refine ⟨plan, isPending, ?_⟩
  rw [UniverseStore.selectDue, dueCandidates_eq, isPending,
    Option.toList_some, List.filter_singleton, decide_eq_true isDue]
  exact foldl_laterOf_of_forall last

/-- Without such a plan, an override is selected. -/
theorem overridden_of_selectDue
    {store : UniverseStore δ} {disk : UniverseDisk} {now : Int}
    {due : Activation} (fails : ¬ PlanPrevails store disk now)
    (selected : store.selectDue disk now = some due) :
    ∃ file, due.origin = .overridden file := by
  suffices member :
      due ∈ store.dueCandidates { disk with pending := none } now from
    overridden_of_mem member
  rw [UniverseStore.selectDue, dueCandidates_eq] at selected
  cases isPending : disk.pending with
  | none =>
      rw [isPending] at selected
      rcases mem_of_foldl_laterOf selected with none | member
      · cases none
      · exact member
  | some plan =>
      rw [isPending, Option.toList_some, List.filter_singleton] at selected
      by_cases isDue : store.IsDue now plan.decision
      · rw [decide_eq_true isDue] at selected
        refine mem_of_foldl_laterOf_of_exists ?_ selected
        by_contra last
        push Not at last
        exact fails ⟨plan, isPending, isDue, last⟩
      · rw [decide_eq_false isDue] at selected
        rcases mem_of_foldl_laterOf selected with none | member
        · cases none
        · exact member

/-! ## What becomes active -/

/-- The decision which becomes active with a label. -/
def activatedBy (state : StoreState δ) : StoreLabel δ → Option Activation
  | .perform (.applyDue now) =>
      state.store.bind fun store => store.selectDue state.disk now
  | .crash (.applyDue now) count =>
      state.store.bind fun store =>
        if (store.rejections state.disk).length < count then
          store.selectDue state.disk now
        else none
  | _ => none

theorem history_take_of_keepsJoins
    {disk : UniverseDisk} {writes : List StoreWrite}
    (keeps : StepsMeet writeStep KeepsJoins disk writes) (count : Nat) :
    (disk.writeAll (writes.take count)).history = disk.history := by
  rw [← List.take_append_drop count writes] at keeps
  exact history_of_keepsJoins keeps.of_append.1

/-- What a cut `apply_due` adds to the history. -/
theorem history_applyDue
    {state : StoreState δ} {store : UniverseStore δ}
    (stored : state.store = some store) (now : Int) (count : Nat) :
    (state.disk.writeAll
        ((store.applyDue state.disk now).2.take count)).history =
      state.disk.history ++
        (activatedBy state (.crash (.applyDue now) count)).toList := by
  have kept := rejections_keepJoins store state.disk
  simp only [activatedBy, stored, Option.bind_some,
    UniverseStore.applyDue]
  cases selected : store.selectDue state.disk now with
  | none =>
      rw [ite_self, Option.toList_none, List.append_nil]
      exact history_take_of_keepsJoins kept count
  | some due =>
      change (state.disk.writeAll (List.take count
        (store.rejections state.disk ++ writeActive due ++ _))).history = _
      rw [List.append_assoc, List.take_append]
      split
      next further =>
        have rejected := sameControl_writeAll
          (rejections_are_logs store state.disk) state.disk
        rw [List.take_of_length_le further.le, writeAll_append]
        rcases writeAll_take_activation
            (state.disk.writeAll (store.rejections state.disk)) due
            ⟨(store.activated due.decision).memberSince,
              (store.activated due.decision).coreSince⟩
            (count - (store.rejections state.disk).length) with
          ⟨_, isFinal, _, _, isHistory⟩
        rw [if_neg (by omega), rejected.history, ← isFinal] at isHistory
        exact isHistory
      next cut =>
        rw [Nat.sub_eq_zero_of_le (Nat.le_of_not_lt cut), List.take_zero,
          List.append_nil, Option.toList_none, List.append_nil]
        exact history_take_of_keepsJoins kept count

/-- What an operation adds to the history, wherever it is cut off. -/
theorem history_effect
    {state : StoreState δ} (ordered : state.Ordered)
    (started : state.disk.active ≠ none)
    {operation : StoreOperation δ} {effect : Effect δ}
    (performed : state.effect operation = some effect) (count : Nat) :
    (state.disk.writeAll (effect.2.take count)).history =
      state.disk.history ++
        (activatedBy state (.crash operation count)).toList := by
  cases operation with
  | applyDue now =>
      rcases Option.map_eq_some_iff.mp performed with ⟨store, stored, rfl⟩
      exact history_applyDue stored now count
  | initializeStore policy now =>
      change _ = state.disk.history ++ []
      rw [List.append_nil]
      cases effectShape ordered.active performed with
      | quiet writes _ => exact history_take_of_keepsJoins writes count
      | bootstrapped noActive => exact absurd noActive started
  | observeAndPlan | hasDue =>
      change _ = state.disk.history ++ []
      rw [List.append_nil]
      cases effectShape ordered.active performed with
      | quiet writes _ => exact history_take_of_keepsJoins writes count

/-- An operation which ends activates what one does which is cut off late. -/
theorem exists_activatedBy_crash
    (state : StoreState δ) (operation : StoreOperation δ) (least : Nat) :
    ∃ count, least ≤ count ∧
      activatedBy state (.crash operation count) =
        activatedBy state (.perform operation) := by
  cases operation with
  | initializeStore | observeAndPlan | hasDue => exact ⟨least, le_rfl, rfl⟩
  | applyDue now =>
      cases stored : state.store with
      | none => exact ⟨least, le_rfl, by simp [activatedBy, stored]⟩
      | some store =>
          refine ⟨least + (store.rejections state.disk).length + 1,
            by omega, ?_⟩
          simp only [activatedBy, stored, Option.bind_some]
          rw [if_pos (by omega)]

/-- Every label adds to the history what becomes active with it. -/
theorem history_step
    {before after : StoreState δ} {label : StoreLabel δ}
    (ordered : before.Ordered) (started : before.disk.active ≠ none)
    (stepped : storeStep before label = some after) :
    after.disk.history =
      before.disk.history ++ (activatedBy before label).toList := by
  cases label with
  | crash operation count =>
      rcases Option.map_eq_some_iff.mp stepped with ⟨effect, performed, rfl⟩
      exact history_effect ordered started performed count
  | perform operation =>
      rcases Option.map_eq_some_iff.mp stepped with ⟨effect, performed, rfl⟩
      rcases exists_activatedBy_crash before operation effect.2.length with
        ⟨count, whole, same⟩
      have cut := history_effect ordered started performed count
      rw [List.take_of_length_le whole, same] at cut
      exact cut
  | placeOverride | startFormally =>
      cases stepped
      exact (List.append_nil _).symm

/-- The condition says that no label activates a pending plan. -/
theorem overtaken_iff
    {state : StoreState δ} (planned : PlannedOnly state.disk)
    (label : StoreLabel δ) :
    Overtaken state label ↔
      ∀ due ∈ activatedBy state label,
        ∃ file, due.origin = .overridden file := by
  have prevails_iff (store : UniverseStore δ) (now : Int) :
      ¬ PlanPrevails store state.disk now ↔
        ∀ due ∈ store.selectDue state.disk now,
          ∃ file, due.origin = .overridden file := by
    constructor
    · intro fails due selected
      exact overridden_of_selectDue fails selected
    · intro overridden prevails
      rcases prevails.selectDue with ⟨plan, isPending, selected⟩
      rcases overridden plan selected with ⟨file, isOrigin⟩
      have notFile := planned plan isPending
      rw [isOrigin] at notFile
      cases notFile
  cases label with
  | placeOverride | startFormally => simp [Overtaken, activatedBy]
  | perform operation =>
      cases operation with
      | initializeStore | observeAndPlan | hasDue =>
          simp [Overtaken, activatedBy]
      | applyDue now =>
          simp only [Overtaken, activatedBy, prevails_iff]
          cases state.store with
          | none => simp
          | some store => simp
  | crash operation count =>
      cases operation with
      | initializeStore | observeAndPlan | hasDue =>
          simp [Overtaken, activatedBy]
      | applyDue now =>
          simp only [Overtaken, activatedBy, prevails_iff]
          cases state.store with
          | none => simp
          | some store =>
              by_cases further :
                  (store.rejections state.disk).length < count
              · simp [further, Nat.not_le.mpr further]
              · simp [further, Nat.le_of_not_lt further]

/-! ## Runs from a boot -/

theorem PlannedOnly.step
    {before after : StoreState δ} {label : StoreLabel δ}
    (planned : PlannedOnly before.disk) (ordered : before.Ordered)
    (stepped : storeStep before label = some after) :
    PlannedOnly after.disk := by
  cases label with
  | perform operation =>
      rcases Option.map_eq_some_iff.mp stepped with ⟨effect, performed, rfl⟩
      exact planned.writeAll (effectShape ordered.active performed).plans
  | crash operation count =>
      rcases Option.map_eq_some_iff.mp stepped with ⟨effect, performed, rfl⟩
      exact planned.writeAll fun plan inTaken =>
        (effectShape ordered.active performed).plans plan
          (List.mem_of_mem_take inTaken)
  | placeOverride | startFormally =>
      cases stepped
      exact planned

/-- The files are in order, and nothing but plans is pending. -/
structure StoreState.Kept (state : StoreState δ) : Prop where
  ordered : state.Ordered
  planned : PlannedOnly state.disk

theorem StoreState.Kept.step
    {before after : StoreState δ} {label : StoreLabel δ} (kept : before.Kept)
    (stepped : storeStep before label = some after) : after.Kept where
  ordered := kept.ordered.step stepped
  planned := kept.planned.step kept.ordered stepped

theorem kept_emptyStore : (emptyStore δ).Kept where
  ordered := ordered_emptyStore
  planned := by
    rintro plan ⟨⟩

/-- The active universe is that of the last decision which became active. -/
theorem StoreState.Kept.active
    {state : StoreState δ} (kept : state.Kept) :
    ∀ active ∈ state.disk.active, ∃ last ∈ state.disk.history.getLast?,
      SameRoles last.decision active := by
  intro active isActive
  rcases kept.ordered.disk.current active isActive with
    ⟨last, isLast, same⟩
  exact ⟨last, isLast, same.toSameRoles⟩

/-- A state which a run reaches from a boot through operators alone. -/
structure FromBoot (booted : UniverseDisk) (state : StoreState δ) : Prop where
  kept : state.Kept
  only : OperatorsOnly booted state.disk

namespace FromBoot

variable {booted : UniverseDisk} {before after : StoreState δ}
  {label : StoreLabel δ}

/-- A history which has begun goes on with an active decision. -/
theorem started
    (fromBoot : FromBoot booted before) (begun : booted.history ≠ []) :
    before.disk.active ≠ none := by
  intro noActive
  have earlier := fromBoot.only.earlier
  rw [(fromBoot.kept.ordered.disk.fresh noActive).1, List.prefix_nil]
    at earlier
  exact begun earlier

/-- What became active since the boot, after one more label. -/
theorem drop_history
    (fromBoot : FromBoot booted before) (begun : booted.history ≠ [])
    (stepped : storeStep before label = some after) :
    after.disk.history.drop booted.history.length =
      before.disk.history.drop booted.history.length ++
        (activatedBy before label).toList := by
  rw [history_step fromBoot.kept.ordered (fromBoot.started begun) stepped,
    List.drop_append_of_le_length fromBoot.only.earlier.length_le]

theorem step
    (fromBoot : FromBoot booted before) (begun : booted.history ≠ [])
    (overtaken : Overtaken before label)
    (stepped : storeStep before label = some after) :
    FromBoot booted after := by
  have kept := fromBoot.kept.step stepped
  refine ⟨kept, ?_, ?_, kept.active⟩
  · rw [history_step fromBoot.kept.ordered (fromBoot.started begun) stepped]
    exact fromBoot.only.earlier.trans (List.prefix_append _ _)
  · intro due member
    rw [fromBoot.drop_history begun stepped] at member
    rcases List.mem_append.mp member with old | new
    · exact fromBoot.only.applied due old
    · exact (overtaken_iff fromBoot.kept.planned label).mp overtaken due
        (Option.mem_toList.mp new)

theorem overtaken
    (fromBoot : FromBoot booted before) (begun : booted.history ≠ [])
    (stepped : storeStep before label = some after)
    (still : OperatorsOnly booted after.disk) : Overtaken before label := by
  rw [overtaken_iff fromBoot.kept.planned]
  intro due isDue
  apply still.applied due
  rw [fromBoot.drop_history begun stepped]
  exact List.mem_append_right _ (Option.mem_toList.mpr isDue)

end FromBoot

/--
From a boot on, only operators change the universe as long as each plan which
is due is overtaken by an override.
-/
theorem operatorsOnly_iff_overtaken
    {booted final : StoreState δ} {labels : List (StoreLabel δ)}
    (kept : booted.Kept) (begun : booted.disk.history ≠ [])
    (reached : runFrom storeStep booted labels = some final) :
    Throughout storeStep (fun state => OperatorsOnly booted.disk state.disk)
        booted labels ↔
      StepsMeet storeStep Overtaken booted labels := by
  have initially : FromBoot booted.disk booted := by
    refine ⟨kept, List.prefix_rfl, ?_, kept.active⟩
    intro due member
    rw [List.drop_length] at member
    cases member
  exact throughout_iff_stepsMeet
    (fun _ _ _ fromBoot overtaken stepped =>
      fromBoot.step begun overtaken stepped)
    (fun _ fromBoot => fromBoot.only)
    (fun _ _ _ fromBoot stepped still =>
      fromBoot.overtaken begun stepped still)
    initially reached

/-! ## Paused operations -/

/-- The process, if there is one, runs without automation. -/
def AutomationPaused (state : StoreState δ) : Prop :=
  ∀ store ∈ state.store, store.policy.automationEnabled = false

/-- No decision is planned without automation. -/
theorem observeAndPlan_of_paused
    {store : UniverseStore δ} (paused : store.policy.automationEnabled = false)
    (disk : UniverseDisk) (snapshot : DiscoverySnapshot) (now : Int)
    (plan : Activation) :
    StoreWrite.pending plan ∉ (store.observeAndPlan disk snapshot now).2 := by
  simp only [UniverseStore.observeAndPlan, paused]
  split
  next => split <;> simp
  next => split <;> simp

theorem pending_not_mem_effect
    {state : StoreState δ} (paused : AutomationPaused state)
    {operation : StoreOperation δ} {effect : Effect δ}
    (performed : state.effect operation = some effect) (plan : Activation) :
    StoreWrite.pending plan ∉ effect.2 := by
  cases operation with
  | initializeStore policy now =>
      simp only [StoreState.effect, initializeStore] at performed
      split at performed
      next =>
        split at performed
        next => cases performed
        next =>
          cases performed
          exact List.not_mem_nil
      next =>
        cases performed
        simp [writeActive]
  | observeAndPlan snapshot now =>
      rcases Option.map_eq_some_iff.mp performed with ⟨store, stored, rfl⟩
      exact observeAndPlan_of_paused (paused store stored) _ _ _ plan
  | hasDue now =>
      rcases Option.map_eq_some_iff.mp performed with ⟨store, stored, rfl⟩
      intro written
      exact (rejections_are_logs store state.disk _ written).elim
  | applyDue now =>
      rcases Option.map_eq_some_iff.mp performed with ⟨store, stored, rfl⟩
      intro written
      simp only [UniverseStore.applyDue] at written
      split at written
      next => exact (rejections_are_logs store state.disk _ written).elim
      next due selected =>
        rw [List.append_assoc] at written
        rcases List.mem_append.mp written with rejected | activated
        · exact (rejections_are_logs store state.disk _ rejected).elim
        · rcases due with ⟨decision, _ | _ | _⟩ <;>
            simp [writeActive, UniverseStore.removeSource] at activated

theorem policy_initializeStore
    {disk : UniverseDisk} {policy : UniversePolicyConfig δ} {now : Int}
    {effect : Effect δ}
    (performed : initializeStore disk policy now = some effect) :
    effect.1.policy = policy := by
  simp only [initializeStore] at performed
  split at performed
  next =>
    split at performed
    next => cases performed
    next =>
      cases performed
      rfl
  next =>
    cases performed
    rfl

theorem policy_effect
    {state : StoreState δ} (paused : AutomationPaused state)
    {operation : StoreOperation δ} {effect : Effect δ}
    (keeps : KeepsPaused (.perform operation))
    (performed : state.effect operation = some effect) :
    effect.1.policy.automationEnabled = false := by
  cases operation with
  | initializeStore policy now =>
      rw [policy_initializeStore performed]
      exact keeps
  | observeAndPlan snapshot now =>
      rcases Option.map_eq_some_iff.mp performed with ⟨store, stored, rfl⟩
      simp only [UniverseStore.observeAndPlan, paused store stored]
      split
      next => split <;> exact paused store stored
      next => split <;> exact paused store stored
  | hasDue now =>
      rcases Option.map_eq_some_iff.mp performed with ⟨store, stored, rfl⟩
      exact paused store stored
  | applyDue now =>
      rcases Option.map_eq_some_iff.mp performed with ⟨store, stored, rfl⟩
      simp only [UniverseStore.applyDue]
      split <;> exact paused store stored

theorem AutomationPaused.step
    {before after : StoreState δ} {label : StoreLabel δ}
    (paused : AutomationPaused before) (keeps : KeepsPaused label)
    (stepped : storeStep before label = some after) :
    AutomationPaused after := by
  cases label with
  | perform operation =>
      rcases Option.map_eq_some_iff.mp stepped with ⟨effect, performed, rfl⟩
      rintro _ ⟨⟩
      exact policy_effect paused keeps performed
  | crash operation count =>
      rcases Option.map_eq_some_iff.mp stepped with ⟨effect, performed, rfl⟩
      rintro _ ⟨⟩
  | placeOverride | startFormally =>
      cases stepped
      exact paused

/-- With automation, a decision which changes a role is planned. -/
theorem observeAndPlan_planned
    {store : UniverseStore δ} {disk : UniverseDisk}
    {snapshot : DiscoverySnapshot} {now : Int} {result : SelectionResult}
    {decision : UniverseDecision} (formal : disk.formalStart = true)
    (enabled : store.policy.automationEnabled = true)
    (selected : selectRollingUniverse store.active snapshot
      (nextEffectiveAt now store.policy.decisionCutoffMinuteUtc)
      store.memberSince store.coreSince store.policy.toRollingPolicy =
        .ok result)
    (changed : ¬ (result.core = store.active.core ∧
      result.boundary = store.active.boundary ∧
      result.probe = store.active.probe))
    (planned : store.plannedDecision result now
      (nextEffectiveAt now store.policy.decisionCutoffMinuteUtc) =
        .ok decision) :
    store.observeAndPlan disk snapshot now =
      (store, [.observation snapshot,
        .evaluation {
          active := store.active
          result
          effectiveAt :=
            nextEffectiveAt now store.policy.decisionCutoffMinuteUtc
          evaluatedAt := now
          kind := "rolling" },
        .pending ⟨decision, .planned snapshot⟩]) := by
  rw [UniverseStore.observeAndPlan, if_neg (by simp [formal]), selected]
  simp only [enabled, not_true_eq_false, if_false, if_neg changed, planned]
  rfl

/-! ## No plan is left -/

theorem NoPlanLeft.write
    {disk : UniverseDisk} {change : StoreWrite} (none : NoPlanLeft disk)
    (ordered : DiskOrdered disk) (admissible : Admissible disk change)
    (unplanned : ∀ plan, change ≠ .pending plan) :
    NoPlanLeft (disk.write change) := by
  cases change with
  | activate due =>
      rintro plan isPending _ ⟨⟩
      cases isActive : disk.active with
      | none =>
          have noPending := (ordered.fresh isActive).2
          exact absurd (noPending.symm.trans isPending) (by simp)
      | some active =>
          have follows := admissible active isActive
          have before := none plan isPending active isActive
          rw [follows.sequence]
          omega
  | refresh decision =>
      rcases admissible with ⟨active, isActive, same⟩
      rintro plan isPending _ ⟨⟩
      rw [← same.sequence]
      exact none plan isPending active isActive
  | pending plan => exact absurd rfl (unplanned plan)
  | removePending => rintro plan ⟨⟩
  | observation | evaluation | archive | membership | removeOverride
  | rejectOverride => exact none

theorem NoPlanLeft.writeAll
    {disk : UniverseDisk} {writes : List StoreWrite} (none : NoPlanLeft disk)
    (ordered : DiskOrdered disk)
    (admissible : StepsMeet writeStep Admissible disk writes)
    (unplanned : ∀ plan, StoreWrite.pending plan ∉ writes) :
    NoPlanLeft (disk.writeAll writes) := by
  unfold UniverseDisk.writeAll
  induction writes generalizing disk with
  | nil => exact none
  | cons change rest induction =>
      rw [StepsMeet] at admissible
      refine induction ?_ (ordered.write admissible.1) admissible.2 ?_
      · refine none.write ordered admissible.1 fun plan same => ?_
        exact unplanned plan (same ▸ List.mem_cons_self)
      · intro plan inRest
        exact unplanned plan (List.mem_cons_of_mem _ inRest)

/-- A paused process whose files hold no plan to apply. -/
structure Idle (state : StoreState δ) : Prop where
  kept : state.Kept
  paused : AutomationPaused state
  noPlan : NoPlanLeft state.disk

theorem Idle.step
    {before after : StoreState δ} {label : StoreLabel δ}
    (idle : Idle before) (keeps : KeepsPaused label)
    (stepped : storeStep before label = some after) : Idle after where
  kept := idle.kept.step stepped
  paused := idle.paused.step keeps stepped
  noPlan := by
    have ordered := idle.kept.ordered
    cases label with
    | perform operation =>
        rcases Option.map_eq_some_iff.mp stepped with ⟨effect, performed, rfl⟩
        exact idle.noPlan.writeAll ordered.disk
          (effect_admissible ordered.disk ordered.active performed)
          (pending_not_mem_effect idle.paused performed)
    | crash operation count =>
        rcases Option.map_eq_some_iff.mp stepped with ⟨effect, performed, rfl⟩
        have admissible :=
          effect_admissible ordered.disk ordered.active performed
        rw [← List.take_append_drop count effect.2] at admissible
        refine idle.noPlan.writeAll ordered.disk admissible.of_append.1 ?_
        intro plan inTaken
        exact pending_not_mem_effect idle.paused performed plan
          (List.mem_of_mem_take inTaken)
    | placeOverride | startFormally =>
        cases stepped
        exact idle.noPlan

/-- What is not left cannot prevail. -/
theorem Idle.overtaken
    {state : StoreState δ} (idle : Idle state) (label : StoreLabel δ) :
    Overtaken state label := by
  have fails : ∀ store ∈ state.store, ∀ now,
      ¬ PlanPrevails store state.disk now := by
    rintro store stored now ⟨plan, isPending, isDue, _⟩
    have before := idle.noPlan plan isPending store.active
      (idle.kept.ordered.active store stored)
    have after := isDue.1
    omega
  cases label with
  | placeOverride | startFormally => trivial
  | perform operation =>
      cases operation with
      | initializeStore | observeAndPlan | hasDue => trivial
      | applyDue now =>
          exact fun store stored => fails store stored now
  | crash operation count =>
      cases operation with
      | initializeStore | observeAndPlan | hasDue => trivial
      | applyDue now =>
          exact fun store stored => .inr (fails store stored now)

/-! ## A plan which is left takes effect -/

/-- The operator replaces override files by ones which do not parse. -/
def withdraw (files : List String) : List (StoreLabel δ) :=
  files.map fun file => .placeOverride file none

theorem runFrom_withdraw (files : List String) (state : StoreState δ) :
    runFrom storeStep state (withdraw files) =
      some { state with
        disk := { state.disk with
          overrides := files.foldl
            (fun overrides file => overrides.set file none)
            state.disk.overrides } } := by
  induction files generalizing state with
  | nil => rfl
  | cons file rest induction =>
      rw [withdraw, List.map_cons, runFrom]
      exact induction _

/-- No override is due when every file was withdrawn. -/
theorem dueCandidates_withdrawn
    (store : UniverseStore δ) {disk : UniverseDisk} (now : Int)
    (noPending : disk.pending = none)
    (withdrawn : ∀ entry ∈ disk.overrides.entries, entry.2 = none) :
    store.dueCandidates disk now = [] := by
  have unread : (disk.overrides.entries.filterMap
      fun (entry : String × Option CandidateOverride) =>
        (store.readOverride entry.2).map fun decision =>
          { decision, origin := .overridden entry.1 : Activation }) = [] := by
    rw [List.filterMap_eq_nil_iff]
    intro entry member
    rw [withdrawn entry member]
    rfl
  rw [UniverseStore.dueCandidates, noPending, unread]
  rfl

theorem withdrawn_entries
    (overrides : Dict String (Option CandidateOverride)) :
    ∀ entry ∈ ((overrides.entries.map Prod.fst).foldl
      (fun overrides file => overrides.set file none) overrides).entries,
      entry.2 = none := by
  rintro ⟨file, content⟩ member
  rw [Dict.mem_entries_iff, Dict.get?_foldl_rebind _ (fun _ _ => none)
    (fun dict head key => Dict.get?_set dict head key none)
    (fun _ _ => rfl)] at member
  split at member
  next => exact (Option.some.inj member).symm
  next absent =>
    have bound := (overrides.mem_entries_iff.mpr member)
    exact absurd (List.mem_map_of_mem (f := Prod.fst) bound) absent

/-- After the overrides are withdrawn, the plan prevails at its time. -/
theorem exists_run_of_plan
    {booted : StoreState δ} {store : UniverseStore δ} (kept : booted.Kept)
    (stored : booted.store = some store) (left : ¬ NoPlanLeft booted.disk) :
    ∃ (later : List (StoreLabel δ)) (final : StoreState δ),
      (∀ label ∈ later, KeepsPaused label) ∧
      runFrom storeStep booted later = some final ∧
      ¬ StepsMeet storeStep Overtaken booted later := by
  have isActive := kept.ordered.active store stored
  simp only [NoPlanLeft, not_forall, not_le] at left
  rcases left with ⟨plan, isPending, active, isOther, after⟩
  cases Option.some.inj (isActive.symm.trans isOther)
  let files := booted.disk.overrides.entries.map Prod.fst
  let now := plan.decision.effectiveAt
  have withdraws := runFrom_withdraw files booted
  have applies : ∃ final, runFrom storeStep booted
      (withdraw files ++ [.perform (.applyDue now)]) = some final := by
    rw [runFrom_append, withdraws, Option.bind_some, runFrom, storeStep,
      StoreState.effect, stored]
    exact ⟨_, rfl⟩
  rcases applies with ⟨final, reached⟩
  refine ⟨_, final, ?_, reached, ?_⟩
  · intro label member
    rcases List.mem_append.mp member with isWithdrawn | isLast
    · rcases List.mem_map.mp isWithdrawn with ⟨file, _, rfl⟩
      trivial
    · rw [List.mem_singleton.mp isLast]
      trivial
  · intro meets
    apply (meets.of_append.2 _ withdraws).1 store stored
    refine ⟨plan, isPending, ⟨after, le_rfl⟩, ?_⟩
    rw [dueCandidates_withdrawn store now rfl
      (withdrawn_entries booted.disk.overrides)]
    exact fun _ member => absurd member List.not_mem_nil

/-! ## Runs with paused automation -/

/--
After a boot without automation, only operators change the universe in every
run exactly if no plan is left which comes after the active decision; in a
single run, exactly if each plan which is due is overtaken by an override.
-/
theorem paused_automation_iff
    {earlier : List (StoreLabel δ)} {policy : UniversePolicyConfig δ}
    {now : Int} {booted : StoreState δ}
    (paused : policy.automationEnabled = false)
    (boots : runFrom storeStep (emptyStore δ)
      (earlier ++ [.perform (.initializeStore policy now)]) = some booted) :
    ((∀ later final, (∀ label ∈ later, KeepsPaused label) →
        runFrom storeStep booted later = some final →
          Throughout storeStep
            (fun state => OperatorsOnly booted.disk state.disk) booted
            later) ↔
      NoPlanLeft booted.disk) ∧
    ∀ later final, (∀ label ∈ later, KeepsPaused label) →
      runFrom storeStep booted later = some final →
        (Throughout storeStep
            (fun state => OperatorsOnly booted.disk state.disk) booted later ↔
          StepsMeet storeStep Overtaken booted later) := by
  have kept : booted.Kept :=
    invariant_of_run (fun _ _ _ before _ stepped => before.step stepped)
      kept_emptyStore (stepsMeet_true _ _) boots
  rw [runFrom_append, Option.bind_eq_some_iff] at boots
  rcases boots with ⟨stopped, _, starts⟩
  simp only [runFrom] at starts
  split at starts
  next => cases starts
  next started stepped =>
    cases starts
    rcases Option.map_eq_some_iff.mp stepped with ⟨effect, performed, rfl⟩
    have isActive := kept.ordered.active effect.1 rfl
    have begun : (stopped.disk.writeAll effect.2).history ≠ [] := by
      intro isEmpty
      rcases kept.ordered.disk.current effect.1.active isActive with
        ⟨last, isLast, _⟩
      rw [isEmpty] at isLast
      cases isLast
    constructor
    · constructor
      · intro always
        by_contra left
        rcases exists_run_of_plan kept rfl left with
          ⟨later, final, keeps, reached, fails⟩
        exact fails ((operatorsOnly_iff_overtaken kept begun reached).mp
          (always later final keeps reached))
      · intro noPlan later final keeps reached
        have idle : Idle (δ := δ)
            ⟨some effect.1, stopped.disk.writeAll effect.2⟩ := by
          refine ⟨kept, ?_, noPlan⟩
          rintro _ ⟨⟩
          rw [policy_initializeStore performed]
          exact paused
        rw [operatorsOnly_iff_overtaken kept begun reached]
        exact stepsMeet_of_invariant
          (fun _ _ _ idle keeps stepped => idle.step keeps stepped)
          (fun _ label idle => idle.overtaken label) idle
          (stepsMeet_of_forall (fun label member _ => keeps label member) _)
    · intro later final _ reached
      exact operatorsOnly_iff_overtaken kept begun reached

end Pause

/-! ## An override under the pause -/

def pausedPolicy : UniversePolicyConfig ℚ :=
  { samplePolicy with automationEnabled := false }

/-- The files after the first start, with the bootstrap decision. -/
def bootstrappedDisk : UniverseDisk :=
  ({ } : UniverseDisk).writeAll
    (writeActive ⟨bootstrapDecision samplePolicy 0, .bootstrap⟩ ++
      [.membership {
        memberSince :=
          sinceInstant (bootstrapDecision samplePolicy 0).members 0
        coreSince := sinceInstant (bootstrapDecision samplePolicy 0).core 0 }])

/-- A store with the bootstrap universe. -/
def bootstrappedStore (policy : UniversePolicyConfig ℚ) : UniverseStore ℚ where
  policy
  active := bootstrapDecision samplePolicy 0
  memberSince := sinceInstant (bootstrapDecision samplePolicy 0).members 0
  coreSince := sinceInstant (bootstrapDecision samplePolicy 0).core 0

/-- Automation is paused from the first start on. -/
def pausedFromStart : StoreState ℚ where
  store := some (bootstrappedStore pausedPolicy)
  disk := bootstrappedDisk

def overriddenRun : List (StoreLabel ℚ) :=
  [.placeOverride "swap.override.json" (some sampleOverride),
    .perform (.applyDue (2 * usPerDay))]

theorem overriddenRun_completes :
    (runFrom storeStep pausedFromStart overriddenRun).isSome := by
  decide +kernel

theorem paused_automation_iff_override :
    NoPlanLeft pausedFromStart.disk ∧
      Throughout storeStep
        (fun state => OperatorsOnly pausedFromStart.disk state.disk)
        pausedFromStart overriddenRun := by
  have boots : runFrom storeStep (emptyStore ℚ)
      ([] ++ [.perform (.initializeStore pausedPolicy 0)]) =
        some pausedFromStart := rfl
  have noPlan : NoPlanLeft pausedFromStart.disk := by
    rintro plan ⟨⟩
  refine ⟨noPlan, (paused_automation_iff rfl boots).1.mpr noPlan _ _ ?_
    (Option.some_get overriddenRun_completes).symm⟩
  intro label member
  simp only [overriddenRun, List.mem_cons, List.not_mem_nil, or_false]
    at member
  rcases member with rfl | rfl
  · trivial
  · trivial

/-! ## A plan from before the pause -/

/-- Formal collection has started. -/
def startedDisk : UniverseDisk := { bootstrappedDisk with formalStart := true }

theorem selection_bootstrapped :
    selectRollingUniverse (bootstrappedStore samplePolicy).active
        sampleSnapshot (nextEffectiveAt (19999 * usPerDay)
          (bootstrappedStore samplePolicy).policy.decisionCutoffMinuteUtc)
        (bootstrappedStore samplePolicy).memberSince
        (bootstrappedStore samplePolicy).coreSince
        samplePolicy.toRollingPolicy =
      .ok sampleResult := by
  have same : selectRollingUniverse (bootstrappedStore samplePolicy).active
      sampleSnapshot (nextEffectiveAt (19999 * usPerDay)
        (bootstrappedStore samplePolicy).policy.decisionCutoffMinuteUtc)
      (bootstrappedStore samplePolicy).memberSince
      (bootstrappedStore samplePolicy).coreSince
      samplePolicy.toRollingPolicy = sampleSelection := rfl
  exact same.trans (eq_ok_of_toOption sampleSelection_eq)

/-- The decision which the store plans for the next midnight. -/
def samplePlan : Except String UniverseDecision :=
  (bootstrappedStore samplePolicy).plannedDecision sampleResult
    (19999 * usPerDay) (20000 * usPerDay)

theorem samplePlan_ok :
    ∃ decision, samplePlan = .ok decision ∧ decision.decisionSequence = 2 ∧
      decision.effectiveAt = 20000 * usPerDay := by
  have planned : samplePlan.toOption.map (fun decision =>
      (decision.decisionSequence, decision.effectiveAt)) =
        some (2, 20000 * usPerDay) := by
    decide +kernel
  rcases Option.map_eq_some_iff.mp planned with ⟨decision, isPlan, numbers⟩
  rcases Prod.mk.inj numbers with ⟨sequence, effective⟩
  exact ⟨decision, eq_ok_of_toOption isPlan, sequence, effective⟩

/-- What the planning writes. -/
def plannedWrites (decision : UniverseDecision) : List StoreWrite :=
  [.observation sampleSnapshot,
    .evaluation {
      active := (bootstrappedStore samplePolicy).active
      result := sampleResult
      effectiveAt := 20000 * usPerDay
      evaluatedAt := 19999 * usPerDay
      kind := "rolling" },
    .pending ⟨decision, .planned sampleSnapshot⟩]

theorem observeAndPlan_bootstrapped
    {decision : UniverseDecision} (planned : samplePlan = .ok decision) :
    (bootstrappedStore samplePolicy).observeAndPlan startedDisk
        sampleSnapshot (19999 * usPerDay) =
      (bootstrappedStore samplePolicy, plannedWrites decision) := by
  have changed : ¬ (sampleResult.core = samplePolicy.core ∧
      sampleResult.boundary = samplePolicy.boundary ∧
      sampleResult.probe = samplePolicy.probe) := by
    decide +kernel
  exact observeAndPlan_planned rfl rfl selection_bootstrapped changed planned

/-- A decision is planned, and the process starts again without automation. -/
def planThenPause : List (StoreLabel ℚ) :=
  [.perform (.initializeStore samplePolicy 0), .startFormally,
    .perform (.observeAndPlan sampleSnapshot (19999 * usPerDay))] ++
    [.perform (.initializeStore pausedPolicy (19999 * usPerDay + usPerHour))]

/-- The state after the paused start, with the plan. -/
def pausedWithPlan (decision : UniverseDecision) : StoreState ℚ where
  store := some (bootstrappedStore pausedPolicy)
  disk := startedDisk.writeAll (plannedWrites decision)

theorem runFrom_planThenPause
    {decision : UniverseDecision} (planned : samplePlan = .ok decision) :
    runFrom storeStep (emptyStore ℚ) planThenPause =
      some (pausedWithPlan decision) := by
  have starts : runFrom storeStep (emptyStore ℚ)
      [.perform (.initializeStore samplePolicy 0), .startFormally] =
        some ⟨some (bootstrappedStore samplePolicy), startedDisk⟩ := rfl
  have split : planThenPause =
      [.perform (.initializeStore samplePolicy 0), .startFormally] ++
        [.perform (.observeAndPlan sampleSnapshot (19999 * usPerDay)),
          .perform (.initializeStore pausedPolicy
            (19999 * usPerDay + usPerHour))] := rfl
  rw [split, runFrom_append, starts, Option.bind_some, runFrom, storeStep,
    StoreState.effect, Option.map_some, observeAndPlan_bootstrapped planned]
  rfl

/-- The plan prevails at the next midnight. -/
theorem planPrevails_pausedWithPlan
    {decision : UniverseDecision} (sequence : decision.decisionSequence = 2)
    (effective : decision.effectiveAt = 20000 * usPerDay) :
    PlanPrevails (bootstrappedStore pausedPolicy)
      (pausedWithPlan decision).disk (20000 * usPerDay) := by
  refine ⟨⟨decision, .planned sampleSnapshot⟩, rfl, ⟨?_, effective.le⟩, ?_⟩
  · change 1 < decision.decisionSequence
    omega
  · rw [dueCandidates_withdrawn _ _ rfl fun _ member =>
      absurd member List.not_mem_nil]
    exact fun _ member => absurd member List.not_mem_nil

/-- Paused automation applies the decision which was planned before. -/
theorem planned_applied_while_paused :
    pausedPolicy.automationEnabled = false ∧
      ∃ booted final, runFrom storeStep (emptyStore ℚ) planThenPause =
          some booted ∧
        runFrom storeStep booted [.perform (.applyDue (20000 * usPerDay))] =
          some final ∧
        ¬ Throughout storeStep
          (fun state => OperatorsOnly booted.disk state.disk) booted
          [.perform (.applyDue (20000 * usPerDay))] := by
  rcases samplePlan_ok with ⟨decision, planned, sequence, effective⟩
  have boots := runFrom_planThenPause planned
  have kept : (pausedWithPlan decision).Kept :=
    invariant_of_run (fun _ _ _ before _ stepped => before.step stepped)
      kept_emptyStore (stepsMeet_true _ _) boots
  have begun : (pausedWithPlan decision).disk.history ≠ [] :=
    List.cons_ne_nil _ _
  refine ⟨rfl, pausedWithPlan decision, _, boots, rfl, ?_⟩
  rw [operatorsOnly_iff_overtaken kept begun rfl]
  intro overtaken
  exact overtaken.1 _ rfl (planPrevails_pausedWithPlan sequence effective)

end ShadowDataPlane.Edge
