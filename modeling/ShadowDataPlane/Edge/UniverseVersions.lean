import Mathlib.Data.Prod.Lex
import ShadowDataPlane.Edge.UniverseDwell

/-!
# The version history of the universe

A decision is numbered when it is planned, or each time an override file is
read, and applied later.  In between another decision may have become active, or
the process may have died after any of its writes.  A planned decision which was
overtaken keeps a sequence number which is no longer above the active one, so it
is never due again; what is due follows the active decision.

The invariant is kept by every single write, hence by every prefix of the writes
of an operation, which is all that a crash leaves.
-/

namespace ShadowDataPlane.Edge

open ShadowDataPlane.Contracts
open ShadowDataPlane.Foundation
open ShadowDataPlane.Central

/-! ## Numbers -/

/-- `(core_generation, candidate_revision)`, in lexicographic order. -/
def versionOf (decision : UniverseDecision) : Nat ×ₗ Nat :=
  toLex (decision.coreGeneration, decision.candidateRevision)

/-- The numbers of a decision which comes right after another one. -/
structure Follows (previous next : UniverseDecision) : Prop where
  sequence : next.decisionSequence = previous.decisionSequence + 1
  coreChanged : next.core ≠ previous.core ↔
    next.coreGeneration = previous.coreGeneration + 1 ∧
      next.candidateRevision = 0
  coreKept : next.core = previous.core →
    next.coreGeneration = previous.coreGeneration ∧
      next.candidateRevision = previous.candidateRevision + 1

theorem Follows.versionOf_lt
    {previous next : UniverseDecision} (follows : Follows previous next) :
    versionOf previous < versionOf next := by
  rw [versionOf, versionOf, Prod.Lex.toLex_lt_toLex]
  by_cases kept : next.core = previous.core
  · rcases follows.coreKept kept with ⟨generation, revision⟩
    exact Or.inr ⟨generation.symm, by simp only [revision]; omega⟩
  · rcases follows.coreChanged.mp kept with ⟨generation, _⟩
    exact Or.inl (by simp only [generation]; omega)

/-- Every decision follows the one before it. -/
def Consecutive (history : List Activation) : Prop :=
  ∀ earlier previous next later,
    history = earlier ++ previous :: next :: later →
      Follows previous.decision next.decision

theorem Consecutive.concat
    {history : List Activation} {next : Activation}
    (consecutive : Consecutive history)
    (follows : ∀ previous ∈ history.getLast?,
      Follows previous.decision next.decision) :
    Consecutive (history ++ [next]) := by
  apply forall_adjacent_concat consecutive
  rintro earlier previous rfl
  exact follows previous (List.getLast?_concat ..)

/-- Sequence numbers and versions rise strictly through a history. -/
theorem Consecutive.rising
    {history : List Activation} (consecutive : Consecutive history) :
    history.Pairwise fun left right =>
      left.decision.decisionSequence < right.decision.decisionSequence ∧
        versionOf left.decision < versionOf right.decision := by
  have trans : IsTrans Activation fun left right =>
      left.decision.decisionSequence < right.decision.decisionSequence ∧
        versionOf left.decision < versionOf right.decision :=
    ⟨fun _ _ _ first second =>
      ⟨first.1.trans second.1, first.2.trans second.2⟩⟩
  apply List.IsChain.pairwise
  induction history with
  | nil => exact List.IsChain.nil
  | cons first rest induction =>
      have later : Consecutive rest := by
        intro earlier previous next others split
        exact consecutive (first :: earlier) previous next others
          (by rw [split]; rfl)
      cases rest with
      | nil => exact List.IsChain.singleton first
      | cons second others =>
          have follows := consecutive [] first second others rfl
          apply List.IsChain.cons_cons _ (induction later)
          exact ⟨by rw [follows.sequence]; omega, follows.versionOf_lt⟩

/-- The same decision but for its source hashes. -/
structure SameDecision (left right : UniverseDecision) : Prop
    extends SameRoles left right where
  sequence : left.decisionSequence = right.decisionSequence
  generation : left.coreGeneration = right.coreGeneration
  revision : left.candidateRevision = right.candidateRevision

theorem SameDecision.refl (decision : UniverseDecision) :
    SameDecision decision decision :=
  ⟨⟨rfl, rfl, rfl⟩, rfl, rfl, rfl⟩

theorem SameDecision.symm
    {left right : UniverseDecision} (same : SameDecision left right) :
    SameDecision right left where
  core := same.core.symm
  boundary := same.boundary.symm
  probe := same.probe.symm
  sequence := same.sequence.symm
  generation := same.generation.symm
  revision := same.revision.symm

theorem SameDecision.trans
    {first second third : UniverseDecision}
    (before : SameDecision first second) (after : SameDecision second third) :
    SameDecision first third where
  core := before.core.trans after.core
  boundary := before.boundary.trans after.boundary
  probe := before.probe.trans after.probe
  sequence := before.sequence.trans after.sequence
  generation := before.generation.trans after.generation
  revision := before.revision.trans after.revision

theorem Follows.of_same
    {left right next : UniverseDecision} (follows : Follows right next)
    (same : SameDecision left right) : Follows left next := by
  constructor
  · rw [same.sequence]
    exact follows.sequence
  · rw [same.core, same.generation]
    exact follows.coreChanged
  · rw [same.core, same.generation, same.revision]
    exact follows.coreKept

/-! ## The invariant and the writes which keep it -/

/-- The order of the decisions so far, and of the one which is planned. -/
structure DiskOrdered (disk : UniverseDisk) : Prop where
  consecutive : Consecutive disk.history
  fresh : disk.active = none → disk.history = [] ∧ disk.pending = none
  current : ∀ active, disk.active = some active →
    ∃ activation ∈ disk.history.getLast?,
      SameDecision activation.decision active
  pending : ∀ plan active, disk.pending = some plan →
    disk.active = some active →
      plan.decision.decisionSequence ≤ active.decisionSequence ∨
        Follows active plan.decision ∧ ¬ SameRoles active plan.decision

/-- A write which keeps the decisions in order. -/
def Admissible (disk : UniverseDisk) : StoreWrite → Prop
  | .activate due => ∀ active, disk.active = some active →
      Follows active due.decision
  | .refresh decision => ∃ active, disk.active = some active ∧
      SameDecision active decision
  | .pending plan => ∃ active, disk.active = some active ∧
      Follows active plan.decision ∧ ¬ SameRoles active plan.decision
  | _ => True

/-- A write is a step which is always taken. -/
def writeStep (disk : UniverseDisk) (change : StoreWrite) :
    Option UniverseDisk :=
  some (disk.write change)

theorem runFrom_writeStep (disk : UniverseDisk) (writes : List StoreWrite) :
    runFrom writeStep disk writes = some (disk.writeAll writes) := by
  induction writes generalizing disk with
  | nil => rfl
  | cons change rest induction => exact induction (disk.write change)

/-- Logs meet a condition which no log violates. -/
theorem stepsMeet_logs
    {condition : UniverseDisk → StoreWrite → Prop}
    (free : ∀ disk change, StoreWrite.IsLog change → condition disk change)
    {logs rest : List StoreWrite} (areLogs : ∀ change ∈ logs, change.IsLog)
    (disk : UniverseDisk)
    (meets : ∀ after, SameControl disk after →
      StepsMeet writeStep condition after rest) :
    StepsMeet writeStep condition disk (logs ++ rest) := by
  induction logs generalizing disk with
  | nil => exact meets disk ⟨rfl, rfl, rfl, rfl, rfl⟩
  | cons change others induction =>
      have isLog := areLogs change List.mem_cons_self
      refine ⟨free disk change isLog, ?_⟩
      apply induction fun other inOthers =>
        areLogs other (List.mem_cons_of_mem _ inOthers)
      intro after same
      exact meets after ((isLog.sameControl disk).trans same)

/-- What every write keeps holds wherever a crash cuts the writes off. -/
theorem invariant_of_writes
    {condition : UniverseDisk → StoreWrite → Prop}
    {invariant : UniverseDisk → Prop}
    (preserved : ∀ disk change, invariant disk → condition disk change →
      invariant (disk.write change))
    {disk : UniverseDisk} {writes : List StoreWrite}
    (initially : invariant disk)
    (meets : StepsMeet writeStep condition disk writes) (count : Nat) :
    invariant (disk.writeAll (writes.take count)) := by
  rw [← List.take_append_drop count writes] at meets
  apply invariant_of_run _ initially meets.of_append.1
    (runFrom_writeStep disk (writes.take count))
  rintro before change after holds admitted ⟨⟩
  exact preserved before change holds admitted

theorem DiskOrdered.write
    {disk : UniverseDisk} {change : StoreWrite} (ordered : DiskOrdered disk)
    (admissible : Admissible disk change) : DiskOrdered (disk.write change) := by
  cases change with
  | activate due =>
      exact {
        consecutive := by
          apply ordered.consecutive.concat
          intro previous isLast
          cases isActive : disk.active with
          | none =>
              rw [(ordered.fresh isActive).1] at isLast
              cases isLast
          | some active =>
              rcases ordered.current active isActive with
                ⟨activation, last, same⟩
              cases Option.some.inj (last.symm.trans isLast)
              exact (admissible active isActive).of_same same
        fresh := by
          rintro ⟨⟩
        current := by
          rintro _ ⟨⟩
          exact ⟨due, List.getLast?_concat .., SameDecision.refl _⟩
        pending := by
          rintro plan _ isPending ⟨⟩
          apply Or.inl
          cases isActive : disk.active with
          | none =>
              have none := (ordered.fresh isActive).2
              exact absurd (none.symm.trans isPending) (by simp)
          | some active =>
              rw [(admissible active isActive).sequence]
              rcases ordered.pending plan active isPending isActive with
                overtaken | ⟨follows, _⟩
              · omega
              · rw [follows.sequence] }
  | refresh decision =>
      rcases admissible with ⟨active, isActive, same⟩
      exact {
        consecutive := ordered.consecutive
        fresh := by
          rintro ⟨⟩
        current := by
          rintro _ ⟨⟩
          rcases ordered.current active isActive with
            ⟨activation, last, earlier⟩
          exact ⟨activation, last, earlier.trans same⟩
        pending := by
          rintro plan _ isPending ⟨⟩
          rcases ordered.pending plan active isPending isActive with
            overtaken | ⟨follows, changed⟩
          · exact Or.inl (same.sequence ▸ overtaken)
          · refine Or.inr ⟨follows.of_same same.symm, fun kept => changed ?_⟩
            exact ⟨same.core.trans kept.core,
              same.boundary.trans kept.boundary,
              same.probe.trans kept.probe⟩ }
  | pending plan =>
      rcases admissible with ⟨active, isActive, follows, changed⟩
      exact {
        consecutive := ordered.consecutive
        fresh := fun noActive =>
          absurd (isActive.symm.trans noActive) (by simp)
        current := ordered.current
        pending := by
          rintro _ other ⟨⟩ isOther
          cases Option.some.inj (isActive.symm.trans isOther)
          exact Or.inr ⟨follows, changed⟩ }
  | removePending =>
      exact {
        consecutive := ordered.consecutive
        fresh := fun noActive => ⟨(ordered.fresh noActive).1, rfl⟩
        current := ordered.current
        pending := by
          rintro plan active ⟨⟩ }
  | observation | evaluation | archive | membership | removeOverride
  | rejectOverride =>
      exact ⟨ordered.consecutive, ordered.fresh, ordered.current,
        ordered.pending⟩

/-! ## What the store numbers -/

section Operations

variable {δ : Type} [DecimalArithmetic δ] {store : UniverseStore δ}

/-- A decision with the next number and version follows. -/
theorem follows_of_nextVersion
    {previous next : UniverseDecision}
    (sequence : next.decisionSequence = previous.decisionSequence + 1)
    (version : (next.coreGeneration, next.candidateRevision) =
      nextVersion previous next.core) : Follows previous next := by
  rw [nextVersion] at version
  constructor
  · exact sequence
  · split at version
    next changed => exact ⟨fun _ => Prod.mk.inj version, fun _ => changed⟩
    next kept =>
      rcases Prod.mk.inj version with ⟨generation, _⟩
      constructor
      · exact fun changed => absurd changed kept
      · rintro ⟨raised, _⟩
        omega
  · intro kept
    rw [if_neg (not_not.mpr kept)] at version
    exact Prod.mk.inj version

theorem follows_of_plannedDecision
    {result : SelectionResult} {now effectiveAt : Int}
    {decision : UniverseDecision}
    (planned : store.plannedDecision result now effectiveAt = .ok decision) :
    Follows store.active decision := by
  have built := UniverseDecision.validate_eq_ok_iff.mp planned
  apply follows_of_nextVersion
  · rw [built]
  · rw [built]

theorem decisionFromOverride_eq_ok
    {override : CandidateOverride} {decision : UniverseDecision}
    (accepted : store.decisionFromOverride override = .ok decision) :
    decision.toDecisionDraft = {
      coreGeneration := store.active.coreGeneration
      candidateRevision := store.active.candidateRevision + 1
      decisionSequence := store.active.decisionSequence + 1
      createdAt := override.createdAt
      effectiveAt := override.effectiveAt
      reason := .manualCandidateOverride
      core := store.active.core
      boundary := override.boundary
      probe := override.probe } := by
  simp only [UniverseStore.decisionFromOverride] at accepted
  split at accepted
  next => cases accepted
  next =>
    split at accepted
    next => cases accepted
    next =>
      split at accepted
      next => cases accepted
      next => exact UniverseDecision.validate_eq_ok_iff.mp accepted

theorem follows_of_override
    {override : CandidateOverride} {decision : UniverseDecision}
    (accepted : store.decisionFromOverride override = .ok decision) :
    Follows store.active decision := by
  have built := decisionFromOverride_eq_ok accepted
  apply follows_of_nextVersion
  · rw [built]
  · rw [nextVersion, if_neg (by rw [built]; exact not_not.mpr rfl), built]

/-- What is due is the pending decision or comes from an override file. -/
theorem selectDue_cases
    {disk : UniverseDisk} {now : Int} {due : Activation}
    (selected : store.selectDue disk now = some due) :
    store.IsDue now due.decision ∧
      (disk.pending = some due ∨
        ∃ file override, due.origin = .overridden file ∧
          disk.overrides.get? file = some (some override) ∧
          store.decisionFromOverride override = .ok due.decision) := by
  have candidate := mem_of_selectDue selected
  rw [UniverseStore.dueCandidates, List.mem_filter,
    decide_eq_true_eq] at candidate
  rcases candidate with ⟨candidate, isDue⟩
  refine ⟨isDue, ?_⟩
  rcases List.mem_append.mp candidate with planned | overridden
  · exact Or.inl (Option.mem_toList.mp planned)
  · rcases List.mem_filterMap.mp overridden with
      ⟨⟨file, content⟩, isEntry, read⟩
    rcases Option.map_eq_some_iff.mp read with ⟨decision, accepted, rfl⟩
    rcases Option.bind_eq_some_iff.mp accepted with ⟨override, rfl, built⟩
    exact Or.inr ⟨file, override, rfl,
      disk.overrides.mem_entries_iff.mp isEntry, eq_ok_of_toOption built⟩

theorem DiskOrdered.follows_of_selectDue
    {disk : UniverseDisk} {now : Int} {due : Activation}
    (ordered : DiskOrdered disk) (active : disk.active = some store.active)
    (selected : store.selectDue disk now = some due) :
    Follows store.active due.decision := by
  rcases selectDue_cases selected with
    ⟨⟨later, _⟩, isPending | ⟨file, override, _, _, accepted⟩⟩
  · rcases ordered.pending due store.active isPending active with
      overtaken | ⟨follows, _⟩
    · omega
    · exact follows
  · exact follows_of_override accepted

/-! ## Operations -/

theorem isLog_admissible
    (disk : UniverseDisk) (change : StoreWrite) (isLog : change.IsLog) :
    Admissible disk change := by
  cases change with
  | observation | evaluation | archive | removeOverride | rejectOverride =>
      trivial
  | activate | refresh | membership | pending | removePending => cases isLog

/-- Every write of an operation is admissible where it is made. -/
theorem effect_admissible
    {state : StoreState δ} (ordered : DiskOrdered state.disk)
    (active : ∀ store, state.store = some store →
      state.disk.active = some store.active)
    {operation : StoreOperation δ} {effect : Effect δ}
    (performed : state.effect operation = some effect) :
    StepsMeet writeStep Admissible state.disk effect.2 := by
  cases operation with
  | initializeStore policy now =>
      simp only [StoreState.effect, initializeStore] at performed
      split at performed
      next =>
        split at performed
        next => cases performed
        next =>
          cases performed
          trivial
      next noActive =>
        cases performed
        refine ⟨fun other isOther => ?_, trivial, trivial, trivial⟩
        exact absurd (noActive.symm.trans isOther) (by simp)
  | observeAndPlan snapshot now =>
      rcases Option.map_eq_some_iff.mp performed with ⟨store, stored, rfl⟩
      have isActive := active store stored
      simp only [UniverseStore.observeAndPlan]
      split
      next =>
        split
        next => exact ⟨trivial, trivial⟩
        next =>
          refine ⟨trivial, ⟨store.active, isActive, ?_⟩, trivial, trivial,
            trivial⟩
          exact ⟨⟨rfl, rfl, rfl⟩, rfl, rfl, rfl⟩
      next =>
        split
        next => exact ⟨trivial, trivial⟩
        next result _ =>
          split
          next => exact ⟨trivial, trivial⟩
          next =>
            split
            next => exact ⟨trivial, trivial, trivial, trivial⟩
            next changed =>
              split
              next => exact ⟨trivial, trivial, trivial⟩
              next decision planned =>
                have built := UniverseDecision.validate_eq_ok_iff.mp planned
                refine ⟨trivial, trivial, ⟨store.active, isActive,
                  follows_of_plannedDecision planned, fun kept => ?_⟩,
                  trivial⟩
                apply changed
                refine ⟨?_, ?_, ?_⟩
                · rw [kept.core, built]
                · rw [kept.boundary, built]
                · rw [kept.probe, built]
  | hasDue now =>
      rcases Option.map_eq_some_iff.mp performed with ⟨store, _, rfl⟩
      rw [← List.append_nil (store.rejections state.disk)]
      exact stepsMeet_logs isLog_admissible
        (rejections_are_logs store state.disk) state.disk
        fun _ _ => trivial
  | applyDue now =>
      rcases Option.map_eq_some_iff.mp performed with ⟨store, stored, rfl⟩
      have isActive := active store stored
      simp only [UniverseStore.applyDue]
      split
      next =>
        rw [← List.append_nil (store.rejections state.disk)]
        exact stepsMeet_logs isLog_admissible
          (rejections_are_logs store state.disk) state.disk
          fun _ _ => trivial
      next due selected =>
        rw [List.append_assoc]
        apply stepsMeet_logs isLog_admissible
          (rejections_are_logs store state.disk)
        intro after same
        refine ⟨fun other isOther => ?_, trivial, trivial, ?_, trivial,
          trivial⟩
        · rw [same.active, isActive] at isOther
          cases isOther
          exact ordered.follows_of_selectDue isActive selected
        · cases due.origin <;> trivial

/-- The active decision of the store is the one on disk after an operation. -/
theorem effect_active
    {state : StoreState δ}
    (active : ∀ store, state.store = some store →
      state.disk.active = some store.active)
    {operation : StoreOperation δ} {effect : Effect δ}
    (performed : state.effect operation = some effect) :
    (state.disk.writeAll effect.2).active = some effect.1.active := by
  cases operation with
  | initializeStore policy now =>
      simp only [StoreState.effect, initializeStore] at performed
      split at performed
      next isActive =>
        split at performed
        next => cases performed
        next =>
          cases performed
          exact isActive
      next =>
        cases performed
        rfl
  | observeAndPlan snapshot now =>
      rcases Option.map_eq_some_iff.mp performed with ⟨store, stored, rfl⟩
      have isActive := active store stored
      simp only [UniverseStore.observeAndPlan]
      split
      next =>
        split
        next => exact isActive
        next => rfl
      next =>
        split
        next => exact isActive
        next =>
          split
          next => exact isActive
          next =>
            split
            next => exact isActive
            next => split <;> exact isActive
  | hasDue now =>
      rcases Option.map_eq_some_iff.mp performed with ⟨store, stored, rfl⟩
      have rejected := sameControl_writeAll
        (rejections_are_logs store state.disk) state.disk
      exact rejected.active.trans (active store stored)
  | applyDue now =>
      rcases Option.map_eq_some_iff.mp performed with ⟨store, stored, rfl⟩
      have rejected := sameControl_writeAll
        (rejections_are_logs store state.disk) state.disk
      simp only [UniverseStore.applyDue]
      split
      next => exact rejected.active.trans (active store stored)
      next due selected =>
        rw [List.append_assoc, writeAll_append]
        rcases writeAll_activation
            (state.disk.writeAll (store.rejections state.disk)) due
            ⟨(store.activated due.decision).memberSince,
              (store.activated due.decision).coreSince⟩ with
          ⟨after, written, isActive, _⟩
        rw [written]
        exact isActive

/-! ## Runs -/

/-- The files are in order, and the store holds the active decision. -/
structure StoreState.Ordered (state : StoreState δ) : Prop where
  disk : DiskOrdered state.disk
  active : ∀ store, state.store = some store →
    state.disk.active = some store.active

theorem StoreState.Ordered.step
    {before after : StoreState δ} {label : StoreLabel δ}
    (ordered : before.Ordered) (stepped : storeStep before label = some after) :
    after.Ordered := by
  cases label with
  | perform operation =>
      rcases Option.map_eq_some_iff.mp stepped with ⟨effect, performed, rfl⟩
      constructor
      · have whole := invariant_of_writes (fun _ _ => DiskOrdered.write)
          ordered.disk (effect_admissible ordered.disk ordered.active performed)
          effect.2.length
        rw [List.take_length] at whole
        exact whole
      · rintro _ ⟨⟩
        exact effect_active ordered.active performed
  | crash operation count =>
      rcases Option.map_eq_some_iff.mp stepped with ⟨effect, performed, rfl⟩
      constructor
      · exact invariant_of_writes (fun _ _ => DiskOrdered.write)
          ordered.disk (effect_admissible ordered.disk ordered.active performed)
          count
      · rintro _ ⟨⟩
  | placeOverride file content =>
      cases stepped
      exact ⟨⟨ordered.disk.consecutive, ordered.disk.fresh,
        ordered.disk.current, ordered.disk.pending⟩, ordered.active⟩
  | startFormally =>
      cases stepped
      exact ⟨⟨ordered.disk.consecutive, ordered.disk.fresh,
        ordered.disk.current, ordered.disk.pending⟩, ordered.active⟩

theorem ordered_emptyStore : (emptyStore δ).Ordered where
  disk := {
    consecutive := by
      intro earlier previous next later split
      cases earlier <;> cases split
    fresh := fun _ => ⟨rfl, rfl⟩
    current := by
      rintro active ⟨⟩
    pending := by
      rintro plan active ⟨⟩ }
  active := by
    rintro store ⟨⟩

/-- The decisions which `active.json` has held are totally ordered. -/
structure TotallyOrdered (disk : UniverseDisk) : Prop where
  consecutive : Consecutive disk.history
  rising : disk.history.Pairwise fun left right =>
    left.decision.decisionSequence < right.decision.decisionSequence ∧
      versionOf left.decision < versionOf right.decision
  unshared : ∀ left ∈ disk.history, ∀ right ∈ disk.history,
    left.decision.decisionSequence = right.decision.decisionSequence ∨
      versionOf left.decision = versionOf right.decision →
        SameDecision left.decision right.decision
  current : ∀ active, disk.active = some active →
    ∃ activation ∈ disk.history.getLast?,
      SameDecision activation.decision active

theorem DiskOrdered.totallyOrdered
    {disk : UniverseDisk} (ordered : DiskOrdered disk) :
    TotallyOrdered disk where
  consecutive := ordered.consecutive
  rising := ordered.consecutive.rising
  unshared := by
    have symmetric : Std.Symm fun left right : Activation =>
        left.decision.decisionSequence = right.decision.decisionSequence ∨
          versionOf left.decision = versionOf right.decision →
            SameDecision left.decision right.decision :=
      ⟨fun _ _ same shared => (same (shared.imp Eq.symm Eq.symm)).symm⟩
    have apart : disk.history.Pairwise fun left right =>
        left.decision.decisionSequence = right.decision.decisionSequence ∨
          versionOf left.decision = versionOf right.decision →
            SameDecision left.decision right.decision := by
      apply ordered.consecutive.rising.imp
      rintro left right ⟨sequence, version⟩ (same | same)
      · exact absurd same sequence.ne
      · exact absurd same version.ne
    intro left inLeft right inRight
    exact apart.forall_of_forall (fun _ _ _ => SameDecision.refl _)
      inLeft inRight
  current := ordered.current

/--
In every run of the store, with crashes between any two writes, the decisions
which become active are consecutively numbered, a core change starts the next
generation and any other change the next revision, and no two memberships share
a sequence number or a version.
-/
theorem version_history_ordered
    {labels : List (StoreLabel δ)} {final : StoreState δ}
    (reached : runFrom storeStep (emptyStore δ) labels = some final) :
    TotallyOrdered final.disk := by
  have ordered : final.Ordered :=
    invariant_of_run
      (fun _ _ _ before _ stepped => before.step stepped)
      ordered_emptyStore (stepsMeet_true _ labels) reached
  exact ordered.disk.totallyOrdered

end Operations

/-! ## An applied override -/

theorem version_history_ordered_override :
    TotallyOrdered ((runFrom storeStep (emptyStore ℚ) sampleRun).get
      sampleRun_completes).disk :=
  version_history_ordered (Option.some_get sampleRun_completes).symm

end ShadowDataPlane.Edge
