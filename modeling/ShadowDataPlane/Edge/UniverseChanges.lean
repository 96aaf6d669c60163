import ShadowDataPlane.Edge.UniverseRestore

/-!
# Every applied decision changes a role

A planned decision is only written when it changes a role.  An override file is
not asked whether it does, and it is removed only after its decision became
active: a process which dies in between finds the file again, renumbers it
against the new active decision and applies it a second time.

`spent` lists the files whose decision became active, as long as the operator
does not place another file of that name.
-/

namespace ShadowDataPlane.Edge

open ShadowDataPlane.Contracts
open ShadowDataPlane.Foundation
open ShadowDataPlane.Central

/-- The override file a decision came from. -/
def overrideFile : DecisionOrigin → Option String
  | .overridden file => some file
  | _ => none

/-- The override files whose decisions became active between two states. -/
def appliedFiles (before after : UniverseDisk) : List String :=
  (after.history.drop before.history.length).filterMap
    fun activation => overrideFile activation.origin

section Changes

variable {δ : Type} [DecimalArithmetic δ]

/-- A run of the store with the override files which took effect. -/
structure AuditedState (δ : Type) [DecimalArithmetic δ] where
  state : StoreState δ
  spent : List String
  /-- Whether some file took effect a second time. -/
  repeated : Bool

/-- The files which took effect and were not placed again. -/
def stillSpent (spent : List String) : StoreLabel δ → List String
  | .placeOverride file _ => spent.filter fun other => other ≠ file
  | _ => spent

/-- The audit after a step which leads to a state. -/
def AuditedState.next (audited : AuditedState δ) (label : StoreLabel δ)
    (after : StoreState δ) : AuditedState δ where
  state := after
  spent := appliedFiles audited.state.disk after.disk ++
    stillSpent audited.spent label
  repeated := audited.repeated ||
    (appliedFiles audited.state.disk after.disk).any fun file =>
      file ∈ stillSpent audited.spent label

def auditStep (audited : AuditedState δ) (label : StoreLabel δ) :
    Option (AuditedState δ) :=
  (storeStep audited.state label).map (audited.next label)

def emptyAudit (δ : Type) [DecimalArithmetic δ] : AuditedState δ where
  state := emptyStore δ
  spent := []
  repeated := false

/-- Each decision changes a role of the one before it. -/
def RolesChange (history : List Activation) : Prop :=
  ∀ earlier previous next later,
    history = earlier ++ previous :: next :: later →
      ¬ SameRoles previous.decision next.decision

/-- Every applied decision changed a role, and no file was applied twice. -/
structure ChangesOnce (audited : AuditedState δ) : Prop where
  changing : RolesChange audited.state.disk.history
  once : audited.repeated = false

/-! ## The condition -/

/-- The override file which is due, if one is, asks for other roles. -/
def AsksForChange (store : UniverseStore δ) (disk : UniverseDisk)
    (due : Activation) : Prop :=
  ∀ file ∈ overrideFile due.origin,
    ∀ override ∈ (disk.overrides.get? file).join,
      override.boundary ≠ store.active.boundary ∨
        override.probe ≠ store.active.probe

instance (store : UniverseStore δ) (disk : UniverseDisk) (due : Activation) :
    Decidable (AsksForChange store disk due) :=
  inferInstanceAs (Decidable (∀ file ∈ overrideFile due.origin,
    ∀ override ∈ (disk.overrides.get? file).join, _ ∨ _))

/--
A due override file asks for other roles, and the process does not die after its
decision became active and before the file is removed.
-/
def Novel (audited : AuditedState δ) : StoreLabel δ → Prop
  | .perform (.applyDue now) =>
      ∀ store ∈ audited.state.store,
        ∀ due ∈ store.selectDue audited.state.disk now,
          AsksForChange store audited.state.disk due
  | .crash (.applyDue now) count =>
      ∀ store ∈ audited.state.store,
        ∀ due ∈ store.selectDue audited.state.disk now,
          count ≤ (store.rejections audited.state.disk).length ∨
            AsksForChange store audited.state.disk due ∧
              (overrideFile due.origin = none ∨
                (store.rejections audited.state.disk).length + 4 ≤ count)
  | _ => True

instance decidableNovel (audited : AuditedState δ) :
    (label : StoreLabel δ) → Decidable (Novel audited label)
  | .perform (.applyDue now) =>
      inferInstanceAs (Decidable (∀ store ∈ audited.state.store,
        ∀ due ∈ store.selectDue audited.state.disk now,
          AsksForChange store audited.state.disk due))
  | .crash (.applyDue now) count =>
      inferInstanceAs (Decidable (∀ store ∈ audited.state.store,
        ∀ due ∈ store.selectDue audited.state.disk now,
          count ≤ (store.rejections audited.state.disk).length ∨
            AsksForChange store audited.state.disk due ∧
              (overrideFile due.origin = none ∨
                (store.rejections audited.state.disk).length + 4 ≤ count)))
  | .perform (.initializeStore _ _) | .perform (.observeAndPlan _ _)
  | .perform (.hasDue _) | .crash (.initializeStore _ _) _
  | .crash (.observeAndPlan _ _) _ | .crash (.hasDue _) _
  | .placeOverride _ _ | .startFormally => inferInstanceAs (Decidable True)

/-! ## What is due changes a role -/

theorem DiskOrdered.changes_of_selectDue
    {store : UniverseStore δ} {disk : UniverseDisk} {now : Int}
    {due : Activation} (ordered : DiskOrdered disk)
    (active : disk.active = some store.active)
    (selected : store.selectDue disk now = some due)
    (asks : AsksForChange store disk due) :
    ¬ SameRoles store.active due.decision := by
  rcases selectDue_cases selected with
    ⟨⟨later, _⟩, isPending | ⟨file, override, isOrigin, isFile, accepted⟩⟩
  · rcases ordered.pending due store.active isPending active with
      overtaken | ⟨_, changed⟩
    · omega
    · exact changed
  · intro same
    have built := decisionFromOverride_eq_ok accepted
    have differs := asks file (by rw [isOrigin]; rfl) override
      (by rw [isFile]; rfl)
    rcases differs with boundary | probe
    · apply boundary
      rw [same.boundary, built]
    · apply probe
      rw [same.probe, built]

/-- A pending decision does not come from an override file. -/
def PlannedOnly (disk : UniverseDisk) : Prop :=
  ∀ plan ∈ disk.pending, overrideFile plan.origin = none

/-- The file of a due override exists. -/
theorem present_of_selectDue
    {store : UniverseStore δ} {disk : UniverseDisk} {now : Int}
    {due : Activation} (planned : PlannedOnly disk)
    (selected : store.selectDue disk now = some due) :
    ∀ file ∈ overrideFile due.origin, disk.overrides.get? file ≠ none := by
  intro file isFile
  rcases selectDue_cases selected with
    ⟨_, isPending | ⟨other, override, isOrigin, present, _⟩⟩
  · rw [planned due isPending] at isFile
    cases isFile
  · rw [isOrigin] at isFile
    cases isFile
    rw [present]
    simp

/-! ## What writes leave -/

/-- No operation brings an override file back. -/
theorem absent_writeAll
    {disk : UniverseDisk} {file : String}
    (absent : disk.overrides.get? file = none) (writes : List StoreWrite) :
    (disk.writeAll writes).overrides.get? file = none := by
  unfold UniverseDisk.writeAll
  induction writes generalizing disk with
  | nil => exact absent
  | cons change rest induction =>
      apply induction
      cases change with
      | removeOverride other | rejectOverride other =>
          simp only [UniverseDisk.write, Dict.get?_erase]
          split
          next => rfl
          next => exact absent
      | observation | evaluation | activate | refresh | archive | membership
      | pending | removePending => exact absent

/-- The file of an applied override is removed with the fourth write. -/
theorem absent_of_activation
    (disk : UniverseDisk) {due : Activation} {file : String}
    (isFile : file ∈ overrideFile due.origin) (state : MembershipState)
    {count : Nat} (removed : 4 ≤ count) :
    (disk.writeAll ((activationWrites due state).take count)).overrides.get?
      file = none := by
  rcases due with ⟨decision, _ | _ | other⟩
  · cases isFile
  · cases isFile
  · cases isFile
    rcases Nat.exists_eq_add_of_le' removed with ⟨more, rfl⟩
    have split : (activationWrites ⟨decision, .overridden file⟩ state).take
          (more + 4) =
        (activationWrites ⟨decision, .overridden file⟩ state).take 4 ++
          [StoreWrite.removePending].take more := rfl
    rw [split, writeAll_append]
    apply absent_writeAll
    change (disk.overrides.erase file).get? file = none
    rw [Dict.get?_erase, if_pos rfl]

theorem history_of_keepsJoins
    {disk : UniverseDisk} {writes : List StoreWrite}
    (keeps : StepsMeet writeStep KeepsJoins disk writes) :
    (disk.writeAll writes).history = disk.history := by
  induction writes generalizing disk with
  | nil => rfl
  | cons change rest induction =>
      apply (induction keeps.2).trans
      have keep := keeps.1
      cases change with
      | activate | membership => cases keep
      | observation | evaluation | archive | refresh | pending | removePending
      | removeOverride | rejectOverride => rfl

theorem PlannedOnly.writeAll
    {disk : UniverseDisk} {writes : List StoreWrite}
    (planned : PlannedOnly disk)
    (plans : ∀ plan, StoreWrite.pending plan ∈ writes →
      overrideFile plan.origin = none) : PlannedOnly (disk.writeAll writes) := by
  unfold UniverseDisk.writeAll
  induction writes generalizing disk with
  | nil => exact planned
  | cons change rest induction =>
      apply induction
      · cases change with
        | pending plan =>
            rintro _ ⟨⟩
            exact plans plan List.mem_cons_self
        | removePending => rintro plan ⟨⟩
        | observation | evaluation | activate | refresh | archive | membership
        | removeOverride | rejectOverride => exact planned
      · intro plan inRest
        exact plans plan (List.mem_cons_of_mem _ inRest)

theorem plans_of_keepsJoins
    {disk : UniverseDisk} {writes : List StoreWrite}
    (keeps : StepsMeet writeStep KeepsJoins disk writes) {plan : Activation}
    (written : StoreWrite.pending plan ∈ writes) :
    overrideFile plan.origin = none := by
  induction writes generalizing disk with
  | nil => cases written
  | cons change rest induction =>
      rcases List.mem_cons.mp written with rfl | inRest
      · rcases keeps.1 with ⟨evidence, isOrigin⟩
        rw [isOrigin]
        rfl
      · exact induction keeps.2 inRest

/-- No operation plans what an override file asks for. -/
theorem EffectShape.plans
    {state : StoreState δ} {operation : StoreOperation δ} {effect : Effect δ}
    (shape : EffectShape state operation effect) (plan : Activation)
    (written : StoreWrite.pending plan ∈ effect.2) :
    overrideFile plan.origin = none := by
  cases shape with
  | quiet keeps _ => exact plans_of_keepsJoins keeps written
  | bootstrapped => simp [writeActive] at written
  | @applied store due now stored selected =>
      rcases List.mem_append.mp written with rejected | activated
      · exact (rejections_are_logs store state.disk _ rejected).elim
      · rcases due with ⟨decision, _ | _ | _⟩ <;>
          simp [activationWrites, writeActive, UniverseStore.removeSource]
            at activated

/-! ## The invariant -/

/-- The files are in order, and no file which took effect is still there. -/
structure AuditedState.Sound (audited : AuditedState δ) : Prop where
  ordered : audited.state.Ordered
  planned : PlannedOnly audited.state.disk
  changes : ChangesOnce audited
  absent : ∀ file ∈ audited.spent,
    audited.state.disk.overrides.get? file = none

namespace AuditedState.Sound

variable {audited : AuditedState δ} {after : StoreState δ}
  {label : StoreLabel δ}

/-- No decision became active. -/
theorem keep
    (sound : audited.Sound) (ordered : after.Ordered)
    (planned : PlannedOnly after.disk)
    (history : after.disk.history = audited.state.disk.history)
    (absent : ∀ file ∈ stillSpent audited.spent label,
      after.disk.overrides.get? file = none) :
    (audited.next label after).Sound := by
  have none : appliedFiles audited.state.disk after.disk = [] := by
    rw [appliedFiles, history, List.drop_length]
    rfl
  constructor
  · exact ordered
  · exact planned
  · constructor
    · change RolesChange after.disk.history
      rw [history]
      exact sound.changes.changing
    · rw [AuditedState.next, none, sound.changes.once]
      rfl
  · intro file isSpent
    rw [AuditedState.next, none] at isSpent
    exact absent file isSpent

/-- A decision became active which changes a role. -/
theorem apply
    (sound : audited.Sound) (ordered : after.Ordered)
    (planned : PlannedOnly after.disk) {due : Activation}
    (history : after.disk.history = audited.state.disk.history ++ [due])
    (changes : ∀ active, audited.state.disk.active = some active →
      ¬ SameRoles active due.decision)
    (present : ∀ file ∈ overrideFile due.origin,
      audited.state.disk.overrides.get? file ≠ none)
    (removed : ∀ file ∈ overrideFile due.origin,
      after.disk.overrides.get? file = none)
    (absent : ∀ file ∈ stillSpent audited.spent label,
      after.disk.overrides.get? file = none)
    (earlier : ∀ file ∈ stillSpent audited.spent label,
      audited.state.disk.overrides.get? file = none) :
    (audited.next label after).Sound := by
  have applied : appliedFiles audited.state.disk after.disk =
      (overrideFile due.origin).toList := by
    rw [appliedFiles, history, List.drop_left]
    cases isFile : overrideFile due.origin with
    | none => simp [isFile]
    | some file => simp [isFile]
  have unspent : ∀ file ∈ overrideFile due.origin,
      file ∉ stillSpent audited.spent label :=
    fun file isFile isSpent => present file isFile (earlier file isSpent)
  constructor
  · exact ordered
  · exact planned
  · constructor
    · change RolesChange after.disk.history
      rw [history]
      apply forall_adjacent_concat sound.changes.changing
      intro before previous split same
      cases isActive : audited.state.disk.active with
      | none =>
          rw [(sound.ordered.disk.fresh isActive).1] at split
          cases before <;> cases split
      | some active =>
          rcases sound.ordered.disk.current active isActive with
            ⟨activation, last, sameDecision⟩
          rw [split, List.getLast?_concat] at last
          cases last
          apply changes active isActive
          exact ⟨sameDecision.core.symm.trans same.core,
            sameDecision.boundary.symm.trans same.boundary,
            sameDecision.probe.symm.trans same.probe⟩
    · rw [AuditedState.next, applied, sound.changes.once, Bool.false_or,
        List.any_eq_false]
      intro file isFile
      rw [decide_eq_true_eq]
      exact unspent file (Option.mem_toList.mp isFile)
  · intro file isSpent
    rw [AuditedState.next, applied] at isSpent
    rcases List.mem_append.mp isSpent with isFile | isSpent
    · exact removed file (Option.mem_toList.mp isFile)
    · exact absent file isSpent

/-- What an operation which ends or is cut off leaves. -/
theorem cut
    (sound : audited.Sound) {operation : StoreOperation δ} {effect : Effect δ}
    (shape : EffectShape audited.state operation effect) {count : Nat}
    (novel : Novel audited (.crash operation count))
    (written : after.disk =
      audited.state.disk.writeAll (effect.2.take count))
    (ordered : after.Ordered)
    (spent : stillSpent audited.spent label = audited.spent) :
    (audited.next label after).Sound := by
  have absent : ∀ file ∈ stillSpent audited.spent label,
      after.disk.overrides.get? file = none := by
    intro file isSpent
    rw [spent] at isSpent
    rw [written]
    exact absent_writeAll (sound.absent file isSpent) _
  have earlier : ∀ file ∈ stillSpent audited.spent label,
      audited.state.disk.overrides.get? file = none := by
    rw [spent]
    exact sound.absent
  have planned : PlannedOnly after.disk := by
    rw [written]
    exact sound.planned.writeAll fun plan inTaken =>
      shape.plans plan (List.mem_of_mem_take inTaken)
  have keeps (writes : List StoreWrite)
      (keep : StepsMeet writeStep KeepsJoins audited.state.disk writes)
      (same : after.disk = audited.state.disk.writeAll (writes.take count)) :
      (audited.next label after).Sound := by
    rw [← List.take_append_drop count writes] at keep
    apply sound.keep ordered planned _ absent
    rw [same]
    exact history_of_keepsJoins keep.of_append.1
  cases shape with
  | quiet writes _ => exact keeps _ writes written
  | @bootstrapped policy now noActive =>
      rcases Nat.eq_zero_or_pos count with rfl | begun
      · exact keeps [] trivial (by rw [written]; rfl)
      · have history : after.disk.history = audited.state.disk.history ++
            [⟨bootstrapDecision policy now, .bootstrap⟩] := by
          rw [written]
          rcases lt_or_ge count 3 with cut | whole
          · interval_cases count <;> rfl
          · rw [List.take_of_length_le whole]
            rfl
        apply sound.apply ordered planned history
        · intro active isActive
          exact absurd (noActive.symm.trans isActive) (by simp)
        · rintro file ⟨⟩
        · rintro file ⟨⟩
        · exact absent
        · exact earlier
  | @applied store due now stored selected =>
      have isActive := sound.ordered.active store stored
      have rejected := sameControl_writeAll
        (rejections_are_logs store audited.state.disk) audited.state.disk
      rw [List.take_append] at written
      rcases le_or_gt count (store.rejections audited.state.disk).length with
        cut | further
      · rw [Nat.sub_eq_zero_of_le cut, List.take_zero, List.append_nil]
          at written
        exact keeps _ (rejections_keepJoins store audited.state.disk) written
      · rw [List.take_of_length_le further.le, writeAll_append] at written
        rcases novel store stored due selected with before | ⟨asks, removal⟩
        · omega
        have history :
            after.disk.history = audited.state.disk.history ++ [due] := by
          rcases writeAll_take_activation
              (audited.state.disk.writeAll
                (store.rejections audited.state.disk)) due
              ⟨(store.activated due.decision).memberSince,
                (store.activated due.decision).coreSince⟩
              (count - (store.rejections audited.state.disk).length) with
            ⟨final, isFinal, _, _, isHistory⟩
          rw [if_neg (by omega), rejected.history] at isHistory
          rw [written, isFinal, isHistory]
        apply sound.apply ordered planned history
        · intro active isOther
          cases Option.some.inj (isActive.symm.trans isOther)
          exact sound.ordered.disk.changes_of_selectDue isActive selected asks
        · exact present_of_selectDue sound.planned selected
        · intro file isFile
          rcases removal with none | whole
          · rw [none] at isFile
            cases isFile
          · rw [written]
            exact absent_of_activation _ isFile _ (by omega)
        · exact absent
        · exact earlier

end AuditedState.Sound

/-! ## Runs -/

/-- An operation which ends is like one which is cut off late. -/
theorem exists_novel
    {audited : AuditedState δ} {operation : StoreOperation δ}
    (novel : Novel audited (.perform operation)) (least : Nat) :
    ∃ count, least ≤ count ∧ Novel audited (.crash operation count) := by
  cases operation with
  | initializeStore | observeAndPlan | hasDue => exact ⟨least, le_rfl, trivial⟩
  | applyDue now =>
      cases stored : audited.state.store with
      | none =>
          refine ⟨least, le_rfl, ?_⟩
          intro store isStore
          rw [stored] at isStore
          cases isStore
      | some store =>
          refine ⟨least + (store.rejections audited.state.disk).length + 4,
            by omega, ?_⟩
          intro other isOther due selected
          cases Option.some.inj (stored.symm.trans isOther)
          exact Or.inr ⟨novel store stored due selected, Or.inr (by omega)⟩

theorem AuditedState.Sound.step
    {before after : AuditedState δ} {label : StoreLabel δ}
    (sound : before.Sound) (novel : Novel before label)
    (stepped : auditStep before label = some after) : after.Sound := by
  rcases Option.map_eq_some_iff.mp stepped with ⟨state, taken, rfl⟩
  have ordered := sound.ordered.step taken
  cases label with
  | perform operation =>
      rcases Option.map_eq_some_iff.mp taken with ⟨effect, performed, rfl⟩
      rcases exists_novel novel effect.2.length with ⟨count, whole, cut⟩
      apply sound.cut (effectShape sound.ordered.active performed) cut _
        ordered rfl
      rw [List.take_of_length_le whole]
  | crash operation count =>
      rcases Option.map_eq_some_iff.mp taken with ⟨effect, performed, rfl⟩
      exact sound.cut (effectShape sound.ordered.active performed) novel rfl
        ordered rfl
  | placeOverride file content =>
      cases taken
      apply sound.keep ordered sound.planned rfl
      intro other isSpent
      rcases List.mem_filter.mp isSpent with ⟨wasSpent, differs⟩
      rw [Dict.get?_set, if_neg (of_decide_eq_true differs)]
      exact sound.absent other wasSpent
  | startFormally =>
      cases taken
      exact sound.keep ordered sound.planned rfl sound.absent

theorem sound_emptyAudit : (emptyAudit δ).Sound where
  ordered := ordered_emptyStore
  planned := by
    rintro plan ⟨⟩
  changes := by
    constructor
    · intro earlier previous next later split
      cases earlier <;> cases split
    · rfl
  absent := by
    rintro file ⟨⟩

/--
In every run in which due override files ask for other roles, and in which no
process dies between the activation of an override and the removal of its file,
every applied decision changes a role and no file takes effect twice.
-/
theorem applied_decisions_change
    {labels : List (StoreLabel δ)} {final : AuditedState δ}
    (novel : StepsMeet auditStep Novel (emptyAudit δ) labels)
    (reached : runFrom auditStep (emptyAudit δ) labels = some final) :
    ChangesOnce final := by
  have sound : final.Sound :=
    invariant_of_run (fun _ _ _ before novel stepped =>
      before.step novel stepped) sound_emptyAudit novel reached
  exact sound.changes

end Changes

/-! ## An override which is found again -/

/-- The process dies after `membership-state.json`, before the file is gone. -/
def reappliedRun : List (StoreLabel ℚ) :=
  [.perform (.initializeStore samplePolicy 0),
    .placeOverride "swap.override.json" (some sampleOverride),
    .crash (.applyDue (2 * usPerDay)) 3,
    .perform (.initializeStore samplePolicy (2 * usPerDay)),
    .perform (.applyDue (2 * usPerDay))]

theorem reappliedRun_completes :
    (runFrom auditStep (emptyAudit ℚ) reappliedRun).isSome := by
  decide +kernel

theorem not_changesOnce_reappliedRun :
    ¬ ChangesOnce ((runFrom auditStep (emptyAudit ℚ) reappliedRun).get
      reappliedRun_completes) := by
  intro changes
  have repeated : ((runFrom auditStep (emptyAudit ℚ) reappliedRun).get
      reappliedRun_completes).repeated = true := by
    decide +kernel
  rw [changes.once] at repeated
  cases repeated

theorem sampleRun_audited :
    (runFrom auditStep (emptyAudit ℚ) sampleRun).isSome := by
  decide +kernel

theorem applied_decisions_change_override :
    StepsMeet auditStep Novel (emptyAudit ℚ) sampleRun ∧
      ChangesOnce ((runFrom auditStep (emptyAudit ℚ) sampleRun).get
        sampleRun_audited) := by
  have novel : StepsMeet auditStep Novel (emptyAudit ℚ) sampleRun := by
    decide +kernel
  constructor
  · exact novel
  · exact applied_decisions_change novel
      (Option.some_get sampleRun_audited).symm

end ShadowDataPlane.Edge
