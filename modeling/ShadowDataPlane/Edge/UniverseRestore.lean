import Mathlib.Tactic.IntervalCases
import ShadowDataPlane.Edge.UniverseVersions

/-!
# What a restart finds of the universe

The active decision and the join times of its members are two files, written
one after the other.  A process which dies between the two writes leaves a
decision with the join times of the one before it, or, at the very first start,
with none at all.  Everywhere else what is restored agrees with the decisions
which became active so far.

A torn activation does no harm when the decision keeps the members and the core
as sets, for then the join times of the decision before it are still right.
-/

namespace ShadowDataPlane.Edge

open ShadowDataPlane.Contracts
open ShadowDataPlane.Foundation
open ShadowDataPlane.Central

section Restore

variable {δ : Type} [DecimalArithmetic δ]

/-! ## Consistent restarts -/

/-- A store whose join times are those of a history of decisions. -/
structure Consistent (history : List Activation) (store : UniverseStore δ) :
    Prop where
  memberDefined : ∀ symbol,
    (store.memberSince.get? symbol).isSome ↔ symbol ∈ store.active.members
  coreDefined : ∀ symbol,
    (store.coreSince.get? symbol).isSome ↔ symbol ∈ store.active.core
  memberSince : ∀ symbol,
    store.memberSince.get? symbol = memberJoined history symbol
  coreSince : ∀ symbol,
    store.coreSince.get? symbol = coreJoined history symbol

/-- Whenever a process starts, it comes up with a consistent store. -/
def Restorable (δ : Type) [DecimalArithmetic δ] (disk : UniverseDisk) : Prop :=
  ∀ (policy : UniversePolicyConfig δ) (now : Int),
    ∃ effect, initializeStore disk policy now = some effect ∧
      Consistent (disk.writeAll effect.2).history effect.1

theorem TracksJoins.consistent
    {history : List Activation} {store : UniverseStore δ}
    (tracks : TracksJoins history store.active
      ⟨store.memberSince, store.coreSince⟩) : Consistent history store where
  memberDefined symbol := by
    rw [← tracks.memberJoined_isSome_iff, ← tracks.memberSince]
  coreDefined symbol := by
    rw [← tracks.coreJoined_isSome_iff, ← tracks.coreSince]
  memberSince := tracks.memberSince
  coreSince := tracks.coreSince

/-- The files of a directory which can be restored. -/
structure DiskTracks (disk : UniverseDisk) : Prop where
  fresh : disk.active = none → disk.history = [] ∧ disk.membership = none
  saved : ∀ active, disk.active = some active →
    ∃ saved, disk.membership = some saved ∧
      TracksJoins disk.history active saved

/-- The join times of the bootstrap decision. -/
theorem tracksJoins_bootstrap
    (policy : UniversePolicyConfig δ) (now : Int) :
    TracksJoins [⟨bootstrapDecision policy now, .bootstrap⟩]
      (bootstrapDecision policy now)
      ⟨sinceInstant (bootstrapDecision policy now).members now,
        sinceInstant (bootstrapDecision policy now).core now⟩ where
  last := ⟨_, rfl, ⟨rfl, rfl, rfl⟩⟩
  memberSince symbol := get?_sinceInstant _ now symbol
  coreSince symbol := get?_sinceInstant _ now symbol

theorem DiskTracks.bootstrapped
    {disk : UniverseDisk} (tracks : DiskTracks disk)
    (noActive : disk.active = none) (policy : UniversePolicyConfig δ)
    (now : Int) :
    TracksJoins (disk.writeAll
        (writeActive ⟨bootstrapDecision policy now, .bootstrap⟩ ++
          [.membership {
            memberSince :=
              sinceInstant (bootstrapDecision policy now).members now
            coreSince :=
              sinceInstant (bootstrapDecision policy now).core now }])).history
      (bootstrapDecision policy now)
      ⟨sinceInstant (bootstrapDecision policy now).members now,
        sinceInstant (bootstrapDecision policy now).core now⟩ := by
  change TracksJoins (disk.history ++ _) _ _
  rw [(tracks.fresh noActive).1]
  exact tracksJoins_bootstrap policy now

theorem DiskTracks.restorable
    {disk : UniverseDisk} (tracks : DiskTracks disk) : Restorable δ disk := by
  intro policy now
  cases isActive : disk.active with
  | some active =>
      rcases tracks.saved active isActive with ⟨saved, isSaved, agrees⟩
      refine ⟨({
        policy
        active
        memberSince := saved.memberSince
        coreSince := saved.coreSince }, []), ?_, ?_⟩
      · simp only [initializeStore, isActive, isSaved]
      · exact agrees.consistent
  | none =>
      have bootstrapped := tracks.bootstrapped isActive policy now
      simp only [initializeStore, isActive]
      exact ⟨_, rfl, TracksJoins.consistent bootstrapped⟩

/-! ## Writes which keep the join times right -/

/--
A write which touches neither the members nor their join times; what it plans
comes from an observation.
-/
def KeepsJoins (disk : UniverseDisk) : StoreWrite → Prop
  | .refresh decision => ∃ active, disk.active = some active ∧
      SameRoles active decision
  | .pending plan => ∃ evidence, plan.origin = .planned evidence
  | .activate _ | .membership _ => False
  | _ => True

theorem TracksJoins.of_sameRoles
    {history : List Activation} {active other : UniverseDecision}
    {saved : MembershipState} (tracks : TracksJoins history active saved)
    (same : SameRoles active other) : TracksJoins history other saved where
  last := by
    rcases tracks.last with ⟨activation, last, roles⟩
    exact ⟨activation, last, roles.core.trans same.core,
      roles.boundary.trans same.boundary, roles.probe.trans same.probe⟩
  memberSince := tracks.memberSince
  coreSince := tracks.coreSince

theorem DiskTracks.quiet
    {disk : UniverseDisk} {change : StoreWrite} (tracks : DiskTracks disk)
    (keeps : KeepsJoins disk change) : DiskTracks (disk.write change) := by
  cases change with
  | refresh decision =>
      rcases keeps with ⟨active, isActive, same⟩
      constructor
      · rintro ⟨⟩
      · rintro _ ⟨⟩
        rcases tracks.saved active isActive with ⟨saved, isSaved, agrees⟩
        exact ⟨saved, isSaved, agrees.of_sameRoles same⟩
  | activate | membership => cases keeps
  | observation | evaluation | archive | pending | removePending
  | removeOverride | rejectOverride => exact ⟨tracks.fresh, tracks.saved⟩

theorem DiskTracks.congr
    {disk after : UniverseDisk} (tracks : DiskTracks disk)
    (active : after.active = disk.active)
    (membership : after.membership = disk.membership)
    (history : after.history = disk.history) : DiskTracks after := by
  constructor
  · rw [active, membership, history]
    exact tracks.fresh
  · rw [active, membership, history]
    exact tracks.saved

/-- The same members and the same core, in whatever order. -/
def SameMembers (left right : UniverseDecision) : Prop :=
  left.members.toFinset = right.members.toFinset ∧
    left.core.toFinset = right.core.toFinset

instance (left right : UniverseDecision) : Decidable (SameMembers left right) :=
  inferInstanceAs (Decidable (_ ∧ _))

/-- One more entry leaves the join times if no key joins or leaves. -/
theorem lastJoined_concat_of_iff
    {ε κ τ : Type} {contains : ε → κ → Prop}
    [∀ entry key, Decidable (contains entry key)] {time : ε → τ}
    {history : List ε} {entry : ε} {key : κ}
    (unchanged : (lastJoined contains time history key).isSome ↔
      contains entry key) :
    lastJoined contains time (history ++ [entry]) key =
      lastJoined contains time history key := by
  rw [lastJoined_concat]
  split
  next member =>
    rcases Option.isSome_iff_exists.mp (unchanged.mpr member) with
      ⟨joined, isJoined⟩
    rw [isJoined]
    rfl
  next absent =>
    rw [← unchanged, Option.not_isSome_iff_eq_none] at absent
    exact absent.symm

theorem TracksJoins.of_sameMembers
    {history : List Activation} {active : UniverseDecision}
    {saved : MembershipState} {due : Activation}
    (tracks : TracksJoins history active saved)
    (same : SameMembers active due.decision) :
    TracksJoins (history ++ [due]) due.decision saved where
  last := by
    rw [List.getLast?_concat]
    exact ⟨due, rfl, ⟨rfl, rfl, rfl⟩⟩
  memberSince symbol := by
    rw [tracks.memberSince, memberJoined, memberJoined]
    apply Eq.symm
    apply lastJoined_concat_of_iff
    rw [← memberJoined, tracks.memberJoined_isSome_iff, ← List.mem_toFinset,
      same.1, List.mem_toFinset]
  coreSince symbol := by
    rw [tracks.coreSince, coreJoined, coreJoined]
    apply Eq.symm
    apply lastJoined_concat_of_iff
    rw [← coreJoined, tracks.coreJoined_isSome_iff, ← List.mem_toFinset,
      same.2, List.mem_toFinset]

/-! ## An activation which is cut off -/

/-- The writes of `apply_due` after the rejected overrides. -/
def activationWrites (due : Activation) (state : MembershipState) :
    List StoreWrite :=
  writeActive due ++
    [.membership state, UniverseStore.removeSource due.origin, .removePending]

/-- What a crash leaves of an activation, by the number of its writes. -/
theorem writeAll_take_activation
    (disk : UniverseDisk) (due : Activation) (state : MembershipState)
    (count : Nat) :
    ∃ after, disk.writeAll ((activationWrites due state).take count) = after ∧
      after.active = (if count = 0 then disk.active else some due.decision) ∧
      after.membership = (if count < 3 then disk.membership else some state) ∧
      after.history =
        (if count = 0 then disk.history else disk.history ++ [due]) := by
  refine ⟨_, rfl, ?_⟩
  rcases lt_or_ge count 5 with cut | whole
  · rcases due with ⟨decision, _ | _ | _⟩ <;> interval_cases count <;>
      exact ⟨rfl, rfl, rfl⟩
  · rw [List.take_of_length_le whole, if_neg (by omega), if_neg (by omega),
      if_neg (by omega)]
    rcases due with ⟨decision, _ | _ | _⟩ <;> exact ⟨rfl, rfl, rfl⟩

/-- An activation which is not torn, or which changes no member. -/
theorem DiskTracks.activation
    {disk : UniverseDisk} {store : UniverseStore δ} (tracks : DiskTracks disk)
    (active : disk.active = some store.active)
    (membership : disk.membership =
      some ⟨store.memberSince, store.coreSince⟩)
    {due : Activation} {count : Nat}
    (untorn : count = 0 ∨ 3 ≤ count ∨ SameMembers store.active due.decision) :
    DiskTracks (disk.writeAll ((activationWrites due
      ⟨(store.activated due.decision).memberSince,
        (store.activated due.decision).coreSince⟩).take count)) := by
  rcases tracks.saved store.active active with ⟨saved, isSaved, agrees⟩
  cases Option.some.inj (membership.symm.trans isSaved)
  rcases writeAll_take_activation disk due
      ⟨(store.activated due.decision).memberSince,
        (store.activated due.decision).coreSince⟩ count with
    ⟨after, written, isActive, isMembership, isHistory⟩
  rw [written]
  by_cases nothing : count = 0
  · rw [if_pos nothing] at isActive isHistory
    rw [if_pos (by omega)] at isMembership
    exact tracks.congr isActive isMembership isHistory
  rw [if_neg nothing] at isActive isHistory
  constructor
  · intro noActive
    rw [isActive] at noActive
    cases noActive
  · intro other isOther
    cases Option.some.inj (isActive.symm.trans isOther)
    rw [isHistory, isMembership]
    split
    next torn =>
      rcases untorn with none | whole | same
      · exact absurd none nothing
      · omega
      · exact ⟨_, membership, agrees.of_sameMembers same⟩
    next => exact ⟨_, rfl, agrees.activate due⟩

/-! ## Operations -/

/-- What `_write_state` writes. -/
def joinTimes (store : UniverseStore δ) : MembershipState :=
  ⟨store.memberSince, store.coreSince⟩

/-- The files of a machine can be restored, and its store is what they say. -/
structure StoreState.Tracks (state : StoreState δ) : Prop where
  disk : DiskTracks state.disk
  active : ∀ store, state.store = some store →
    state.disk.active = some store.active
  membership : ∀ store, state.store = some store →
    state.disk.membership = some ⟨store.memberSince, store.coreSince⟩

/-- What an operation writes: no member, a bootstrap, or an activation. -/
inductive EffectShape (state : StoreState δ) :
    StoreOperation δ → Effect δ → Prop where
  | quiet {operation : StoreOperation δ} {effect : Effect δ}
      (writes : StepsMeet writeStep KeepsJoins state.disk effect.2)
      (joins : state.store.map joinTimes = some (joinTimes effect.1) ∨
        state.disk.membership = some (joinTimes effect.1)) :
      EffectShape state operation effect
  | bootstrapped {policy : UniversePolicyConfig δ} {now : Int}
      (noActive : state.disk.active = none) :
      EffectShape state (.initializeStore policy now) ({
          policy
          active := bootstrapDecision policy now
          memberSince :=
            sinceInstant (bootstrapDecision policy now).members now
          coreSince := sinceInstant (bootstrapDecision policy now).core now },
        writeActive ⟨bootstrapDecision policy now, .bootstrap⟩ ++
          [.membership {
            memberSince :=
              sinceInstant (bootstrapDecision policy now).members now
            coreSince :=
              sinceInstant (bootstrapDecision policy now).core now }])
  | applied {store : UniverseStore δ} {due : Activation} {now : Int}
      (stored : state.store = some store)
      (selected : store.selectDue state.disk now = some due) :
      EffectShape state (.applyDue now) (store.activated due.decision,
        store.rejections state.disk ++ activationWrites due
          ⟨(store.activated due.decision).memberSince,
            (store.activated due.decision).coreSince⟩)

theorem isLog_keepsJoins
    (disk : UniverseDisk) (change : StoreWrite) (isLog : change.IsLog) :
    KeepsJoins disk change := by
  cases change with
  | observation | evaluation | archive | removeOverride | rejectOverride =>
      trivial
  | activate | refresh | membership | pending | removePending => cases isLog

theorem rejections_keepJoins (store : UniverseStore δ) (disk : UniverseDisk) :
    StepsMeet writeStep KeepsJoins disk (store.rejections disk) := by
  rw [← List.append_nil (store.rejections disk)]
  exact stepsMeet_logs isLog_keepsJoins (rejections_are_logs store disk) disk
    fun _ _ => trivial

theorem effectShape
    {state : StoreState δ}
    (active : ∀ store, state.store = some store →
      state.disk.active = some store.active)
    {operation : StoreOperation δ} {effect : Effect δ}
    (performed : state.effect operation = some effect) :
    EffectShape state operation effect := by
  cases operation with
  | initializeStore policy now =>
      simp only [StoreState.effect, initializeStore] at performed
      split at performed
      next =>
        split at performed
        next => cases performed
        next saved isSaved =>
          cases performed
          exact EffectShape.quiet trivial (Or.inr isSaved)
      next noActive =>
        cases performed
        exact EffectShape.bootstrapped noActive
  | observeAndPlan snapshot now =>
      rcases Option.map_eq_some_iff.mp performed with ⟨store, stored, rfl⟩
      have isActive := active store stored
      have kept : state.store.map joinTimes = some (joinTimes store) := by
        rw [stored]
        rfl
      simp only [UniverseStore.observeAndPlan]
      split
      next =>
        split
        next => exact EffectShape.quiet ⟨trivial, trivial⟩ (Or.inl kept)
        next =>
          refine EffectShape.quiet ⟨trivial, ⟨store.active, isActive, ?_⟩,
            trivial, trivial, trivial⟩ (Or.inl kept)
          exact ⟨rfl, rfl, rfl⟩
      next =>
        split
        next => exact EffectShape.quiet ⟨trivial, trivial⟩ (Or.inl kept)
        next =>
          split
          next => exact EffectShape.quiet ⟨trivial, trivial⟩ (Or.inl kept)
          next =>
            split
            next =>
              exact EffectShape.quiet ⟨trivial, trivial, trivial, trivial⟩
                (Or.inl kept)
            next =>
              split
              next =>
                exact EffectShape.quiet ⟨trivial, trivial, trivial⟩
                  (Or.inl kept)
              next =>
                exact EffectShape.quiet
                  ⟨trivial, trivial, ⟨snapshot, rfl⟩, trivial⟩ (Or.inl kept)
  | hasDue now =>
      rcases Option.map_eq_some_iff.mp performed with ⟨store, stored, rfl⟩
      refine EffectShape.quiet (rejections_keepJoins store state.disk)
        (Or.inl ?_)
      rw [stored]
      rfl
  | applyDue now =>
      rcases Option.map_eq_some_iff.mp performed with ⟨store, stored, rfl⟩
      simp only [UniverseStore.applyDue]
      split
      next =>
        refine EffectShape.quiet (rejections_keepJoins store state.disk)
          (Or.inl ?_)
        rw [stored]
        rfl
      next due selected =>
        rw [List.append_assoc]
        exact EffectShape.applied stored selected

/--
The process does not die between the write of a decision and that of the join
times, unless the decision keeps the members and the core.
-/
def Untorn (state : StoreState δ) : StoreLabel δ → Prop
  | .crash (.initializeStore _ _) count =>
      state.disk.active = none → count = 0 ∨ 3 ≤ count
  | .crash (.applyDue now) count =>
      ∀ store ∈ state.store, ∀ due ∈ store.selectDue state.disk now,
        count ≤ (store.rejections state.disk).length ∨
          (store.rejections state.disk).length + 3 ≤ count ∨
          SameMembers store.active due.decision
  | _ => True

instance decidableUntorn (state : StoreState δ) :
    (label : StoreLabel δ) → Decidable (Untorn state label)
  | .crash (.initializeStore _ _) count =>
      have : Decidable (state.disk.active = none) :=
        decidable_of_iff _ Option.isNone_iff_eq_none
      inferInstanceAs (Decidable (_ → count = 0 ∨ 3 ≤ count))
  | .crash (.applyDue now) count =>
      inferInstanceAs (Decidable (∀ store ∈ state.store,
        ∀ due ∈ store.selectDue state.disk now,
          count ≤ (store.rejections state.disk).length ∨
            (store.rejections state.disk).length + 3 ≤ count ∨
            SameMembers store.active due.decision))
  | .perform _ | .crash (.observeAndPlan _ _) _ | .crash (.hasDue _) _
  | .placeOverride _ _ | .startFormally => inferInstanceAs (Decidable True)

/-- A crash after enough writes is not torn. -/
theorem exists_untorn
    (state : StoreState δ) (operation : StoreOperation δ) (least : Nat) :
    ∃ count, least ≤ count ∧ Untorn state (.crash operation count) := by
  cases operation with
  | initializeStore policy now =>
      exact ⟨least + 3, by omega, fun _ => Or.inr (by omega)⟩
  | observeAndPlan snapshot now => exact ⟨least, le_rfl, trivial⟩
  | hasDue now => exact ⟨least, le_rfl, trivial⟩
  | applyDue now =>
      cases stored : state.store with
      | none =>
          refine ⟨least, le_rfl, ?_⟩
          intro store isStore
          rw [stored] at isStore
          cases isStore
      | some store =>
          refine ⟨least + (store.rejections state.disk).length + 3,
            by omega, ?_⟩
          intro other isOther due selected
          cases Option.some.inj (stored.symm.trans isOther)
          exact Or.inr (Or.inl (by omega))

theorem EffectShape.diskTracks
    {state : StoreState δ} (tracks : state.Tracks)
    {operation : StoreOperation δ} {effect : Effect δ}
    (shape : EffectShape state operation effect) {count : Nat}
    (untorn : Untorn state (.crash operation count)) :
    DiskTracks (state.disk.writeAll (effect.2.take count)) := by
  cases shape with
  | quiet writes _ =>
      exact invariant_of_writes (fun _ _ => DiskTracks.quiet) tracks.disk writes
        count
  | @bootstrapped policy now noActive =>
      rcases untorn noActive with rfl | whole
      · exact tracks.disk
      · rw [List.take_of_length_le whole]
        have bootstrapped := tracks.disk.bootstrapped noActive policy now
        constructor
        · rintro ⟨⟩
        · rintro _ ⟨⟩
          exact ⟨_, rfl, bootstrapped⟩
  | @applied store due now stored selected =>
      have rejected := sameControl_writeAll
        (rejections_are_logs store state.disk) state.disk
      rw [List.take_append, writeAll_append]
      rcases le_or_gt count (store.rejections state.disk).length with
        cut | further
      · rw [Nat.sub_eq_zero_of_le cut, List.take_zero]
        exact invariant_of_writes (fun _ _ => DiskTracks.quiet) tracks.disk
          (rejections_keepJoins store state.disk) count
      · rw [List.take_of_length_le further.le]
        apply DiskTracks.activation
        · exact tracks.disk.congr rejected.active rejected.membership
            rejected.history
        · exact rejected.active.trans (tracks.active store stored)
        · exact rejected.membership.trans (tracks.membership store stored)
        · rcases untorn store stored due selected with before | after | same
          · omega
          · exact Or.inr (Or.inl (by omega))
          · exact Or.inr (Or.inr same)

/-- An operation which ends leaves files that can be restored. -/
theorem EffectShape.diskTracks_of_end
    {state : StoreState δ} (tracks : state.Tracks)
    {operation : StoreOperation δ} {effect : Effect δ}
    (shape : EffectShape state operation effect) :
    DiskTracks (state.disk.writeAll effect.2) := by
  rcases exists_untorn state operation effect.2.length with
    ⟨count, whole, untorn⟩
  rw [← List.take_of_length_le whole]
  exact shape.diskTracks tracks untorn

theorem KeepsJoins.membership
    {disk : UniverseDisk} {change : StoreWrite} (keeps : KeepsJoins disk change) :
    (disk.write change).membership = disk.membership := by
  cases change with
  | activate | membership => cases keeps
  | observation | evaluation | archive | refresh | pending | removePending
  | removeOverride | rejectOverride => rfl

theorem membership_of_keepsJoins
    {disk : UniverseDisk} {writes : List StoreWrite}
    (quiet : StepsMeet writeStep KeepsJoins disk writes) :
    (disk.writeAll writes).membership = disk.membership := by
  induction writes generalizing disk with
  | nil => rfl
  | cons change rest induction =>
      exact (induction quiet.2).trans quiet.1.membership

/-- The join times of the store are the ones on disk after an operation. -/
theorem EffectShape.membership
    {state : StoreState δ} (tracks : state.Tracks)
    {operation : StoreOperation δ} {effect : Effect δ}
    (shape : EffectShape state operation effect) :
    (state.disk.writeAll effect.2).membership =
      some ⟨effect.1.memberSince, effect.1.coreSince⟩ := by
  cases shape with
  | quiet writes joins =>
      rw [membership_of_keepsJoins writes]
      rcases joins with kept | saved
      · rcases Option.map_eq_some_iff.mp kept with ⟨store, stored, same⟩
        rw [← joinTimes, ← same]
        exact tracks.membership store stored
      · exact saved
  | bootstrapped => rfl
  | @applied store due now stored selected =>
      rw [writeAll_append]
      rcases writeAll_activation
          (state.disk.writeAll (store.rejections state.disk)) due
          ⟨(store.activated due.decision).memberSince,
            (store.activated due.decision).coreSince⟩ with
        ⟨after, written, _, isMembership, _⟩
      rw [activationWrites, written]
      exact isMembership

/-! ## Runs -/

theorem StoreState.Tracks.step
    {before after : StoreState δ} {label : StoreLabel δ}
    (tracks : before.Tracks) (untorn : Untorn before label)
    (stepped : storeStep before label = some after) : after.Tracks := by
  cases label with
  | perform operation =>
      rcases Option.map_eq_some_iff.mp stepped with ⟨effect, performed, rfl⟩
      have shape := effectShape tracks.active performed
      constructor
      · exact shape.diskTracks_of_end tracks
      · rintro _ ⟨⟩
        exact effect_active tracks.active performed
      · rintro _ ⟨⟩
        exact shape.membership tracks
  | crash operation count =>
      rcases Option.map_eq_some_iff.mp stepped with ⟨effect, performed, rfl⟩
      constructor
      · exact (effectShape tracks.active performed).diskTracks tracks untorn
      · rintro _ ⟨⟩
      · rintro _ ⟨⟩
  | placeOverride file content =>
      cases stepped
      exact ⟨⟨tracks.disk.fresh, tracks.disk.saved⟩, tracks.active,
        tracks.membership⟩
  | startFormally =>
      cases stepped
      exact ⟨⟨tracks.disk.fresh, tracks.disk.saved⟩, tracks.active,
        tracks.membership⟩

theorem tracks_emptyStore : (emptyStore δ).Tracks where
  disk := by
    constructor
    · intro _
      exact ⟨rfl, rfl⟩
    · rintro active ⟨⟩
  active := by
    rintro store ⟨⟩
  membership := by
    rintro store ⟨⟩

/-! ## Torn activations -/

/-- A decision without join times cannot be restored. -/
theorem not_restorable_of_noMembership
    {disk : UniverseDisk} {active : UniverseDecision}
    (isActive : disk.active = some active) (missing : disk.membership = none)
    (policy : UniversePolicyConfig δ) : ¬ Restorable δ disk := by
  intro restorable
  rcases restorable policy 0 with ⟨restored, started, _⟩
  simp only [initializeStore, isActive, missing] at started
  cases started

/-- A first start which is torn leaves a decision without join times. -/
theorem StoreState.Tracks.not_restorable_of_tornStart
    {state : StoreState δ} (tracks : state.Tracks)
    {policy : UniversePolicyConfig δ} {now : Int} {count : Nat}
    (noActive : state.disk.active = none) (begun : 0 < count)
    (cut : count < 3) {effect : Effect δ}
    (performed : initializeStore state.disk policy now = some effect) :
    ¬ Restorable δ (state.disk.writeAll (effect.2.take count)) := by
  have missing := (tracks.disk.fresh noActive).2
  simp only [initializeStore, noActive] at performed
  cases performed
  interval_cases count
  · exact not_restorable_of_noMembership rfl missing policy
  · exact not_restorable_of_noMembership rfl missing policy

/-- A torn activation restores only if it keeps the members and the core. -/
theorem StoreState.Tracks.sameMembers_of_restorable
    {state : StoreState δ} (tracks : state.Tracks)
    {store : UniverseStore δ} (stored : state.store = some store)
    {due : Activation} {membership : MembershipState} {count : Nat}
    (begun : (store.rejections state.disk).length < count)
    (cut : count < (store.rejections state.disk).length + 3)
    (restorable : Restorable δ (state.disk.writeAll
      ((store.rejections state.disk ++
        activationWrites due membership).take count))) :
    SameMembers store.active due.decision := by
  have rejected := sameControl_writeAll
    (rejections_are_logs store state.disk) state.disk
  rcases writeAll_take_activation
      (state.disk.writeAll (store.rejections state.disk)) due membership
      (count - (store.rejections state.disk).length) with
    ⟨after, written, isActive, isMembership, _⟩
  rw [if_neg (by omega)] at isActive
  rw [if_pos (by omega), rejected.membership,
    tracks.membership store stored] at isMembership
  rw [List.take_append, List.take_of_length_le begun.le, writeAll_append,
    written] at restorable
  rcases restorable store.policy 0 with ⟨restored, started, consistent⟩
  simp only [initializeStore, isActive, isMembership] at started
  cases started
  rcases tracks.disk.saved store.active (tracks.active store stored) with
    ⟨saved, isSaved, agrees⟩
  cases Option.some.inj ((tracks.membership store stored).symm.trans isSaved)
  constructor
  · ext symbol
    rw [List.mem_toFinset, List.mem_toFinset,
      ← consistent.memberDefined symbol, ← agrees.memberJoined_isSome_iff,
      ← agrees.memberSince]
  · ext symbol
    rw [List.mem_toFinset, List.mem_toFinset,
      ← consistent.coreDefined symbol, ← agrees.coreJoined_isSome_iff,
      ← agrees.coreSince]

theorem StoreState.Tracks.untorn_of_restorable
    {before after : StoreState δ} {label : StoreLabel δ}
    (tracks : before.Tracks) (stepped : storeStep before label = some after)
    (restorable : Restorable δ after.disk) : Untorn before label := by
  cases label with
  | perform | placeOverride | startFormally => trivial
  | crash operation count =>
      rcases Option.map_eq_some_iff.mp stepped with ⟨effect, performed, rfl⟩
      cases operation with
      | observeAndPlan | hasDue => trivial
      | initializeStore policy now =>
          intro noActive
          by_contra torn
          exact tracks.not_restorable_of_tornStart noActive (by omega)
            (by omega) performed restorable
      | applyDue now =>
          intro store stored due selected
          rcases Option.map_eq_some_iff.mp performed with
            ⟨other, isOther, rfl⟩
          cases Option.some.inj (stored.symm.trans isOther)
          have selected : store.selectDue before.disk now = some due := selected
          simp only [UniverseStore.applyDue, selected, List.append_assoc]
            at restorable
          by_contra torn
          push Not at torn
          exact torn.2.2 (tracks.sameMembers_of_restorable stored torn.1
            torn.2.1 restorable)

/--
A process which starts in any state of a run comes up with the join times of
the decisions so far, exactly if no activation of the run is torn.
-/
theorem restored_universe_consistent
    {labels : List (StoreLabel δ)} {final : StoreState δ}
    (reached : runFrom storeStep (emptyStore δ) labels = some final) :
    Throughout storeStep (fun state => Restorable δ state.disk) (emptyStore δ)
        labels ↔
      StepsMeet storeStep Untorn (emptyStore δ) labels :=
  throughout_iff_stepsMeet
    (fun _ _ _ before meets stepped => before.step meets stepped)
    (fun _ tracks => tracks.disk.restorable)
    (fun _ _ _ tracks stepped restorable =>
      tracks.untorn_of_restorable stepped restorable)
    tracks_emptyStore reached

end Restore

/-! ## A first start which is cut off -/

/-- The process dies between the bootstrap decision and its join times. -/
def tornStart : List (StoreLabel ℚ) :=
  [.crash (.initializeStore samplePolicy 0) 1]

theorem tornStart_completes :
    (runFrom storeStep (emptyStore ℚ) tornStart).isSome := by
  decide +kernel

theorem not_restorable_tornStart :
    ¬ Restorable ℚ ((runFrom storeStep (emptyStore ℚ) tornStart).get
      tornStart_completes).disk := by
  intro restorable
  rcases restorable samplePolicy 0 with ⟨effect, started, _⟩
  cases started

/-- A crash after the bootstrap and one before an override is applied. -/
def untornRun : List (StoreLabel ℚ) :=
  [.crash (.initializeStore samplePolicy 0) 3,
    .perform (.initializeStore samplePolicy 0),
    .placeOverride "swap.override.json" (some sampleOverride),
    .crash (.applyDue (2 * usPerDay)) 0,
    .perform (.initializeStore samplePolicy 1),
    .perform (.applyDue (2 * usPerDay))]

theorem untornRun_completes :
    (runFrom storeStep (emptyStore ℚ) untornRun).isSome := by
  decide +kernel

theorem restored_universe_consistent_untornRun :
    Throughout storeStep (fun state => Restorable ℚ state.disk) (emptyStore ℚ)
        untornRun ↔
      StepsMeet storeStep Untorn (emptyStore ℚ) untornRun :=
  restored_universe_consistent (Option.some_get untornRun_completes).symm

/-- A crash which does not tear an activation does no harm. -/
example : StepsMeet storeStep Untorn (emptyStore ℚ) untornRun := by
  decide +kernel

end ShadowDataPlane.Edge
