import ShadowDataPlane.Central.SelectionWellFormed
import ShadowDataPlane.Edge.UniverseStore

/-!
# Minimum dwell over whole runs

A symbol leaves the universe by an applied decision only when the evidence of
that decision shows it as inactive or when it stayed long enough: as a member
if it left from a candidate role, as a core member if it left from the core.
The join times of a run are read off its decisions with `lastJoined`; that the
store keeps the same times in its two dictionaries is part of the invariant.
-/

namespace ShadowDataPlane.Edge

open ShadowDataPlane.Contracts
open ShadowDataPlane.Foundation
open ShadowDataPlane.Central

/-- The evidence of a decision shows that a symbol is not eligible. -/
def Activation.ShowsInactive (activation : Activation) (symbol : String) :
    Prop :=
  match activation.origin with
  | .planned evidence => ¬ DoublyEligible evidence symbol
  | _ => False

/-- The effective time of the decision by which a symbol joined. -/
def memberJoined (history : List Activation) (symbol : String) : Option Int :=
  lastJoined
    (fun activation symbol => symbol ∈ activation.decision.members)
    (fun activation => activation.decision.effectiveAt) history symbol

/-- The effective time of the decision by which a symbol became core. -/
def coreJoined (history : List Activation) (symbol : String) : Option Int :=
  lastJoined
    (fun activation symbol => symbol ∈ activation.decision.core)
    (fun activation => activation.decision.effectiveAt) history symbol

section Dwell

variable {δ : Type}

/-- Whoever leaves with a decision is inactive or stayed long enough. -/
structure DepartureDwelled (policy : RollingPolicy δ)
    (history : List Activation) (previous applied : Activation) : Prop where
  candidate : ∀ symbol,
    symbol ∈ previous.decision.boundary ∨ symbol ∈ previous.decision.probe →
      symbol ∉ applied.decision.members →
        applied.ShowsInactive symbol ∨
          ∃ joined, memberJoined history symbol = some joined ∧
            policy.candidateDwell ≤ applied.decision.effectiveAt - joined
  core : ∀ symbol ∈ previous.decision.core,
    symbol ∉ applied.decision.members →
      applied.ShowsInactive symbol ∨
        ∃ joined, coreJoined history symbol = some joined ∧
          policy.coreDwell ≤ applied.decision.effectiveAt - joined

/-- Every decision of a history lets only such symbols leave. -/
def Dwelled (policy : RollingPolicy δ) (history : List Activation) : Prop :=
  ∀ earlier previous applied later,
    history = earlier ++ previous :: applied :: later →
      DepartureDwelled policy (earlier ++ [previous]) previous applied

theorem Dwelled.concat
    {policy : RollingPolicy δ} {history : List Activation}
    {applied : Activation} (dwelled : Dwelled policy history)
    (departure : ∀ earlier previous, history = earlier ++ [previous] →
      DepartureDwelled policy history previous applied) :
    Dwelled policy (history ++ [applied]) := by
  apply forall_adjacent_concat dwelled
  rintro earlier previous rfl
  exact departure earlier previous rfl

/-! ## What a store permits -/

variable [DecimalArithmetic δ] {store : UniverseStore δ}

/-- A decision which only removes members that the store lets go. -/
structure Permitted (store : UniverseStore δ) (activation : Activation) :
    Prop where
  candidate : ∀ symbol,
    symbol ∈ store.active.boundary ∨ symbol ∈ store.active.probe →
      symbol ∉ activation.decision.members →
        activation.ShowsInactive symbol ∨
          DwellComplete ((store.memberSince.get? symbol).getD
              activation.decision.effectiveAt)
            activation.decision.effectiveAt
            store.policy.candidateDwell
  core : ∀ symbol ∈ store.active.core,
    symbol ∉ activation.decision.members →
      activation.ShowsInactive symbol ∨
        DwellComplete ((store.coreSince.get? symbol).getD
            store.active.effectiveAt)
          activation.decision.effectiveAt store.policy.coreDwell

/-- A decision with the roles of a rebalanced selection is permitted. -/
theorem Permitted.of_rebalanced
    {snapshot : DiscoverySnapshot} {rows : List (MarketRow δ)}
    {inactive : List String} {result : SelectionResult}
    {decision : UniverseDecision}
    (shown : MarketShown snapshot store.active.members rows inactive)
    (rebalanced : Rebalanced store.active store.policy.toRollingPolicy rows
      inactive store.memberSince store.coreSince decision.effectiveAt result)
    (core : decision.core = result.core)
    (boundary : decision.boundary = result.boundary)
    (probe : decision.probe = result.probe) :
    Permitted store ⟨decision, .planned snapshot⟩ := by
  have absent {symbol : String} (left : symbol ∉ decision.members) :
      symbol ∉ result.core ∧ symbol ∉ result.boundary ∧
        symbol ∉ result.probe := by
    rw [DecisionDraft.mem_members, not_or, not_or, core, boundary, probe]
      at left
    exact left
  have shownInactive {symbol : String} (isInactive : symbol ∈ inactive) :
      (Activation.mk decision (.planned snapshot)).ShowsInactive symbol :=
    ((shown.inactive_iff symbol).mp isInactive).2
  constructor
  · rintro symbol (inBoundary | inProbe) left
    · rcases rebalanced.boundary.left symbol inBoundary with
        inNew | isForbidden | isInactive | complete
      · exact absurd inNew (absent left).2.1
      · rcases List.mem_append.mp isForbidden with inCore | inProbe
        · exact absurd inCore (absent left).1
        · exact absurd inProbe (absent left).2.2
      · exact Or.inl (shownInactive isInactive)
      · exact Or.inr complete
    · rcases rebalanced.probe.left symbol inProbe with
        inNew | inCore | isInactive | complete
      · exact absurd inNew (absent left).2.2
      · exact absurd inCore (absent left).1
      · exact Or.inl (shownInactive isInactive)
      · exact Or.inr complete
  · intro symbol inCore left
    rcases rebalanced.core.left symbol inCore with
      inNew | isInactive | complete
    · exact absurd inNew (absent left).1
    · exact Or.inl (shownInactive isInactive)
    · exact Or.inr complete

/-- An accepted override is permitted: it only removes old candidates. -/
theorem Permitted.of_override
    {override : CandidateOverride} {decision : UniverseDecision}
    (file : String)
    (accepted : store.decisionFromOverride override = .ok decision) :
    Permitted store ⟨decision, .overridden file⟩ := by
  simp only [UniverseStore.decisionFromOverride] at accepted
  split at accepted
  next => cases accepted
  next =>
    split at accepted
    next => cases accepted
    next =>
      split at accepted
      next => cases accepted
      next oldEnough =>
        have built := UniverseDecision.validate_eq_ok_iff.mp accepted
        have core : decision.core = store.active.core := by
          rw [built]
        have boundary : decision.boundary = override.boundary := by
          rw [built]
        have probe : decision.probe = override.probe := by
          rw [built]
        have effective : decision.effectiveAt = override.effectiveAt := by
          rw [built]
        constructor
        · intro symbol held left
          rw [DecisionDraft.mem_members, not_or, not_or, boundary, probe]
            at left
          have isOld := List.filter_eq_nil_iff.mp (not_not.mp oldEnough)
            symbol (List.mem_append.mpr held)
          apply Or.inr
          rw [DwellComplete, effective]
          by_contra young
          apply isOld
          rw [decide_eq_true_eq, List.mem_append, not_or]
          exact ⟨left.2, not_le.mp young⟩
        · intro symbol inCore left
          rw [DecisionDraft.mem_members, not_or, core] at left
          exact absurd inCore left.1

/-! ## What a write changes -/

/-- The files which decide what the store does next. -/
structure SameControl (before after : UniverseDisk) : Prop where
  active : after.active = before.active
  membership : after.membership = before.membership
  pending : after.pending = before.pending
  formalStart : after.formalStart = before.formalStart
  history : after.history = before.history

/-- A write which no operation depends on, or a change of the overrides. -/
def StoreWrite.IsLog : StoreWrite → Prop
  | .observation _ | .evaluation _ | .archive _ => True
  | .removeOverride _ | .rejectOverride _ => True
  | _ => False

theorem SameControl.trans
    {first second third : UniverseDisk} (before : SameControl first second)
    (after : SameControl second third) : SameControl first third where
  active := after.active.trans before.active
  membership := after.membership.trans before.membership
  pending := after.pending.trans before.pending
  formalStart := after.formalStart.trans before.formalStart
  history := after.history.trans before.history

theorem StoreWrite.IsLog.sameControl
    {change : StoreWrite} (isLog : change.IsLog) (disk : UniverseDisk) :
    SameControl disk (disk.write change) := by
  cases change with
  | observation | evaluation | archive | removeOverride | rejectOverride =>
      exact ⟨rfl, rfl, rfl, rfl, rfl⟩
  | activate | refresh | membership | pending | removePending =>
      cases isLog

theorem sameControl_writeAll
    {writes : List StoreWrite} (logs : ∀ change ∈ writes, change.IsLog)
    (disk : UniverseDisk) : SameControl disk (disk.writeAll writes) := by
  unfold UniverseDisk.writeAll
  induction writes generalizing disk with
  | nil => exact ⟨rfl, rfl, rfl, rfl, rfl⟩
  | cons change rest induction =>
      apply SameControl.trans
      · exact (logs change List.mem_cons_self).sameControl disk
      · exact induction
          (fun other inRest => logs other (List.mem_cons_of_mem _ inRest)) _

theorem writeAll_append
    (disk : UniverseDisk) (earlier later : List StoreWrite) :
    disk.writeAll (earlier ++ later) =
      (disk.writeAll earlier).writeAll later :=
  List.foldl_append

/-- The files after a decision became active. -/
theorem writeAll_activation
    (disk : UniverseDisk) (due : Activation) (state : MembershipState) :
    ∃ after, disk.writeAll (writeActive due ++
        [.membership state, UniverseStore.removeSource due.origin,
          .removePending]) = after ∧
      after.active = some due.decision ∧ after.membership = some state ∧
      after.pending = none ∧ after.history = disk.history ++ [due] := by
  refine ⟨_, rfl, ?_⟩
  rcases due with ⟨decision, _ | _ | _⟩ <;> exact ⟨rfl, rfl, rfl, rfl⟩

theorem rejections_are_logs (store : UniverseStore δ) (disk : UniverseDisk) :
    ∀ change ∈ store.rejections disk, change.IsLog := by
  intro change member
  rcases List.mem_map.mp member with ⟨_, _, rfl⟩
  trivial

/-! ## The bookkeeping of join times -/

theorem get?_setDefault
    (since : Dict String Int) (symbol other : String) (instant : Int) :
    (setDefault since symbol instant).get? other =
      if other = symbol then some ((since.get? other).getD instant)
      else since.get? other := by
  unfold setDefault
  split
  next absent =>
    rw [Dict.get?_set]
    split
    next same => rw [same, absent]; rfl
    next => rfl
  next joined present =>
    split
    next same => rw [same, present]; rfl
    next => rfl

/-- A member keeps its join time; a new one joins with the decision. -/
theorem get?_activated_memberSince
    (store : UniverseStore δ) (decision : UniverseDecision)
    (symbol : String) :
    (store.activated decision).memberSince.get? symbol =
      if symbol ∈ decision.members then
        some ((store.memberSince.get? symbol).getD decision.effectiveAt)
      else none := by
  have folded := Dict.get?_foldl_rebind
    (fun since symbol => setDefault since symbol decision.effectiveAt)
    (fun _ old => old.getD decision.effectiveAt)
    (fun since head key => get?_setDefault since head key decision.effectiveAt)
    (fun _ _ => rfl) decision.members store.memberSince symbol
  simp only [UniverseStore.activated, Dict.get?_filterKey, folded,
    decide_eq_true_eq]
  split <;> rfl

/-- A symbol which was not core before becomes core with the decision. -/
theorem get?_activated_coreSince
    (store : UniverseStore δ) (decision : UniverseDecision)
    (symbol : String) :
    (store.activated decision).coreSince.get? symbol =
      if symbol ∈ decision.core then
        some (if symbol ∈ store.active.core then
          (store.coreSince.get? symbol).getD decision.effectiveAt
        else decision.effectiveAt)
      else none := by
  have folded := Dict.get?_foldl_rebind
    (fun since head =>
      if head ∉ store.active.core then since.set head decision.effectiveAt
      else setDefault since head decision.effectiveAt)
    (fun key old =>
      if key ∈ store.active.core then old.getD decision.effectiveAt
      else decision.effectiveAt)
    (by
      intro since head key
      by_cases isCore : head ∈ store.active.core
      · rw [if_neg (not_not.mpr isCore), get?_setDefault]
        split
        next same => rw [same, if_pos isCore]
        next => rfl
      · rw [if_pos isCore, Dict.get?_set]
        split
        next same => rw [same, if_neg isCore]
        next => rfl)
    (by
      intro key old
      split <;> rfl)
    decision.core store.coreSince symbol
  simp only [UniverseStore.activated, Dict.get?_filterKey, folded,
    decide_eq_true_eq]
  split <;> rfl

theorem get?_sinceInstant
    (symbols : List String) (instant : Int) (symbol : String) :
    (sinceInstant symbols instant).get? symbol =
      if symbol ∈ symbols then some instant else none :=
  Dict.get?_foldl_rebind (fun since symbol => since.set symbol instant)
    (fun _ _ => instant)
    (fun since head key => Dict.get?_set since head key instant)
    (fun _ _ => rfl) symbols Dict.empty symbol

/-! ## The invariant -/

/-- The same members in the same roles. -/
structure SameRoles (left right : UniverseDecision) : Prop where
  core : left.core = right.core
  boundary : left.boundary = right.boundary
  probe : left.probe = right.probe

theorem SameRoles.mem_members_iff
    {left right : UniverseDecision} (same : SameRoles left right)
    {symbol : String} :
    symbol ∈ left.members ↔ symbol ∈ right.members := by
  simp only [DecisionDraft.mem_members, same.core, same.boundary, same.probe]

/-- Join times which agree with the decisions so far. -/
structure TracksJoins (history : List Activation) (active : UniverseDecision)
    (saved : MembershipState) : Prop where
  last : ∃ activation ∈ history.getLast?,
    SameRoles activation.decision active
  memberSince : ∀ symbol,
    saved.memberSince.get? symbol = memberJoined history symbol
  coreSince : ∀ symbol,
    saved.coreSince.get? symbol = coreJoined history symbol

namespace TracksJoins

variable {history : List Activation} {active : UniverseDecision}
  {saved : MembershipState}

theorem memberJoined_isSome_iff
    (tracks : TracksJoins history active saved) (symbol : String) :
    (memberJoined history symbol).isSome ↔ symbol ∈ active.members := by
  rcases tracks.last with ⟨activation, last, same⟩
  rw [memberJoined, lastJoined_isSome_iff]
  constructor
  · rintro ⟨other, otherLast, isMember⟩
    cases Option.some.inj (last.symm.trans otherLast)
    exact same.mem_members_iff.mp isMember
  · intro isMember
    exact ⟨activation, last, same.mem_members_iff.mpr isMember⟩

theorem coreJoined_isSome_iff
    (tracks : TracksJoins history active saved) (symbol : String) :
    (coreJoined history symbol).isSome ↔ symbol ∈ active.core := by
  rcases tracks.last with ⟨activation, last, same⟩
  rw [coreJoined, lastJoined_isSome_iff]
  constructor
  · rintro ⟨other, otherLast, isCore⟩
    cases Option.some.inj (last.symm.trans otherLast)
    exact same.core ▸ isCore
  · intro isCore
    exact ⟨activation, last, same.core ▸ isCore⟩

/-- The join times after a decision became active. -/
theorem activate
    (tracks : TracksJoins history store.active
      ⟨store.memberSince, store.coreSince⟩) (due : Activation) :
    TracksJoins (history ++ [due]) due.decision
      ⟨(store.activated due.decision).memberSince,
        (store.activated due.decision).coreSince⟩ where
  last := by
    rw [List.getLast?_concat]
    exact ⟨due, rfl, ⟨rfl, rfl, rfl⟩⟩
  memberSince symbol := by
    have joined := tracks.memberSince symbol
    simp only at joined ⊢
    rw [memberJoined, lastJoined_concat, get?_activated_memberSince, joined]
    rfl
  coreSince symbol := by
    have joined := tracks.coreSince symbol
    have isSome := tracks.coreJoined_isSome_iff symbol
    simp only at joined ⊢
    rw [coreJoined, lastJoined_concat, get?_activated_coreSince, joined]
    by_cases isCore : symbol ∈ store.active.core
    · rw [if_pos isCore]
      rfl
    · rw [if_neg isCore]
      rw [← isSome, Option.not_isSome_iff_eq_none] at isCore
      rw [← coreJoined, isCore]
      rfl

end TracksJoins

/-- A store which agrees with its files and with the decisions so far. -/
structure StoreSound (policy : UniversePolicyConfig δ)
    (store : UniverseStore δ) (disk : UniverseDisk) : Prop where
  policy : store.policy = policy
  active : disk.active = some store.active
  membership : disk.membership = some ⟨store.memberSince, store.coreSince⟩
  last : ∃ activation ∈ disk.history.getLast?,
    SameRoles activation.decision store.active
  memberSince : ∀ symbol,
    store.memberSince.get? symbol = memberJoined disk.history symbol
  coreSince : ∀ symbol,
    store.coreSince.get? symbol = coreJoined disk.history symbol
  pending : ∀ plan ∈ disk.pending, Permitted store plan

variable {policy : UniversePolicyConfig δ} {disk after : UniverseDisk}

/-- The same files but for the pending decision. -/
theorem StoreSound.replan
    (sound : StoreSound policy store disk)
    (active : after.active = disk.active)
    (membership : after.membership = disk.membership)
    (history : after.history = disk.history)
    (pending : ∀ plan ∈ after.pending, Permitted store plan) :
    StoreSound policy store after where
  policy := sound.policy
  active := active.trans sound.active
  membership := membership.trans sound.membership
  last := by
    rw [history]
    exact sound.last
  memberSince := by
    rw [history]
    exact sound.memberSince
  coreSince := by
    rw [history]
    exact sound.coreSince
  pending := pending

theorem StoreSound.congr
    (sound : StoreSound policy store disk) (same : SameControl disk after) :
    StoreSound policy store after := by
  apply sound.replan same.active same.membership same.history
  rw [same.pending]
  exact sound.pending

theorem StoreSound.tracks (sound : StoreSound policy store disk) :
    TracksJoins disk.history store.active
      ⟨store.memberSince, store.coreSince⟩ :=
  ⟨sound.last, sound.memberSince, sound.coreSince⟩

/-- What a sound store permits has dwelled. -/
theorem StoreSound.departure
    (sound : StoreSound policy store disk) {applied : Activation}
    (permitted : Permitted store applied)
    {earlier : List Activation} {previous : Activation}
    (split : disk.history = earlier ++ [previous]) :
    DepartureDwelled policy.toRollingPolicy disk.history previous applied := by
  rcases sound.last with ⟨activation, last, same⟩
  have isPrevious : previous = activation := by
    rw [split, List.getLast?_concat] at last
    exact Option.some.inj last
  rw [← isPrevious] at same
  constructor
  · intro symbol held left
    rw [same.boundary, same.probe] at held
    rcases Option.isSome_iff_exists.mp
        ((sound.tracks.memberJoined_isSome_iff symbol).mpr
          (DecisionDraft.mem_members.mpr (Or.inr held))) with
      ⟨joined, isJoined⟩
    apply (permitted.candidate symbol held left).imp_right
    intro complete
    rw [sound.memberSince, isJoined, sound.policy, DwellComplete,
      Option.getD_some] at complete
    exact ⟨joined, isJoined, by omega⟩
  · intro symbol isCore left
    rw [same.core] at isCore
    rcases Option.isSome_iff_exists.mp
        ((sound.tracks.coreJoined_isSome_iff symbol).mpr isCore) with
      ⟨joined, isJoined⟩
    apply (permitted.core symbol isCore left).imp_right
    intro complete
    rw [sound.coreSince, isJoined, sound.policy, DwellComplete,
      Option.getD_some] at complete
    exact ⟨joined, isJoined, by omega⟩

/-- A decision which becomes active leaves a sound store. -/
theorem StoreSound.activate
    (sound : StoreSound policy store disk) (due : Activation)
    (active : after.active = some due.decision)
    (membership : after.membership =
      some ⟨(store.activated due.decision).memberSince,
        (store.activated due.decision).coreSince⟩)
    (pending : after.pending = none)
    (history : after.history = disk.history ++ [due]) :
    StoreSound policy (store.activated due.decision) after where
  policy := sound.policy
  active := active
  membership := membership
  last := by
    rw [history]
    exact (sound.tracks.activate due).last
  memberSince := by
    rw [history]
    exact (sound.tracks.activate due).memberSince
  coreSince := by
    rw [history]
    exact (sound.tracks.activate due).coreSince
  pending plan isPending := by
    rw [pending] at isPending
    cases isPending

/-! ## Operations -/

theorem mem_of_foldl_laterOf
    {candidates : List Activation} {latest : Option Activation}
    {due : Activation}
    (selected : candidates.foldl UniverseStore.laterOf latest = some due) :
    latest = some due ∨ due ∈ candidates := by
  induction candidates generalizing latest with
  | nil => exact Or.inl selected
  | cons candidate rest induction =>
      rcases induction selected with isLater | inRest
      · unfold UniverseStore.laterOf at isLater
        split at isLater
        next =>
          exact Or.inr (Option.some.inj isLater ▸ List.mem_cons_self)
        next =>
          split at isLater
          next => exact Or.inr (Option.some.inj isLater ▸ List.mem_cons_self)
          next => exact Or.inl isLater
      · exact Or.inr (List.mem_cons_of_mem _ inRest)

/-- What is due is one of the candidates. -/
theorem mem_of_selectDue
    {now : Int} {due : Activation}
    (selected : store.selectDue disk now = some due) :
    due ∈ store.dueCandidates disk now := by
  rcases mem_of_foldl_laterOf selected with none | member
  · cases none
  · exact member

/-- What is due was planned or is an accepted override. -/
theorem StoreSound.permitted_of_selectDue
    (sound : StoreSound policy store disk) {now : Int} {due : Activation}
    (selected : store.selectDue disk now = some due) :
    Permitted store due := by
  have candidate := List.mem_of_mem_filter (mem_of_selectDue selected)
  rcases List.mem_append.mp candidate with planned | overridden
  · exact sound.pending due (Option.mem_toList.mp planned)
  · rcases List.mem_filterMap.mp overridden with ⟨⟨file, content⟩, _, read⟩
    rcases Option.map_eq_some_iff.mp read with ⟨decision, accepted, rfl⟩
    rcases Option.bind_eq_some_iff.mp accepted with ⟨override, _, built⟩
    cases result : store.decisionFromOverride override with
    | error problem => simp [result, Except.toOption] at built
    | ok other =>
        rw [result] at built
        rw [← Option.some.inj built]
        exact Permitted.of_override file result

/-- The state of a machine whose store is sound, or not yet made. -/
structure StoreState.Sound (policy : UniversePolicyConfig δ)
    (state : StoreState δ) : Prop where
  dwelled : Dwelled policy.toRollingPolicy state.disk.history
  store : match state.store with
    | some store => StoreSound policy store state.disk
    | none => state.disk.active = none ∧ state.disk.pending = none ∧
        state.disk.history = []

/-- No crash, and every process runs with the same policy. -/
def Clean (policy : UniversePolicyConfig δ) (_ : StoreState δ) :
    StoreLabel δ → Prop
  | .perform (.initializeStore configured _) => configured = policy
  | .crash _ _ => False
  | _ => True

theorem initializeStore_sound
    {state : StoreState δ} {now : Int} {effect : Effect δ}
    (sound : state.Sound policy)
    (started : initializeStore state.disk policy now = some effect) :
    StoreState.Sound policy
      { store := some effect.1, disk := state.disk.writeAll effect.2 } := by
  cases stored : state.store with
  | some store =>
      have same := sound.store
      rw [stored] at same
      simp only [initializeStore, same.active, same.membership] at started
      rw [← Option.some.inj started]
      refine ⟨sound.dwelled, ?_⟩
      have kept : ({
          policy
          active := store.active
          memberSince := store.memberSince
          coreSince := store.coreSince } : UniverseStore δ) = store := by
        rw [← same.policy]
      exact kept ▸ same
  | none =>
      have fresh := sound.store
      rw [stored] at fresh
      rcases fresh with ⟨inactive, notPlanned, noHistory⟩
      simp only [initializeStore, inactive] at started
      rw [← Option.some.inj started]
      have history :
          (state.disk.writeAll (writeActive
              ⟨bootstrapDecision policy now, .bootstrap⟩ ++
            [.membership {
              memberSince :=
                sinceInstant (bootstrapDecision policy now).members now
              coreSince := sinceInstant
                (bootstrapDecision policy now).core now }])).history =
            [⟨bootstrapDecision policy now, .bootstrap⟩] := by
        change state.disk.history ++ _ = _
        rw [noHistory]
        rfl
      constructor
      · rw [history]
        intro earlier previous applied later split
        have lengths := congrArg List.length split
        simp at lengths
        omega
      · constructor
        · rfl
        · rfl
        · rfl
        · rw [history]
          exact ⟨_, rfl, ⟨rfl, rfl, rfl⟩⟩
        · intro symbol
          rw [history, get?_sinceInstant]
          rfl
        · intro symbol
          rw [history, get?_sinceInstant]
          rfl
        · intro plan isPending
          change plan ∈ state.disk.pending at isPending
          rw [notPlanned] at isPending
          cases isPending

theorem StoreSound.applyDue
    (sound : StoreSound policy store disk)
    (dwelled : Dwelled policy.toRollingPolicy disk.history) (now : Int) :
    StoreState.Sound policy
      { store := some (store.applyDue disk now).1
        disk := disk.writeAll (store.applyDue disk now).2 } := by
  have rejected := sameControl_writeAll (rejections_are_logs store disk) disk
  simp only [UniverseStore.applyDue]
  split
  next =>
    constructor
    · rw [rejected.history]
      exact dwelled
    · exact sound.congr rejected
  next due selected =>
    have permitted := sound.permitted_of_selectDue selected
    rw [List.append_assoc, writeAll_append]
    rcases writeAll_activation (disk.writeAll (store.rejections disk)) due
        ⟨(store.activated due.decision).memberSince,
          (store.activated due.decision).coreSince⟩ with
      ⟨after, written, active, membership, pending, history⟩
    rw [written]
    constructor
    · rw [history, rejected.history]
      apply dwelled.concat
      intro earlier previous split
      exact sound.departure permitted split
    · apply (sound.congr rejected).activate due active membership pending
        history

/-- A planned decision is permitted by the store which plans it. -/
theorem Permitted.of_selection
    {snapshot : DiscoverySnapshot} {now effectiveAt : Int}
    {result : SelectionResult} {decision : UniverseDecision}
    (selected : selectRollingUniverse store.active snapshot effectiveAt
      store.memberSince store.coreSince store.policy.toRollingPolicy =
        .ok result)
    (changed : ¬ (result.core = store.active.core ∧
      result.boundary = store.active.boundary ∧
      result.probe = store.active.probe))
    (planned : store.plannedDecision result now effectiveAt = .ok decision) :
    Permitted store ⟨decision, .planned snapshot⟩ := by
  rcases selectRollingUniverse_spec selected with
    ⟨rows, inactive, shown, _, keeps | rebalanced⟩
  · exact absurd keeps changed
  · have built := UniverseDecision.validate_eq_ok_iff.mp planned
    have effective : decision.effectiveAt = effectiveAt := by
      rw [built]
    apply Permitted.of_rebalanced (marketRows_shown shown)
      (effective ▸ rebalanced)
    · rw [built]
    · rw [built]
    · rw [built]

/-- New source hashes leave the roles and the join times as they are. -/
theorem StoreSound.refresh
    (sound : StoreSound policy store disk) (sourceHashes : List String)
    (active : after.active = some (withSources store.active sourceHashes))
    (membership : after.membership = disk.membership)
    (pending : after.pending = disk.pending)
    (history : after.history = disk.history) :
    StoreSound policy
      { store with active := withSources store.active sourceHashes }
      after where
  policy := sound.policy
  active := active
  membership := membership.trans sound.membership
  last := by
    rw [history]
    rcases sound.last with ⟨activation, last, same⟩
    exact ⟨activation, last, same.core, same.boundary, same.probe⟩
  memberSince := by
    rw [history]
    exact sound.memberSince
  coreSince := by
    rw [history]
    exact sound.coreSince
  pending plan isPending := by
    rw [pending] at isPending
    exact ⟨(sound.pending plan isPending).candidate,
      (sound.pending plan isPending).core⟩

theorem StoreSound.observeAndPlan
    (sound : StoreSound policy store disk)
    (dwelled : Dwelled policy.toRollingPolicy disk.history)
    (snapshot : DiscoverySnapshot) (now : Int) :
    StoreState.Sound policy
      { store := some (store.observeAndPlan disk snapshot now).1
        disk := disk.writeAll (store.observeAndPlan disk snapshot now).2 } := by
  have logged (writes : List StoreWrite)
      (logs : ∀ change ∈ writes, change.IsLog) :
      StoreState.Sound policy
        { store := some store, disk := disk.writeAll writes } := by
    have same := sameControl_writeAll logs disk
    constructor
    · rw [same.history]
      exact dwelled
    · exact sound.congr same
  simp only [UniverseStore.observeAndPlan]
  split
  next =>
    split
    next => exact logged _ (by simp [StoreWrite.IsLog])
    next => exact ⟨dwelled, sound.refresh _ rfl rfl rfl rfl⟩
  next =>
    split
    next => exact logged _ (by simp [StoreWrite.IsLog])
    next result selected =>
      split
      next => exact logged _ (by simp [StoreWrite.IsLog])
      next =>
        split
        next =>
          constructor
          · exact dwelled
          · refine sound.replan rfl rfl rfl ?_
            rintro plan ⟨⟩
        next changed =>
          split
          next => exact logged _ (by simp [StoreWrite.IsLog])
          next decision planned =>
            constructor
            · exact dwelled
            · refine sound.replan rfl rfl rfl ?_
              rintro plan ⟨⟩
              exact Permitted.of_selection selected changed planned

/-- Every label of a clean run keeps the store sound. -/
theorem storeStep_sound
    {before after : StoreState δ} {label : StoreLabel δ}
    (sound : before.Sound policy) (clean : Clean policy before label)
    (stepped : storeStep before label = some after) :
    after.Sound policy := by
  cases label with
  | crash operation count => cases clean
  | placeOverride file content =>
      cases Option.some.inj stepped
      refine ⟨sound.dwelled, ?_⟩
      have same := sound.store
      cases stored : before.store with
      | none =>
          rw [stored] at same
          exact same
      | some store =>
          rw [stored] at same
          exact same.congr ⟨rfl, rfl, rfl, rfl, rfl⟩
  | startFormally =>
      cases Option.some.inj stepped
      refine ⟨sound.dwelled, ?_⟩
      have same := sound.store
      cases stored : before.store with
      | none =>
          rw [stored] at same
          exact same
      | some store =>
          rw [stored] at same
          exact same.replan rfl rfl rfl same.pending
  | perform operation =>
      rcases Option.map_eq_some_iff.mp stepped with ⟨effect, done, rfl⟩
      cases operation with
      | initializeStore configured now =>
          have samePolicy : configured = policy := clean
          subst samePolicy
          exact initializeStore_sound sound done
      | observeAndPlan snapshot now =>
          rcases Option.map_eq_some_iff.mp done with ⟨store, stored, rfl⟩
          have same := sound.store
          rw [stored] at same
          exact same.observeAndPlan sound.dwelled snapshot now
      | hasDue now =>
          rcases Option.map_eq_some_iff.mp done with ⟨store, stored, rfl⟩
          have same := sound.store
          rw [stored] at same
          have rejected := sameControl_writeAll
            (rejections_are_logs store before.disk) before.disk
          constructor
          · rw [rejected.history]
            exact sound.dwelled
          · exact same.congr rejected
      | applyDue now =>
          rcases Option.map_eq_some_iff.mp done with ⟨store, stored, rfl⟩
          have same := sound.store
          rw [stored] at same
          exact same.applyDue sound.dwelled now

/--
In every clean run, whoever leaves the universe was shown as inactive or has
dwelled: as a member when leaving a candidate role, as a core member when
leaving the core.
-/
theorem departures_have_dwelled
    (policy : UniversePolicyConfig δ) {labels : List (StoreLabel δ)}
    {final : StoreState δ}
    (clean : StepsMeet storeStep (Clean policy) (emptyStore δ) labels)
    (reached : runFrom storeStep (emptyStore δ) labels = some final) :
    Dwelled policy.toRollingPolicy final.disk.history := by
  have sound : final.Sound policy := by
    apply invariant_of_run _ _ clean reached
    · intro before label after
      exact storeStep_sound
    · constructor
      · intro earlier previous applied later split
        cases earlier <;> cases split
      · exact ⟨rfl, rfl, rfl⟩
  exact sound.dwelled

end Dwell

/-! ## A probe member which leaves after two days -/

def samplePolicy : UniversePolicyConfig ℚ where
  toRollingPolicy := defaultPolicy
  bootstrapEvidenceSha256 := "bootstrap"
  coreGeneration := 1
  candidateRevision := 0
  decisionSequence := 1
  core := sampleSymbols 10 50
  boundary := sampleSymbols 60 5
  probe := sampleSymbols 65 5
  decisionCutoffMinuteUtc := 55
  automationEnabled := true
  bounds := by constructor <;> decide +kernel
  generationPositive := le_refl 1
  sequencePositive := le_refl 1
  validCore := sampleActive.valid.core
  validBoundary := sampleActive.valid.boundary
  validProbe := sampleActive.valid.probe
  members := sampleActive.valid.members
  cutoffBound := by decide

def sampleOverride : CandidateOverride where
  createdAt := 0
  effectiveAt := 2 * usPerDay
  boundary := sampleSymbols 60 5
  probe := sampleSymbols 65 4 ++ ["S70"]
  validBoundary := by decide +kernel
  validProbe := by decide +kernel
  schedule := by decide
  midnight := by decide
  distinct := by decide +kernel

def sampleRun : List (StoreLabel ℚ) :=
  [.perform (.initializeStore samplePolicy 0),
    .placeOverride "swap.override.json" (some sampleOverride),
    .perform (.applyDue (2 * usPerDay))]

theorem sampleRun_completes :
    (runFrom storeStep (emptyStore ℚ) sampleRun).isSome := by
  decide +kernel

def sampleHistory : List Activation :=
  ((runFrom storeStep (emptyStore ℚ) sampleRun).get
    sampleRun_completes).disk.history

theorem departures_have_dwelled_override :
    (sampleHistory.map fun activation => activation.decision.probe) =
        [sampleSymbols 65 5, sampleSymbols 65 4 ++ ["S70"]] ∧
      Dwelled defaultPolicy sampleHistory :=
  ⟨by decide +kernel,
    departures_have_dwelled samplePolicy
      (stepsMeet_of_forall (by
        intro label member state
        simp only [sampleRun, List.mem_cons, List.not_mem_nil, or_false]
          at member
        rcases member with rfl | rfl | rfl
        · rfl
        · trivial
        · trivial) _)
      (Option.some_get _).symm⟩

end ShadowDataPlane.Edge
