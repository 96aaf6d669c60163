import ShadowDataPlane.Central.Selector
import ShadowDataPlane.Foundation.Membership
import ShadowDataPlane.Foundation.Transition

/-!
# The universe store

`UniverseStore` owns the active universe.  It plans a decision after each
observation, accepts operator overrides, and applies what is due; the active
decision, the join times of its members and the pending decision are separate
files.  An operation is a new store and the list of its atomic file writes, so
that a process can die between any two of them.

`history` is not a file: it lists every decision which `active.json` has held
since the bootstrap.  A pending decision is kept with the snapshot it was
planned from, whose digests are its `source_hashes`.  Dictionaries are read by
key only, so the order in which `membership-state.json` lists them is not kept.
-/

namespace ShadowDataPlane.Edge

open ShadowDataPlane.Contracts
open ShadowDataPlane.Foundation
open ShadowDataPlane.Central

/-! ## The policy -/

/-- The bounds of the rolling fields of `UniversePolicyConfig`. -/
structure RollingBounds {δ : Type} [DecimalArithmetic δ]
    (policy : RollingPolicy δ) : Prop where
  liquidityWindowDays :
    14 ≤ policy.liquidityWindowDays ∧ policy.liquidityWindowDays ≤ 30
  probeMinimumCompleteDays :
    1 ≤ policy.probeMinimumCompleteDays ∧
      policy.probeMinimumCompleteDays ≤ 14 ∧
      policy.probeMinimumCompleteDays ≤ policy.liquidityWindowDays
  dailyQuoteVolume :
    ofInteger 0 < policy.minimumDailyQuoteVolume ∧
      policy.minimumDailyQuoteVolume ≤ policy.minimumQ25DailyQuoteVolume ∧
      policy.minimumQ25DailyQuoteVolume ≤ policy.minimumMedianDailyQuoteVolume
  dailyTrades :
    0 < policy.minimumDailyTrades ∧
      policy.minimumDailyTrades ≤ policy.minimumQ25DailyTrades ∧
      policy.minimumQ25DailyTrades ≤ policy.minimumMedianDailyTrades
  maximumQuoteVolumeCv : ofInteger 0 < policy.maximumQuoteVolumeCv
  maximumSpreadBps : ofInteger 0 < policy.maximumSpreadBps
  minimumThinDepth :
    ofInteger 0 < policy.minimumThinDepth10bps ∧
      ofInteger 0 < policy.minimumThinDepth50bps
  liquidityDepthSamples :
    3 ≤ policy.liquidityDepthSamples ∧ policy.liquidityDepthSamples ≤ 5
  liquidityBookTickerSamples :
    3 ≤ policy.liquidityBookTickerSamples ∧
      policy.liquidityBookTickerSamples ≤ 10
  candidateMinimumDwellHours : 1 ≤ policy.candidateMinimumDwellHours
  coreMinimumDwellDays : 1 ≤ policy.coreMinimumDwellDays
  candidateDailyReplacements :
    1 ≤ policy.candidateDailyReplacements ∧
      policy.candidateDailyReplacements ≤ 2
  coreWeeklyReplacements :
    1 ≤ policy.coreWeeklyReplacements ∧ policy.coreWeeklyReplacements ≤ 5
  coreMinimumAgeDays : 1 ≤ policy.coreMinimumAgeDays
  coreEntryRank : 1 ≤ policy.coreEntryRank ∧ policy.coreEntryRank ≤ 50
  coreRetainRank : 50 ≤ policy.coreRetainRank
  boundaryRetainRank : 5 ≤ policy.boundaryRetainRank

/-- `UniversePolicyConfig`: the rolling policy and the bootstrap universe. -/
structure UniversePolicyConfig (δ : Type) [DecimalArithmetic δ]
    extends RollingPolicy δ where
  bootstrapEvidenceSha256 : String
  coreGeneration : Nat
  candidateRevision : Nat
  decisionSequence : Nat
  core : List String
  boundary : List String
  probe : List String
  decisionCutoffMinuteUtc : Nat
  automationEnabled : Bool
  bounds : RollingBounds toRollingPolicy
  generationPositive : 1 ≤ coreGeneration
  sequencePositive : 1 ≤ decisionSequence
  validCore : ValidRole 50 core
  validBoundary : ValidRole 5 boundary
  validProbe : ValidRole 5 probe
  members : (core ++ boundary ++ probe).toFinset.card = 60
  cutoffBound : decisionCutoffMinuteUtc ≤ 59

/-! ## Files -/

/-- What a decision was made from. -/
inductive DecisionOrigin where
  | bootstrap
  | planned (evidence : DiscoverySnapshot)
  | overridden (file : String)

/-- A decision which became active, or is to become active. -/
structure Activation where
  decision : UniverseDecision
  origin : DecisionOrigin

/-- `membership-state.json`. -/
structure MembershipState where
  memberSince : Dict String Int
  coreSince : Dict String Int

/-- A file under `evaluations/`. -/
structure Evaluation where
  active : UniverseDecision
  result : SelectionResult
  effectiveAt : Int
  evaluatedAt : Int
  kind : String

/-- The control directory of the universe. -/
structure UniverseDisk where
  active : Option UniverseDecision := none
  membership : Option MembershipState := none
  pending : Option Activation := none
  /-- The overrides by file name; a file which does not parse has none. -/
  overrides : Dict String (Option CandidateOverride) := Dict.empty
  rejected : Dict String (Option CandidateOverride) := Dict.empty
  /-- `decisions/`, by sequence and version. -/
  decisions : Dict (Nat × Nat × Nat) UniverseDecision := Dict.empty
  /-- `observations/`, by date. -/
  observations : Dict Int DiscoverySnapshot := Dict.empty
  evaluations : Dict Int Evaluation := Dict.empty
  /-- Whether `formal-start.json` exists. -/
  formalStart : Bool := false
  history : List Activation := []

/-- One atomic change of the directory. -/
inductive StoreWrite where
  | observation (snapshot : DiscoverySnapshot)
  | evaluation (evaluation : Evaluation)
  /-- `active.json`, with a decision which becomes active. -/
  | activate (activation : Activation)
  /-- `active.json`, with other source hashes. -/
  | refresh (decision : UniverseDecision)
  | archive (decision : UniverseDecision)
  | membership (state : MembershipState)
  | pending (plan : Activation)
  | removePending
  | removeOverride (file : String)
  | rejectOverride (file : String)

namespace UniverseDisk

def write (disk : UniverseDisk) : StoreWrite → UniverseDisk
  | .observation snapshot =>
      { disk with
        observations :=
          disk.observations.set (snapshot.observedAt / usPerDay) snapshot }
  | .evaluation evaluation =>
      { disk with
        evaluations := disk.evaluations.set evaluation.evaluatedAt evaluation }
  | .activate activation =>
      { disk with
        active := some activation.decision
        history := disk.history ++ [activation] }
  | .refresh decision => { disk with active := some decision }
  | .archive decision =>
      { disk with
        decisions := disk.decisions.set
          (decision.decisionSequence, decision.coreGeneration,
            decision.candidateRevision) decision }
  | .membership state => { disk with membership := some state }
  | .pending plan => { disk with pending := some plan }
  | .removePending => { disk with pending := none }
  | .removeOverride file =>
      { disk with overrides := disk.overrides.erase file }
  | .rejectOverride file =>
      { disk with
        overrides := disk.overrides.erase file
        rejected :=
          match disk.overrides.get? file with
          | none => disk.rejected
          | some content => disk.rejected.set file content }

def writeAll (disk : UniverseDisk) (writes : List StoreWrite) : UniverseDisk :=
  writes.foldl write disk

end UniverseDisk

/-! ## Operations -/

/-- `_next_effective_at`: the next midnight, or the one after it. -/
def nextEffectiveAt (now : Int) (cutoffMinute : Nat) : Int :=
  let effective := (now / usPerDay + 1) * usPerDay
  if now % usPerDay / usPerHour = 23 ∧
      (cutoffMinute : Int) < now % usPerHour / 60000000 then
    effective + usPerDay
  else effective

/-- `_decision_reason`. -/
def decisionReason (active : UniverseDecision) (result : SelectionResult)
    (effectiveAt : Int) : UniverseDecisionReason :=
  if result.inactive ≠ [] then .inactiveReplacement
  else if result.core ≠ active.core ∧ IsMonday effectiveAt then .weeklyCore
  else .dailyCandidate

/-- `_next_version`. -/
def nextVersion (active : UniverseDecision) (core : List String) :
    Nat × Nat :=
  if core ≠ active.core then (active.coreGeneration + 1, 0)
  else (active.coreGeneration, active.candidateRevision + 1)

/-- `active.model_copy(update={"source_hashes": ...})`. -/
def withSources (active : UniverseDecision) (sourceHashes : List String) :
    UniverseDecision where
  toDecisionDraft := { active.toDecisionDraft with sourceHashes }
  valid := {
    coreGeneration := active.valid.coreGeneration
    decisionSequence := active.valid.decisionSequence
    core := active.valid.core
    boundary := active.valid.boundary
    probe := active.valid.probe
    schedule := active.valid.schedule
    members := active.valid.members
    midnight := active.valid.midnight }

/-- `{symbol: instant for symbol in symbols}`. -/
def sinceInstant (symbols : List String) (instant : Int) : Dict String Int :=
  symbols.foldl (fun since symbol => since.set symbol instant) Dict.empty

/-- `since.setdefault(symbol, instant)`. -/
def setDefault (since : Dict String Int) (symbol : String) (instant : Int) :
    Dict String Int :=
  match since.get? symbol with
  | none => since.set symbol instant
  | some _ => since

section Store

variable {δ : Type} [DecimalArithmetic δ]

/-- An initialized store. -/
structure UniverseStore (δ : Type) [DecimalArithmetic δ] where
  policy : UniversePolicyConfig δ
  active : UniverseDecision
  memberSince : Dict String Int
  coreSince : Dict String Int

/-- The decision which a store without `active.json` begins with. -/
def bootstrapDecision (policy : UniversePolicyConfig δ) (now : Int) :
    UniverseDecision where
  coreGeneration := policy.coreGeneration
  candidateRevision := policy.candidateRevision
  decisionSequence := policy.decisionSequence
  createdAt := now
  effectiveAt := now
  reason := .formalBootstrap
  core := policy.core
  boundary := policy.boundary
  probe := policy.probe
  sourceHashes := [policy.bootstrapEvidenceSha256]
  valid := {
    coreGeneration := policy.generationPositive
    decisionSequence := policy.sequencePositive
    core := policy.validCore
    boundary := policy.validBoundary
    probe := policy.validProbe
    schedule := le_refl now
    members := policy.members
    midnight := fun other => absurd rfl other }

/-- `_write_active` for a decision which becomes active. -/
def writeActive (activation : Activation) : List StoreWrite :=
  [.activate activation, .archive activation.decision]

/-- What an operation does: the store after it, and its file writes. -/
abbrev Effect (δ : Type) [DecimalArithmetic δ] :=
  UniverseStore δ × List StoreWrite

/-- `initialize`; without the membership file of an active universe it fails. -/
def initializeStore (disk : UniverseDisk) (policy : UniversePolicyConfig δ)
    (now : Int) : Option (Effect δ) :=
  match disk.active with
  | some active =>
      match disk.membership with
      | none => none
      | some state =>
          some ({
            policy
            active
            memberSince := state.memberSince
            coreSince := state.coreSince }, [])
  | none =>
      let active := bootstrapDecision policy now
      let memberSince := sinceInstant active.members now
      let coreSince := sinceInstant active.core now
      some ({ policy, active, memberSince, coreSince },
        writeActive ⟨active, .bootstrap⟩ ++
          [.membership { memberSince, coreSince }])

namespace UniverseStore

/-- The decision which `observe_and_plan` makes of a selection. -/
def plannedDecision (store : UniverseStore δ) (result : SelectionResult)
    (now effectiveAt : Int) : Except String UniverseDecision :=
  let version := nextVersion store.active result.core
  UniverseDecision.validate {
    coreGeneration := version.1
    candidateRevision := version.2
    decisionSequence := store.active.decisionSequence + 1
    createdAt := now
    effectiveAt
    reason := decisionReason store.active result effectiveAt
    core := result.core
    boundary := result.boundary
    probe := result.probe
    sourceHashes := result.sourceHashes }

/-- `observe_and_plan`, where an exception ends it after its writes so far. -/
def observeAndPlan (store : UniverseStore δ) (disk : UniverseDisk)
    (snapshot : DiscoverySnapshot) (now : Int) : Effect δ :=
  let effectiveAt :=
    nextEffectiveAt now store.policy.decisionCutoffMinuteUtc
  if ¬ disk.formalStart then
    match validateBootstrapUniverse snapshot store.active.core
      store.active.boundary store.active.probe
      store.policy.toRollingPolicy with
    | .error _ => (store, [.observation snapshot])
    | .ok verified =>
        let active := withSources store.active
          (store.policy.bootstrapEvidenceSha256 :: snapshot.sourceHashes)
        ({ store with active },
          [.observation snapshot, .refresh active, .archive active,
            .evaluation {
              active
              result := verified
              effectiveAt := now
              evaluatedAt := now
              kind := "bootstrap" }])
  else
    match selectRollingUniverse store.active snapshot effectiveAt
      store.memberSince store.coreSince store.policy.toRollingPolicy with
    | .error _ => (store, [.observation snapshot])
    | .ok result =>
        let evaluated := [.observation snapshot, .evaluation {
          active := store.active
          result
          effectiveAt
          evaluatedAt := now
          kind := "rolling" }]
        if ¬ store.policy.automationEnabled then
          (store, [.observation snapshot])
        else if result.core = store.active.core ∧
            result.boundary = store.active.boundary ∧
            result.probe = store.active.probe then
          (store, evaluated ++ [.removePending])
        else
          match store.plannedDecision result now effectiveAt with
          | .error _ => (store, evaluated)
          | .ok decision =>
              (store, evaluated ++ [.pending ⟨decision, .planned snapshot⟩])

/-- `_decision_from_override`. -/
def decisionFromOverride (store : UniverseStore δ)
    (override : CandidateOverride) : Except String UniverseDecision :=
  let proposed := override.boundary ++ override.probe
  let current := store.active.boundary ++ store.active.probe
  let minimumJoinedAt :=
    override.effectiveAt - store.policy.candidateDwell
  let tooYoung := current.filter fun symbol =>
    symbol ∉ proposed ∧
      minimumJoinedAt <
        (store.memberSince.get? symbol).getD override.effectiveAt
  if ∃ symbol ∈ proposed, symbol ∈ store.active.core then
    .error "candidate override cannot include active core members"
  else if store.policy.candidateDailyReplacements <
      (proposed.toFinset \ current.toFinset).card then
    .error "candidate override exceeds daily replacement limit"
  else if tooYoung ≠ [] then
    .error ("candidate override violates dwell: " ++ showSymbols tooYoung)
  else
    UniverseDecision.validate {
      coreGeneration := store.active.coreGeneration
      candidateRevision := store.active.candidateRevision + 1
      decisionSequence := store.active.decisionSequence + 1
      createdAt := override.createdAt
      effectiveAt := override.effectiveAt
      reason := .manualCandidateOverride
      core := store.active.core
      boundary := override.boundary
      probe := override.probe }

/-- The decision of an override file, unless the file is to be rejected. -/
def readOverride (store : UniverseStore δ)
    (content : Option CandidateOverride) : Option UniverseDecision :=
  content.bind fun override => (store.decisionFromOverride override).toOption

/-- Whether a decision follows the active one and its time has come. -/
def IsDue (store : UniverseStore δ) (now : Int) (decision : UniverseDecision) :
    Prop :=
  store.active.decisionSequence < decision.decisionSequence ∧
    decision.effectiveAt ≤ now

instance (store : UniverseStore δ) (now : Int) (decision : UniverseDecision) :
    Decidable (store.IsDue now decision) :=
  inferInstanceAs (Decidable (_ ∧ _))

/-- The file a candidate comes from. -/
def sourceName : DecisionOrigin → String
  | .overridden file => file
  | _ => "pending.json"

/--
The order by which the latest candidate is taken: by sequence, effective time,
creation time and file name.
-/
def ComesBefore (left right : Activation) : Prop :=
  left.decision.decisionSequence < right.decision.decisionSequence ∨
    left.decision.decisionSequence = right.decision.decisionSequence ∧
    (left.decision.effectiveAt < right.decision.effectiveAt ∨
      left.decision.effectiveAt = right.decision.effectiveAt ∧
      (left.decision.createdAt < right.decision.createdAt ∨
        left.decision.createdAt = right.decision.createdAt ∧
        sourceName left.origin < sourceName right.origin))

instance (left right : Activation) : Decidable (ComesBefore left right) :=
  inferInstanceAs (Decidable (_ ∨ _ ∧ (_ ∨ _ ∧ (_ ∨ _ ∧ _))))

/-- The later of two candidates, the first one when they are equal. -/
def laterOf (latest : Option Activation) (candidate : Activation) :
    Option Activation :=
  match latest with
  | none => some candidate
  | some other =>
      if ComesBefore other candidate then some candidate else some other

/-- The candidates of `_select_due`. -/
def dueCandidates (store : UniverseStore δ) (disk : UniverseDisk) (now : Int) :
    List Activation :=
  (disk.pending.toList ++
    disk.overrides.entries.filterMap
      fun (entry : String × Option CandidateOverride) =>
        (store.readOverride entry.2).map fun decision =>
          { decision, origin := .overridden entry.1 : Activation }).filter
    fun candidate => store.IsDue now candidate.decision

/-- The override files which `_select_due` renames. -/
def invalidOverrides (store : UniverseStore δ) (disk : UniverseDisk) :
    List String :=
  (disk.overrides.entries.filter fun entry =>
    (store.readOverride entry.2).isNone).map Prod.fst

/-- `_select_due`. -/
def selectDue (store : UniverseStore δ) (disk : UniverseDisk) (now : Int) :
    Option Activation :=
  (store.dueCandidates disk now).foldl laterOf none

/-- The renames of `_select_due`. -/
def rejections (store : UniverseStore δ) (disk : UniverseDisk) :
    List StoreWrite :=
  (store.invalidOverrides disk).map .rejectOverride

/-- The store after a decision became active. -/
def activated (store : UniverseStore δ) (decision : UniverseDecision) :
    UniverseStore δ where
  policy := store.policy
  active := decision
  memberSince :=
    (decision.members.foldl (fun since symbol =>
      setDefault since symbol decision.effectiveAt)
      store.memberSince).filterKey fun symbol => symbol ∈ decision.members
  coreSince :=
    (decision.core.foldl (fun since symbol =>
      if symbol ∉ store.active.core then
        since.set symbol decision.effectiveAt
      else setDefault since symbol decision.effectiveAt)
      store.coreSince).filterKey fun symbol => symbol ∈ decision.core

/-- The removal of the file a decision came from. -/
def removeSource : DecisionOrigin → StoreWrite
  | .overridden file => .removeOverride file
  | _ => .removePending

/-- `apply_due`. -/
def applyDue (store : UniverseStore δ) (disk : UniverseDisk) (now : Int) :
    Effect δ :=
  match store.selectDue disk now with
  | none => (store, store.rejections disk)
  | some due =>
      let next := store.activated due.decision
      (next, store.rejections disk ++ writeActive due ++
        [.membership ⟨next.memberSince, next.coreSince⟩,
          removeSource due.origin, .removePending])

end UniverseStore

/-! ## Runs -/

/-- What the service asks of the store. -/
inductive StoreOperation (δ : Type) [DecimalArithmetic δ] where
  | initializeStore (policy : UniversePolicyConfig δ) (now : Int)
  | observeAndPlan (snapshot : DiscoverySnapshot) (now : Int)
  | hasDue (now : Int)
  | applyDue (now : Int)

/-- What happens to a store and its files. -/
inductive StoreLabel (δ : Type) [DecimalArithmetic δ] where
  | perform (operation : StoreOperation δ)
  /-- The process dies in an operation, after some of its writes. -/
  | crash (operation : StoreOperation δ) (count : Nat)
  | placeOverride (file : String) (content : Option CandidateOverride)
  /-- The service writes `formal-start.json`. -/
  | startFormally

/-- A process with an initialized store, or none, and the files. -/
structure StoreState (δ : Type) [DecimalArithmetic δ] where
  store : Option (UniverseStore δ)
  disk : UniverseDisk

namespace StoreState

/-- The effect of an operation; all but `initialize` need a store. -/
def effect (state : StoreState δ) : StoreOperation δ → Option (Effect δ)
  | .initializeStore policy now => initializeStore state.disk policy now
  | .observeAndPlan snapshot now =>
      state.store.map fun store =>
        store.observeAndPlan state.disk snapshot now
  | .hasDue _ =>
      state.store.map fun store => (store, store.rejections state.disk)
  | .applyDue now =>
      state.store.map fun store => store.applyDue state.disk now

end StoreState

/-- One label. -/
def storeStep (state : StoreState δ) : StoreLabel δ → Option (StoreState δ)
  | .perform operation =>
      (state.effect operation).map fun effect =>
        { store := some effect.1, disk := state.disk.writeAll effect.2 }
  | .crash operation count =>
      (state.effect operation).map fun effect =>
        { store := none
          disk := state.disk.writeAll (effect.2.take count) }
  | .placeOverride file content =>
      some { state with
        disk := { state.disk with
          overrides := state.disk.overrides.set file content } }
  | .startFormally =>
      some { state with disk := { state.disk with formalStart := true } }

/-- No process and no file yet. -/
def emptyStore (δ : Type) [DecimalArithmetic δ] : StoreState δ where
  store := none
  disk := {}

end Store

end ShadowDataPlane.Edge
