import ShadowDataPlane.Central.UniverseEvidence
import ShadowDataPlane.Edge.UniverseVersions

/-!
# The universe as the edge announces it

The collector announces its active universe when it has become ready and at
each midnight, announces a decision which it has planned for a later midnight,
and announces the formal start once.  Every announcement is an event of the
control writer, whose chunks carry the universe hash of the last rotation.
What has not reached a finished chunk is lost in a crash.

The service and its discovery take turns between two awaits.  A boundary and a
recovery hold the operation lock, as does a discovery; the first formal start
of a boot is marked without it.  The clock does not go back.

The centre knows the universe of a day from these events alone.  As long as
every plan is announced before it is effective, it takes the decision which
has been announced last as in force, and it accepts a formal start if and only
if no other decision has come into force since (`universe_evidence_agrees`).
-/

namespace ShadowDataPlane.Transfer

open ShadowDataPlane.Foundation
open ShadowDataPlane.Contracts
open ShadowDataPlane.Central
open ShadowDataPlane.Edge

/-! ## Announcements -/

/-- What an event of the control writer says. -/
inductive ControlPayload where
  | decision (decision : UniverseDecision)
  | formalStart (experimentId : String) (active : UniverseDecision)
deriving DecidableEq

/-- An event of the control writer, with the hash of its chunk. -/
structure ControlEvent where
  observedNs : Nat
  payload : ControlPayload
  chunkUniverseHash : String
deriving DecidableEq

/-- What the service does about its active universe, between two awaits. -/
inductive AnnounceStep where
  /-- `WriterPool` with the universe hash. -/
  | openWriters
  /-- `IngestCoordinator.rotate`. -/
  | rotate
  | announce
  | emitFormalStart
  | writeFormalStart
deriving DecidableEq

section Machine

variable {δ : Type} [DecimalArithmetic δ]

/-- What the service has in hand. -/
inductive ServiceWork (δ : Type) [DecimalArithmetic δ] where
  | idle
  | initializeStore (policy : UniversePolicyConfig δ)
  /-- `apply_due` at a boot, or at the midnight of a date. -/
  | applyDue (boundary : Option Nat)
  | announce (active : UniverseDecision) (steps : List AnnounceStep)

/-- What the discovery has in hand. -/
inductive DiscoveryWork where
  | idle
  | plan (snapshot : DiscoverySnapshot)
  | announcePlan (decision : UniverseDecision)

/-- The collector, the files of its universe, and its control chunks. -/
structure FeedState (δ : Type) [DecimalArithmetic δ] where
  store : StoreState δ
  service : ServiceWork δ := .idle
  /-- Whether the service holds the operation lock. -/
  locked : Bool := false
  discovery : DiscoveryWork := .idle
  writerHash : String := ""
  openChunk : List ControlEvent := []
  finished : List ControlEvent := []
  nowNs : Nat := 0

/-- The steps of the collector, of its operator and of the clock. -/
inductive FeedLabel (δ : Type) [DecimalArithmetic δ] where
  | tick (nowNs : Nat)
  | boot (policy : UniversePolicyConfig δ)
  /-- `_mark_formal_start`, at a boot or in a recovery. -/
  | markFormalStart (locked : Bool)
  | midnightBoundary (utcDate : Nat)
  | onDiscovery (snapshot : DiscoverySnapshot)
  /-- The service goes on to its next await. -/
  | serve
  /-- The discovery goes on to its next await. -/
  | discover
  /-- The chunk has reached a limit. -/
  | rollChunk
  | placeOverride (file : String) (content : Option CandidateOverride)
  | stop
  | crash
  /-- The process dies in the writes of the service. -/
  | crashServing (count : Nat)
  /-- The process dies in the writes of the discovery. -/
  | crashDiscovering (count : Nat)

namespace FeedState

/-- The clock in microseconds. -/
def now (state : FeedState δ) : Int := (state.nowNs : Int) / 1000

def serviceIdle (state : FeedState δ) : Bool :=
  match state.service with
  | .idle | .announce _ [] => true
  | _ => false

def discoveryIdle (state : FeedState δ) : Bool :=
  match state.discovery with
  | .idle => true
  | _ => false

/-- An event is put into the open chunk. -/
def emit (state : FeedState δ) (payload : ControlPayload) : FeedState δ :=
  { state with
    openChunk := state.openChunk ++
      [⟨state.nowNs, payload, state.writerHash⟩] }

/-- The open chunk is finished. -/
def finishChunk (state : FeedState δ) : FeedState δ :=
  { state with
    finished := state.finished ++ state.openChunk
    openChunk := [] }

/-- The process is gone. -/
def ended (state : FeedState δ) (disk : UniverseDisk) : FeedState δ :=
  { state with
    store := { store := none, disk }
    service := .idle
    locked := false
    discovery := .idle
    openChunk := [] }

/-- What the service asks of the store. -/
def serviceOperation (state : FeedState δ) : Option (StoreOperation δ) :=
  match state.service with
  | .initializeStore policy => some (.initializeStore policy state.now)
  | .applyDue none => some (.applyDue state.now)
  | .applyDue (some utcDate) =>
      if midnightNs utcDate ≤ state.nowNs then
        some (.applyDue (utcDate * usPerDay))
      else none
  | .idle | .announce _ _ => none

/-- What the discovery asks of the store. -/
def discoveryOperation (state : FeedState δ) : Option (StoreOperation δ) :=
  match state.discovery with
  | .plan snapshot => some (.observeAndPlan snapshot snapshot.observedAt)
  | .idle | .announcePlan _ => none

end FeedState

/-- What follows an operation of the service. -/
def workAfter (work : ServiceWork δ) (active : UniverseDecision) :
    ServiceWork δ :=
  match work with
  | .initializeStore _ => .applyDue none
  | .applyDue none => .announce active [.openWriters]
  | .applyDue (some _) => .announce active [.rotate, .announce, .rotate]
  | .idle | .announce _ _ => .idle

/-- The decision which `observe_and_plan` returns. -/
def plannedIn (writes : List StoreWrite) : Option UniverseDecision :=
  writes.findSome? fun
    | .pending plan => some plan.decision
    | _ => none

/-- `_mark_formal_start`, given whether `formal-start.json` exists. -/
def markSteps (formalStart : Bool) : List AnnounceStep :=
  if formalStart then [.announce, .rotate]
  else [.announce, .emitFormalStart, .rotate, .writeFormalStart]

section Hash

variable (universeHash : List String → List String → List String → String)
  (experimentId : String)

/-- One step about the active universe. -/
def announceStep (state : FeedState δ) (active : UniverseDecision) :
    AnnounceStep → FeedState δ
  | .openWriters =>
      { state with
        writerHash := decisionHash universeHash active
        openChunk := [] }
  | .rotate =>
      { state.finishChunk with
        writerHash := decisionHash universeHash active }
  | .announce => state.emit (.decision active)
  | .emitFormalStart => state.emit (.formalStart experimentId active)
  | .writeFormalStart =>
      { state with
        store := { state.store with
          disk := { state.store.disk with formalStart := true } } }

/-- The service up to its next await. -/
def serve (state : FeedState δ) : Option (FeedState δ) :=
  match state.service with
  | .idle | .announce _ [] => none
  | .announce active (step :: steps) =>
      some
        { announceStep universeHash experimentId state active step with
          service := .announce active steps }
  | .initializeStore _ | .applyDue _ =>
      state.serviceOperation.bind fun operation =>
        (state.store.effect operation).map fun effect =>
          { state with
            store :=
              { store := some effect.1
                disk := state.store.disk.writeAll effect.2 }
            service := workAfter state.service effect.1.active }

/-- The discovery up to its next await. -/
def discover (state : FeedState δ) : Option (FeedState δ) :=
  match state.discovery with
  | .idle => none
  | .announcePlan decision =>
      some { state.emit (.decision decision) with discovery := .idle }
  | .plan _ =>
      state.discoveryOperation.bind fun operation =>
        (state.store.effect operation).map fun effect =>
          { state with
            store :=
              { store := some effect.1
                disk := state.store.disk.writeAll effect.2 }
            discovery :=
              match plannedIn effect.2 with
              | none => .idle
              | some decision => .announcePlan decision }

/-- The process dies after some of the writes of an operation. -/
def crashIn (state : FeedState δ) (operation : Option (StoreOperation δ))
    (count : Nat) : Option (FeedState δ) :=
  operation.bind fun operation =>
    (state.store.effect operation).map fun effect =>
      state.ended (state.store.disk.writeAll (effect.2.take count))

def feedStep (state : FeedState δ) : FeedLabel δ → Option (FeedState δ)
  | .tick nowNs =>
      if state.nowNs ≤ nowNs then some { state with nowNs } else none
  | .boot policy =>
      if state.store.store.isNone ∧ state.serviceIdle then
        some { state with service := .initializeStore policy, locked := true }
      else none
  | .markFormalStart locked =>
      state.store.store.bind fun store =>
        if state.serviceIdle ∧ (locked → state.discoveryIdle) then
          some
            { state with
              service :=
                .announce store.active (markSteps state.store.disk.formalStart)
              locked }
        else none
  | .midnightBoundary utcDate =>
      if state.store.store.isSome ∧ state.serviceIdle ∧
          state.discoveryIdle then
        some
          { state with service := .applyDue (some utcDate), locked := true }
      else none
  | .onDiscovery snapshot =>
      if state.store.store.isSome ∧ state.discoveryIdle ∧
          (state.serviceIdle ∨ state.locked = false) then
        some { state with discovery := .plan snapshot }
      else none
  | .serve => serve universeHash experimentId state
  | .discover => discover state
  | .rollChunk => some state.finishChunk
  | .placeOverride file content =>
      (storeStep state.store (.placeOverride file content)).map fun store =>
        { state with store }
  | .stop => some (state.finishChunk.ended state.store.disk)
  | .crash => some (state.ended state.store.disk)
  | .crashServing count => crashIn state state.serviceOperation count
  | .crashDiscovering count => crashIn state state.discoveryOperation count

end Hash

/-! ## One universe after another -/

/-- The same decision, effective from the same instant. -/
structure SameUniverse (left right : UniverseDecision) : Prop where
  decision : SameDecision left right
  effectiveAt : left.effectiveAt = right.effectiveAt

theorem SameUniverse.refl (decision : UniverseDecision) :
    SameUniverse decision decision :=
  ⟨SameDecision.refl decision, rfl⟩

theorem SameUniverse.symm
    {left right : UniverseDecision} (same : SameUniverse left right) :
    SameUniverse right left :=
  ⟨same.decision.symm, same.effectiveAt.symm⟩

theorem SameUniverse.trans
    {first second third : UniverseDecision}
    (before : SameUniverse first second) (after : SameUniverse second third) :
    SameUniverse first third :=
  ⟨before.decision.trans after.decision,
    before.effectiveAt.trans after.effectiveAt⟩

theorem SameUniverse.hash_eq
    {left right : UniverseDecision} (same : SameUniverse left right)
    (universeHash : List String → List String → List String → String) :
    decisionHash universeHash left = decisionHash universeHash right := by
  rw [decisionHash, decisionHash, same.decision.core,
    same.decision.boundary, same.decision.probe]

/-- The same universe, or one which replaced it at a later midnight. -/
def UpTo (earlier later : UniverseDecision) : Prop :=
  SameUniverse earlier later ∨
    earlier.decisionSequence < later.decisionSequence ∧
      IsMidnight later.effectiveAt

theorem UpTo.refl (decision : UniverseDecision) : UpTo decision decision :=
  Or.inl (SameUniverse.refl decision)

theorem UpTo.trans
    {first second third : UniverseDecision} (before : UpTo first second)
    (after : UpTo second third) : UpTo first third := by
  rcases before with same | ⟨below, midnight⟩
  · rcases after with still | ⟨below, midnight⟩
    · exact Or.inl (same.trans still)
    · exact Or.inr ⟨same.decision.sequence ▸ below, midnight⟩
  · rcases after with still | ⟨further, last⟩
    · exact Or.inr ⟨still.decision.sequence ▸ below,
        still.effectiveAt ▸ midnight⟩
    · exact Or.inr ⟨below.trans further, last⟩

theorem UpTo.sequence_le
    {earlier later : UniverseDecision} (upTo : UpTo earlier later) :
    earlier.decisionSequence ≤ later.decisionSequence := by
  rcases upTo with same | ⟨below, _⟩
  · exact same.decision.sequence.le
  · exact below.le

/-- Two universes with one sequence number are the same. -/
theorem UpTo.same_of_sequence
    {earlier later : UniverseDecision} (upTo : UpTo earlier later)
    (sequence : earlier.decisionSequence = later.decisionSequence) :
    SameUniverse earlier later := by
  rcases upTo with same | ⟨below, _⟩
  · exact same
  · exact absurd sequence below.ne

/-! ## The files of the universe -/

/-- What is active is effective, and what is planned begins at a midnight. -/
structure Current (nowNs : Nat) (disk : UniverseDisk) : Prop where
  effective : ∀ active, disk.active = some active →
    microsecondsNs active.effectiveAt ≤ nowNs
  planned : ∀ plan, disk.pending = some plan →
    IsMidnight plan.decision.effectiveAt

/-- A write which keeps the files current. -/
def Timed (nowNs : Nat) (disk : UniverseDisk) : StoreWrite → Prop
  | .activate due =>
      microsecondsNs due.decision.effectiveAt ≤ nowNs ∧
        ∀ active, disk.active = some active →
          active.decisionSequence < due.decision.decisionSequence ∧
            IsMidnight due.decision.effectiveAt
  | .refresh decision =>
      ∃ active, disk.active = some active ∧ SameUniverse active decision
  | .pending plan => IsMidnight plan.decision.effectiveAt
  | _ => True

/-- The files later on. -/
structure Advances (nowNs : Nat) (before after : UniverseDisk) : Prop where
  current : Current nowNs after
  active : ∀ earlier, before.active = some earlier →
    ∃ later, after.active = some later ∧ UpTo earlier later
  history : ∀ activation ∈ before.history, activation ∈ after.history

theorem Advances.refl
    {nowNs : Nat} {disk : UniverseDisk} (current : Current nowNs disk) :
    Advances nowNs disk disk :=
  ⟨current, fun earlier isActive => ⟨earlier, isActive, UpTo.refl earlier⟩,
    fun _ => id⟩

theorem Advances.write
    {nowNs : Nat} {start disk : UniverseDisk} {change : StoreWrite}
    (advances : Advances nowNs start disk) (timed : Timed nowNs disk change) :
    Advances nowNs start (disk.write change) := by
  cases change with
  | activate due =>
      rcases timed with ⟨effective, later⟩
      exact {
        current := {
          effective := by
            rintro _ ⟨⟩
            exact effective
          planned := advances.current.planned }
        active := by
          intro earlier isActive
          rcases advances.active earlier isActive with ⟨middle, isMiddle, upTo⟩
          exact ⟨due.decision, rfl,
            upTo.trans (Or.inr (later middle isMiddle))⟩
        history := fun activation member =>
          List.mem_append_left _ (advances.history activation member) }
  | refresh decision =>
      rcases timed with ⟨middle, isMiddle, same⟩
      exact {
        current := {
          effective := by
            rintro _ ⟨⟩
            exact same.effectiveAt ▸
              advances.current.effective middle isMiddle
          planned := advances.current.planned }
        active := by
          intro earlier isActive
          rcases advances.active earlier isActive with ⟨other, isOther, upTo⟩
          cases Option.some.inj (isMiddle.symm.trans isOther)
          exact ⟨decision, rfl, upTo.trans (Or.inl same)⟩
        history := advances.history }
  | pending plan =>
      exact {
        current := {
          effective := advances.current.effective
          planned := by
            rintro _ ⟨⟩
            exact timed }
        active := advances.active
        history := advances.history }
  | removePending =>
      exact {
        current := {
          effective := advances.current.effective
          planned := by
            rintro plan ⟨⟩ }
        active := advances.active
        history := advances.history }
  | observation | evaluation | archive | membership | removeOverride
  | rejectOverride =>
      exact ⟨⟨advances.current.effective, advances.current.planned⟩,
        advances.active, advances.history⟩

theorem isLog_timed
    {nowNs : Nat} (disk : UniverseDisk) (change : StoreWrite)
    (isLog : change.IsLog) : Timed nowNs disk change := by
  cases change with
  | observation | evaluation | archive | removeOverride | rejectOverride =>
      trivial
  | activate | refresh | membership | pending | removePending => cases isLog

/-- What is planned begins at a midnight. -/
theorem isMidnight_of_plannedDecision
    {store : UniverseStore δ} {result : SelectionResult}
    {now effectiveAt : Int} {decision : UniverseDecision}
    (planned : store.plannedDecision result now effectiveAt = .ok decision) :
    IsMidnight decision.effectiveAt := by
  apply decision.valid.midnight
  rw [UniverseDecision.validate_eq_ok_iff.mp planned]
  simp only [decisionReason]
  split
  next => decide
  next => split <;> decide

/-- What is due begins at a midnight. -/
theorem isMidnight_of_selectDue
    {nowNs : Nat} {store : UniverseStore δ} {disk : UniverseDisk} {now : Int}
    {due : Activation} (current : Current nowNs disk)
    (selected : store.selectDue disk now = some due) :
    IsMidnight due.decision.effectiveAt := by
  rcases selectDue_cases selected with
    ⟨_, isPending | ⟨_, override, _, _, accepted⟩⟩
  · exact current.planned due isPending
  · apply due.decision.valid.midnight
    rw [decisionFromOverride_eq_ok accepted]
    rintro ⟨⟩

/-- The instant of an operation is not in the future. -/
def Punctual (nowNs : Nat) : StoreOperation δ → Prop
  | .initializeStore _ now | .applyDue now => microsecondsNs now ≤ nowNs
  | .observeAndPlan _ _ | .hasDue _ => True

theorem microsecondsNs_mono {left right : Int} (ordered : left ≤ right) :
    microsecondsNs left ≤ microsecondsNs right :=
  Int.mul_le_mul_of_nonneg_right ordered (by decide)

/-- Every write of an operation is timed where it is made. -/
theorem effect_timed
    {nowNs : Nat} {state : StoreState δ} (current : Current nowNs state.disk)
    (active : ∀ store, state.store = some store →
      state.disk.active = some store.active)
    {operation : StoreOperation δ} (punctual : Punctual nowNs operation)
    {effect : Effect δ} (performed : state.effect operation = some effect) :
    StepsMeet writeStep (Timed nowNs) state.disk effect.2 := by
  cases operation with
  | initializeStore policy now =>
      simp only [StoreState.effect, initializeStore] at performed
      split at performed
      next =>
        split at performed
        next => cases performed
        next =>
          cases performed
          trivial
      next noActive =>
        cases performed
        refine ⟨⟨punctual, fun other isOther => ?_⟩, trivial, trivial, trivial⟩
        exact absurd (noActive.symm.trans isOther) (by simp)
  | observeAndPlan snapshot now =>
      rcases Option.map_eq_some_iff.mp performed with ⟨store, stored, rfl⟩
      have isActive := active store stored
      simp only [UniverseStore.observeAndPlan]
      split
      next =>
        split
        next => exact ⟨trivial, trivial⟩
        next =>
          refine ⟨trivial, ⟨store.active, isActive, ?_⟩, trivial, trivial,
            trivial⟩
          exact ⟨⟨⟨rfl, rfl, rfl⟩, rfl, rfl, rfl⟩, rfl⟩
      next =>
        split
        next => exact ⟨trivial, trivial⟩
        next =>
          split
          next => exact ⟨trivial, trivial⟩
          next =>
            split
            next => exact ⟨trivial, trivial, trivial, trivial⟩
            next =>
              split
              next => exact ⟨trivial, trivial, trivial⟩
              next planned =>
                exact ⟨trivial, trivial, isMidnight_of_plannedDecision planned,
                  trivial⟩
  | hasDue now =>
      rcases Option.map_eq_some_iff.mp performed with ⟨store, _, rfl⟩
      rw [← List.append_nil (store.rejections state.disk)]
      exact stepsMeet_logs isLog_timed
        (rejections_are_logs store state.disk) state.disk fun _ _ => trivial
  | applyDue now =>
      rcases Option.map_eq_some_iff.mp performed with ⟨store, stored, rfl⟩
      have isActive := active store stored
      simp only [UniverseStore.applyDue]
      split
      next =>
        rw [← List.append_nil (store.rejections state.disk)]
        exact stepsMeet_logs isLog_timed
          (rejections_are_logs store state.disk) state.disk fun _ _ => trivial
      next due selected =>
        rcases (selectDue_cases selected).1 with ⟨later, reached⟩
        rw [List.append_assoc]
        apply stepsMeet_logs isLog_timed (rejections_are_logs store state.disk)
        intro after same
        refine ⟨⟨(microsecondsNs_mono reached).trans punctual,
          fun other isOther => ?_⟩, trivial, trivial, ?_, trivial, trivial⟩
        · rw [same.active, isActive] at isOther
          cases isOther
          exact ⟨later, isMidnight_of_selectDue current selected⟩
        · cases due.origin <;> trivial

/-- The files advance in an operation, wherever a crash cuts it off. -/
theorem advances_of_effect
    {nowNs : Nat} {state : StoreState δ} (current : Current nowNs state.disk)
    (active : ∀ store, state.store = some store →
      state.disk.active = some store.active)
    {operation : StoreOperation δ} (punctual : Punctual nowNs operation)
    {effect : Effect δ} (performed : state.effect operation = some effect)
    (count : Nat) :
    Advances nowNs state.disk
      (state.disk.writeAll (effect.2.take count)) := by
  apply invariant_of_writes (fun _ _ => Advances.write)
  · exact Advances.refl current
  · exact effect_timed current active punctual performed

/-- What an observation plans begins at a midnight. -/
theorem isMidnight_of_plannedIn
    {state : StoreState δ} {snapshot : DiscoverySnapshot} {now : Int}
    {effect : Effect δ}
    (performed : state.effect (.observeAndPlan snapshot now) = some effect)
    {decision : UniverseDecision}
    (planned : plannedIn effect.2 = some decision) :
    IsMidnight decision.effectiveAt := by
  rcases Option.map_eq_some_iff.mp performed with ⟨store, stored, rfl⟩
  simp only [UniverseStore.observeAndPlan] at planned
  split at planned
  next => split at planned <;> cases planned
  next =>
    split at planned
    next => cases planned
    next =>
      split at planned
      next => cases planned
      next =>
        split at planned
        next => cases planned
        next =>
          split at planned
          next => cases planned
          next built =>
            cases planned
            exact isMidnight_of_plannedDecision built

/-! ## What is announced -/

namespace ControlEvent

/-- The decision which an event names. -/
def decision (event : ControlEvent) : UniverseDecision :=
  match event.payload with
  | .decision decision | .formalStart _ decision => decision

/-- Whether an event names a decision which is effective. -/
def InForce (event : ControlEvent) : Prop :=
  microsecondsNs event.decision.effectiveAt ≤ event.observedNs

instance (event : ControlEvent) : Decidable event.InForce :=
  inferInstanceAs (Decidable (_ ≤ _))

def IsStart (event : ControlEvent) : Prop :=
  match event.payload with
  | .formalStart _ _ => True
  | .decision _ => False

instance (event : ControlEvent) : Decidable event.IsStart :=
  match event with
  | ⟨_, .formalStart _ _, _⟩ => inferInstanceAs (Decidable True)
  | ⟨_, .decision _, _⟩ => inferInstanceAs (Decidable False)

end ControlEvent

/-- What the collector knows of an event which it has announced. -/
structure Announced
    (universeHash : List String → List String → List String → String)
    (experimentId : String) (nowNs : Nat) (disk : UniverseDisk)
    (event : ControlEvent) : Prop where
  observed : event.observedNs ≤ nowNs
  planned : ¬ event.InForce → IsMidnight event.decision.effectiveAt
  start : event.IsStart →
    event.InForce ∧ event.payload = .formalStart experimentId event.decision
  hash : event.InForce →
    decisionHash universeHash event.decision = event.chunkUniverseHash
  active : event.InForce →
    ∃ active, disk.active = some active ∧ UpTo event.decision active
  history : event.InForce → ∃ activation ∈ disk.history,
    SameDecision activation.decision event.decision

/-- The order of two announcements. -/
structure Precedes (earlier later : ControlEvent) : Prop where
  observed : earlier.observedNs ≤ later.observedNs
  upTo : earlier.InForce → later.InForce →
    UpTo earlier.decision later.decision

/-- Two announcements in either order. -/
def Comparable (left right : ControlEvent) : Prop :=
  Precedes left right ∨ Precedes right left

/-- The work after which the writer has the hash of the active universe. -/
def Prepares : ServiceWork δ → Prop
  | .initializeStore _ | .applyDue _ | .announce _ (.openWriters :: _)
  | .announce _ (.rotate :: _) => True
  | .idle | .announce _ _ => False

def FeedState.events (state : FeedState δ) : List ControlEvent :=
  state.finished ++ state.openChunk

section Invariant

variable {universeHash : List String → List String → List String → String}
  {experimentId : String}

/-- The collector announces what its files say. -/
structure FeedSound
    (universeHash : List String → List String → List String → String)
    (experimentId : String) (state : FeedState δ) : Prop where
  store : state.store.Ordered
  current : Current state.nowNs state.store.disk
  captured : ∀ active steps, state.service = .announce active steps →
    ∃ store, state.store.store = some store ∧
      SameUniverse active store.active
  hash : ∀ store, state.store.store = some store →
    state.writerHash = decisionHash universeHash store.active ∨
      Prepares state.service
  discovery : ∀ decision, state.discovery = .announcePlan decision →
    IsMidnight decision.effectiveAt
  announced : ∀ event ∈ state.events,
    Announced universeHash experimentId state.nowNs state.store.disk event
  ordered : state.events.Pairwise Precedes

theorem Announced.advance
    {nowNs laterNs : Nat} {before after : UniverseDisk} {event : ControlEvent}
    (announced : Announced universeHash experimentId nowNs before event)
    (later : nowNs ≤ laterNs) (advances : Advances laterNs before after) :
    Announced universeHash experimentId laterNs after event where
  observed := announced.observed.trans later
  planned := announced.planned
  start := announced.start
  hash := announced.hash
  active := by
    intro inForce
    rcases announced.active inForce with ⟨active, isActive, upTo⟩
    rcases advances.active active isActive with ⟨other, isOther, further⟩
    exact ⟨other, isOther, upTo.trans further⟩
  history := by
    intro inForce
    rcases announced.history inForce with ⟨activation, member, same⟩
    exact ⟨activation, advances.history activation member, same⟩

/-- An announcement which the files confirm follows all others. -/
theorem FeedSound.precedes
    {state : FeedState δ} (sound : FeedSound universeHash experimentId state)
    {payload : ControlPayload} {hash : String}
    (names : ∀ active,
      (⟨state.nowNs, payload, hash⟩ : ControlEvent).InForce →
        state.store.disk.active = some active →
          UpTo active (⟨state.nowNs, payload, hash⟩ : ControlEvent).decision) :
    ∀ event ∈ state.events, Precedes event ⟨state.nowNs, payload, hash⟩ := by
  intro event isEvent
  have announced := sound.announced event isEvent
  refine ⟨announced.observed, fun inForce isInForce => ?_⟩
  rcases announced.active inForce with ⟨active, isActive, upTo⟩
  exact upTo.trans (names active isInForce isActive)

/-- A new event keeps the announcements sound. -/
theorem FeedSound.emit
    {state : FeedState δ} (sound : FeedSound universeHash experimentId state)
    {payload : ControlPayload}
    (announced : Announced universeHash experimentId state.nowNs
      state.store.disk ⟨state.nowNs, payload, state.writerHash⟩)
    (names : ∀ active,
      (⟨state.nowNs, payload, state.writerHash⟩ : ControlEvent).InForce →
        state.store.disk.active = some active → UpTo active
          (⟨state.nowNs, payload, state.writerHash⟩ :
            ControlEvent).decision) :
    FeedSound universeHash experimentId (state.emit payload) where
  store := sound.store
  current := sound.current
  captured := sound.captured
  hash := sound.hash
  discovery := sound.discovery
  announced := by
    intro event isEvent
    rw [FeedState.events, FeedState.emit, ← List.append_assoc] at isEvent
    rcases List.mem_append.mp isEvent with old | new
    · exact sound.announced event old
    · exact List.mem_singleton.mp new ▸ announced
  ordered := by
    rw [FeedState.events, FeedState.emit, ← List.append_assoc,
      List.pairwise_append]
    refine ⟨sound.ordered, List.pairwise_singleton _ _, ?_⟩
    intro event isEvent other isOther
    exact List.mem_singleton.mp isOther ▸ sound.precedes names event isEvent

/-- The clock and the files go on, and the events stay. -/
theorem FeedSound.advance
    {before after : FeedState δ}
    (sound : FeedSound universeHash experimentId before)
    (later : before.nowNs ≤ after.nowNs)
    (advances : Advances after.nowNs before.store.disk after.store.disk)
    (kept : after.events.Sublist before.events)
    (store : after.store.Ordered)
    (captured : ∀ active steps, after.service = .announce active steps →
      ∃ store, after.store.store = some store ∧
        SameUniverse active store.active)
    (hash : ∀ store, after.store.store = some store →
      after.writerHash = decisionHash universeHash store.active ∨
        Prepares after.service)
    (discovery : ∀ decision, after.discovery = .announcePlan decision →
      IsMidnight decision.effectiveAt) :
    FeedSound universeHash experimentId after where
  store := store
  current := advances.current
  captured := captured
  hash := hash
  discovery := discovery
  announced := fun event isEvent =>
    (sound.announced event (kept.subset isEvent)).advance later advances
  ordered := sound.ordered.sublist kept

theorem FeedSound.finishChunk
    {state : FeedState δ} (sound : FeedSound universeHash experimentId state) :
    FeedSound universeHash experimentId state.finishChunk := by
  have kept : state.finishChunk.events.Sublist state.events := by
    rw [FeedState.events, FeedState.events, FeedState.finishChunk,
      List.append_nil]
  exact sound.advance le_rfl (Advances.refl sound.current) kept sound.store
    sound.captured sound.hash sound.discovery

/-- A process which is gone leaves its finished events. -/
theorem FeedSound.ended
    {state : FeedState δ} (sound : FeedSound universeHash experimentId state)
    {disk : UniverseDisk} (ordered : DiskOrdered disk)
    (advances : Advances state.nowNs state.store.disk disk) :
    FeedSound universeHash experimentId (state.ended disk) := by
  have kept : (state.ended disk).events.Sublist state.events := by
    rw [FeedState.events, FeedState.ended, List.append_nil]
    exact List.sublist_append_left _ _
  refine sound.advance le_rfl advances kept ⟨ordered, ?_⟩ ?_ ?_ ?_
  · rintro store ⟨⟩
  · rintro active steps ⟨⟩
  · rintro store ⟨⟩
  · rintro decision ⟨⟩

/-- The operations of the service are not ahead of the clock. -/
theorem punctual_serviceOperation
    {state : FeedState δ} {operation : StoreOperation δ}
    (asked : state.serviceOperation = some operation) :
    Punctual state.nowNs operation := by
  have passed : microsecondsNs state.now ≤ state.nowNs := by
    simp only [microsecondsNs, FeedState.now]
    omega
  unfold FeedState.serviceOperation at asked
  split at asked
  next =>
    cases asked
    exact passed
  next =>
    cases asked
    exact passed
  next utcDate _ =>
    split at asked
    next reached =>
      cases asked
      rw [midnightNs_eq] at reached
      simp only [Punctual, microsecondsNs, usPerDay]
      omega
    next => cases asked
  all_goals cases asked

theorem punctual_discoveryOperation
    {state : FeedState δ} {operation : StoreOperation δ}
    (asked : state.discoveryOperation = some operation) :
    Punctual state.nowNs operation := by
  unfold FeedState.discoveryOperation at asked
  split at asked
  next =>
    cases asked
    trivial
  all_goals cases asked

/-- A discovery leaves the universe as it is. -/
theorem sameUniverse_of_observeAndPlan
    {state : StoreState δ} {snapshot : DiscoverySnapshot} {now : Int}
    {effect : Effect δ}
    (performed : state.effect (.observeAndPlan snapshot now) = some effect) :
    ∃ store, state.store = some store ∧
      SameUniverse store.active effect.1.active := by
  rcases Option.map_eq_some_iff.mp performed with ⟨store, stored, rfl⟩
  refine ⟨store, stored, ?_⟩
  have kept := SameUniverse.refl store.active
  simp only [UniverseStore.observeAndPlan]
  split
  next =>
    split
    next => exact kept
    next => exact ⟨⟨⟨rfl, rfl, rfl⟩, rfl, rfl, rfl⟩, rfl⟩
  next =>
    split
    next => exact kept
    next =>
      split
      next => exact kept
      next =>
        split
        next => exact kept
        next => split <;> exact kept

/-- The active universe is announced with the hash of the writer. -/
theorem FeedSound.announced_active
    {state : FeedState δ} (sound : FeedSound universeHash experimentId state)
    {active : UniverseDecision} {steps : List AnnounceStep}
    (serving : state.service = .announce active steps)
    (ready : ¬ Prepares state.service) {payload : ControlPayload}
    (isPayload : payload = .decision active ∨
      payload = .formalStart experimentId active) :
    FeedSound universeHash experimentId (state.emit payload) := by
  rcases sound.captured active steps serving with ⟨store, stored, same⟩
  have isActive := sound.store.active store stored
  have names : (⟨state.nowNs, payload, state.writerHash⟩ :
      ControlEvent).decision = active := by
    rcases isPayload with rfl | rfl <;> rfl
  have inForce : (⟨state.nowNs, payload, state.writerHash⟩ :
      ControlEvent).InForce := by
    rw [ControlEvent.InForce, names, same.effectiveAt]
    exact sound.current.effective store.active isActive
  apply sound.emit
  · exact {
      observed := le_rfl
      planned := fun later => absurd inForce later
      start := by
        intro isStart
        refine ⟨inForce, ?_⟩
        rw [names]
        rcases isPayload with rfl | rfl
        · cases isStart
        · rfl
      hash := by
        intro _
        rw [names, same.hash_eq universeHash]
        exact ((sound.hash store stored).resolve_right ready).symm
      active := by
        intro _
        rw [names]
        exact ⟨store.active, isActive, Or.inl same⟩
      history := by
        intro _
        rcases sound.store.disk.current store.active isActive with
          ⟨activation, isLast, earlier⟩
        rw [names]
        exact ⟨activation, List.mem_of_getLast? isLast,
          earlier.trans same.decision.symm⟩ }
  · intro other _ isOther
    cases Option.some.inj (isActive.symm.trans isOther)
    rw [names]
    exact Or.inl same.symm

/-- The service goes on to other work, and its writer keeps its hash. -/
theorem FeedSound.withService
    {state : FeedState δ} (sound : FeedSound universeHash experimentId state)
    {work : ServiceWork δ}
    (captured : ∀ active steps, work = .announce active steps →
      ∃ store, state.store.store = some store ∧
        SameUniverse active store.active)
    (ready : Prepares state.service → Prepares work) (locked : Bool) :
    FeedSound universeHash experimentId
      { state with service := work, locked } :=
  sound.advance le_rfl (Advances.refl sound.current) (List.Sublist.refl _)
    sound.store captured
    (fun store stored => (sound.hash store stored).imp_right ready)
    sound.discovery

/-- The writer takes the hash of the universe which the service has in hand. -/
theorem FeedSound.rehash
    {state : FeedState δ} (sound : FeedSound universeHash experimentId state)
    {active : UniverseDecision} {steps rest : List AnnounceStep}
    (serving : state.service = .announce active steps) :
    FeedSound universeHash experimentId
      { state with
        writerHash := decisionHash universeHash active
        service := .announce active rest } := by
  rcases sound.captured active steps serving with ⟨store, stored, same⟩
  refine sound.advance le_rfl (Advances.refl sound.current)
    (List.Sublist.refl _) sound.store ?_ ?_ sound.discovery
  · rintro _ _ ⟨⟩
    exact ⟨store, stored, same⟩
  · intro other isOther
    cases Option.some.inj (stored.symm.trans isOther)
    exact Or.inl (same.hash_eq universeHash)

/-- Nothing is in an open chunk. -/
theorem FeedSound.dropChunk
    {state : FeedState δ}
    (sound : FeedSound universeHash experimentId state) :
    FeedSound universeHash experimentId { state with openChunk := [] } := by
  refine sound.advance le_rfl (Advances.refl sound.current) ?_ sound.store
    sound.captured sound.hash sound.discovery
  exact (List.Sublist.refl state.finished).append (List.nil_sublist _)

theorem FeedSound.announceStep
    {state : FeedState δ} (sound : FeedSound universeHash experimentId state)
    {active : UniverseDecision} {step : AnnounceStep}
    {rest : List AnnounceStep}
    (serving : state.service = .announce active (step :: rest)) :
    FeedSound universeHash experimentId
      { announceStep universeHash experimentId state active step with
        service := .announce active rest } := by
  have captured := sound.captured active (step :: rest) serving
  cases step with
  | openWriters => exact sound.dropChunk.rehash serving
  | rotate => exact sound.finishChunk.rehash serving
  | announce =>
      have ready : ¬ Prepares state.service := by
        rw [serving]
        exact not_false
      refine (sound.announced_active serving ready
        (Or.inl rfl)).withService ?_ (fun prepares => absurd prepares ready)
        state.locked
      rintro _ _ ⟨⟩
      exact captured
  | emitFormalStart =>
      have ready : ¬ Prepares state.service := by
        rw [serving]
        exact not_false
      refine (sound.announced_active serving ready
        (Or.inr rfl)).withService ?_ (fun prepares => absurd prepares ready)
        state.locked
      rintro _ _ ⟨⟩
      exact captured
  | writeFormalStart =>
      have ready : ¬ Prepares state.service := by
        rw [serving]
        exact not_false
      have stepped : storeStep state.store .startFormally =
          some { state.store with
            disk := { state.store.disk with formalStart := true } } := rfl
      refine sound.advance le_rfl ?_ (List.Sublist.refl _)
        (sound.store.step stepped) ?_ ?_ sound.discovery
      · exact ⟨⟨sound.current.effective, sound.current.planned⟩,
          fun earlier isActive => ⟨earlier, isActive, UpTo.refl earlier⟩,
          fun _ => id⟩
      · rintro _ _ ⟨⟩
        exact captured
      · intro store stored
        exact Or.inl ((sound.hash store stored).resolve_right ready)

/-- What an operation leaves behind. -/
theorem FeedSound.performed
    {state : FeedState δ} (sound : FeedSound universeHash experimentId state)
    {operation : StoreOperation δ}
    (punctual : Punctual state.nowNs operation) {effect : Effect δ}
    (performed : state.store.effect operation = some effect) :
    (⟨some effect.1, state.store.disk.writeAll effect.2⟩ :
        StoreState δ).Ordered ∧
      Advances state.nowNs state.store.disk
        (state.store.disk.writeAll effect.2) := by
  constructor
  · have stepped : storeStep state.store (.perform operation) =
        some ⟨some effect.1, state.store.disk.writeAll effect.2⟩ := by
      rw [storeStep, performed]
      rfl
    exact sound.store.step stepped
  · have advances := advances_of_effect sound.current sound.store.active
      punctual performed effect.2.length
    rwa [List.take_length] at advances

/-- The service has the new universe in hand. -/
theorem eq_of_workAfter
    {work : ServiceWork δ} {active other : UniverseDecision}
    {steps : List AnnounceStep}
    (following : workAfter work active = .announce other steps) :
    other = active := by
  unfold workAfter at following
  split at following <;> cases following <;> rfl

theorem FeedSound.serve
    {before after : FeedState δ}
    (sound : FeedSound universeHash experimentId before)
    (served : serve universeHash experimentId before = some after) :
    FeedSound universeHash experimentId after := by
  have operated : ∀ operation effect,
      before.serviceOperation = some operation →
      before.store.effect operation = some effect →
      Prepares (workAfter before.service effect.1.active) →
        FeedSound universeHash experimentId
          { before with
            store :=
              { store := some effect.1
                disk := before.store.disk.writeAll effect.2 }
            service := workAfter before.service effect.1.active } := by
    intro operation effect asked performed prepares
    rcases sound.performed (punctual_serviceOperation asked) performed with
      ⟨ordered, advances⟩
    refine sound.advance le_rfl advances (List.Sublist.refl _) ordered ?_ ?_
      sound.discovery
    · intro active steps following
      rw [eq_of_workAfter following]
      exact ⟨effect.1, rfl, SameUniverse.refl _⟩
    · intro _ _
      exact Or.inr prepares
  unfold Transfer.serve at served
  split at served
  next => cases served
  next => cases served
  next active step steps serving =>
    cases served
    exact sound.announceStep serving
  next policy serving =>
    rcases Option.bind_eq_some_iff.mp served with ⟨operation, asked, done⟩
    rcases Option.map_eq_some_iff.mp done with ⟨effect, performed, rfl⟩
    apply operated operation effect asked performed
    rw [serving]
    trivial
  next boundary serving =>
    rcases Option.bind_eq_some_iff.mp served with ⟨operation, asked, done⟩
    rcases Option.map_eq_some_iff.mp done with ⟨effect, performed, rfl⟩
    apply operated operation effect asked performed
    rw [serving]
    cases boundary <;> trivial

/-- A plan is announced before it is effective. -/
def Timely (state : FeedState δ) : FeedLabel δ → Prop
  | .discover =>
      match state.discovery with
      | .announcePlan decision =>
          state.nowNs < microsecondsNs decision.effectiveAt
      | _ => True
  | _ => True

theorem FeedSound.discover
    {before after : FeedState δ}
    (sound : FeedSound universeHash experimentId before)
    (timely : Timely before .discover)
    (discovered : discover before = some after) :
    FeedSound universeHash experimentId after := by
  unfold Transfer.discover at discovered
  split at discovered
  next => cases discovered
  next decision planning =>
    cases discovered
    rw [Timely, planning] at timely
    have notYet : ¬ (⟨before.nowNs, .decision decision, before.writerHash⟩ :
        ControlEvent).InForce := timely.not_ge
    have emitted : FeedSound universeHash experimentId
        (before.emit (.decision decision)) := by
      apply sound.emit
      · exact {
          observed := le_rfl
          planned := fun _ => sound.discovery decision planning
          start := by
            rintro ⟨⟩
          hash := fun inForce => absurd inForce notYet
          active := fun inForce => absurd inForce notYet
          history := fun inForce => absurd inForce notYet }
      · exact fun _ inForce => absurd inForce notYet
    refine emitted.advance le_rfl (Advances.refl emitted.current)
      (List.Sublist.refl _) emitted.store emitted.captured emitted.hash ?_
    rintro other ⟨⟩
  next snapshot planning =>
    rcases Option.bind_eq_some_iff.mp discovered with
      ⟨operation, asked, done⟩
    rcases Option.map_eq_some_iff.mp done with ⟨effect, performed, rfl⟩
    rcases sound.performed (punctual_discoveryOperation asked) performed with
      ⟨ordered, advances⟩
    simp only [FeedState.discoveryOperation, planning,
      Option.some.injEq] at asked
    subst asked
    rcases sameUniverse_of_observeAndPlan performed with
      ⟨store, stored, same⟩
    refine sound.advance le_rfl advances (List.Sublist.refl _) ordered ?_ ?_
      ?_
    · intro active steps serving
      rcases sound.captured active steps serving with
        ⟨other, isOther, earlier⟩
      cases Option.some.inj (stored.symm.trans isOther)
      exact ⟨effect.1, rfl, earlier.trans same⟩
    · rintro _ ⟨⟩
      rw [← same.hash_eq universeHash]
      exact sound.hash store stored
    · intro decision following
      cases planned : plannedIn effect.2 with
      | none => simp [planned] at following
      | some other =>
          simp only [planned] at following
          cases following
          exact isMidnight_of_plannedIn performed planned

/-- A crash in the writes of an operation. -/
theorem FeedSound.crashIn
    {before after : FeedState δ}
    (sound : FeedSound universeHash experimentId before)
    {asked : Option (StoreOperation δ)}
    (punctual : ∀ operation, asked = some operation →
      Punctual before.nowNs operation) {count : Nat}
    (crashed : crashIn before asked count = some after) :
    FeedSound universeHash experimentId after := by
  rcases Option.bind_eq_some_iff.mp crashed with ⟨operation, isAsked, done⟩
  rcases Option.map_eq_some_iff.mp done with ⟨effect, performed, rfl⟩
  apply sound.ended
  · have stepped : storeStep before.store (.crash operation count) =
        some ⟨none, before.store.disk.writeAll (effect.2.take count)⟩ := by
      rw [storeStep, performed]
      rfl
    exact (sound.store.step stepped).disk
  · exact advances_of_effect sound.current sound.store.active
      (punctual operation isAsked) performed count

theorem not_prepares_of_idle
    {state : FeedState δ} (idle : state.serviceIdle) :
    ¬ Prepares state.service := by
  unfold FeedState.serviceIdle at idle
  split at idle
  next serving => rw [serving]; exact not_false
  next serving => rw [serving]; exact not_false
  next => cases idle

theorem FeedSound.step
    {before after : FeedState δ} {label : FeedLabel δ}
    (sound : FeedSound universeHash experimentId before)
    (timely : Timely before label)
    (stepped : feedStep universeHash experimentId before label =
      some after) : FeedSound universeHash experimentId after := by
  cases label with
  | tick nowNs =>
      rcases Option.ite_none_right_eq_some.mp stepped with ⟨later, ⟨⟩⟩
      refine sound.advance later ?_ (List.Sublist.refl _) sound.store
        sound.captured sound.hash sound.discovery
      refine Advances.refl ⟨fun active isActive => ?_, sound.current.planned⟩
      exact (sound.current.effective active isActive).trans
        (Int.ofNat_le.mpr later)
  | boot policy =>
      rcases Option.ite_none_right_eq_some.mp stepped with ⟨_, ⟨⟩⟩
      refine sound.withService ?_ ?_ true
      · rintro active steps ⟨⟩
      · exact fun _ => trivial
  | markFormalStart locked =>
      rcases Option.bind_eq_some_iff.mp stepped with ⟨store, stored, marked⟩
      rcases Option.ite_none_right_eq_some.mp marked with ⟨⟨idle, _⟩, ⟨⟩⟩
      refine sound.withService ?_ ?_ locked
      · rintro _ _ ⟨⟩
        exact ⟨store, stored, SameUniverse.refl _⟩
      · exact fun prepares => absurd prepares (not_prepares_of_idle idle)
  | midnightBoundary utcDate =>
      rcases Option.ite_none_right_eq_some.mp stepped with ⟨_, ⟨⟩⟩
      refine sound.withService ?_ ?_ true
      · rintro active steps ⟨⟩
      · exact fun _ => trivial
  | onDiscovery snapshot =>
      rcases Option.ite_none_right_eq_some.mp stepped with ⟨_, ⟨⟩⟩
      refine sound.advance le_rfl (Advances.refl sound.current)
        (List.Sublist.refl _) sound.store sound.captured sound.hash ?_
      rintro decision ⟨⟩
  | serve => exact sound.serve stepped
  | discover => exact sound.discover timely stepped
  | rollChunk =>
      cases stepped
      exact sound.finishChunk
  | placeOverride file content =>
      have placed : storeStep before.store (.placeOverride file content) =
          some _ := rfl
      cases stepped
      refine sound.advance le_rfl ?_ (List.Sublist.refl _)
        (sound.store.step placed) sound.captured sound.hash sound.discovery
      exact ⟨⟨sound.current.effective, sound.current.planned⟩,
        fun earlier isActive => ⟨earlier, isActive, UpTo.refl earlier⟩,
        fun _ => id⟩
  | stop =>
      cases stepped
      exact sound.finishChunk.ended sound.store.disk
        (Advances.refl sound.current)
  | crash =>
      cases stepped
      exact sound.ended sound.store.disk (Advances.refl sound.current)
  | crashServing count =>
      exact sound.crashIn (fun _ => punctual_serviceOperation) stepped
  | crashDiscovering count =>
      exact sound.crashIn (fun _ => punctual_discoveryOperation) stepped

/-- Nothing has happened yet. -/
def initialFeed (δ : Type) [DecimalArithmetic δ] : FeedState δ where
  store := emptyStore δ

theorem feedSound_initial :
    FeedSound universeHash experimentId (initialFeed δ) where
  store := ordered_emptyStore
  current := by
    constructor
    · rintro active ⟨⟩
    · rintro plan ⟨⟩
  captured := by
    rintro active steps ⟨⟩
  hash := by
    rintro store ⟨⟩
  discovery := by
    rintro decision ⟨⟩
  announced := by
    rintro event ⟨⟩
  ordered := List.Pairwise.nil

theorem feedSound_of_run
    {labels : List (FeedLabel δ)} {final : FeedState δ}
    (timely : StepsMeet (feedStep universeHash experimentId) Timely
      (initialFeed δ) labels)
    (reached : runFrom (feedStep universeHash experimentId) (initialFeed δ)
      labels = some final) : FeedSound universeHash experimentId final :=
  invariant_of_run
    (fun _ _ _ sound timely stepped => sound.step timely stepped)
    feedSound_initial timely reached

end Invariant

end Machine

/-! ## The rows of a day -/

/-- The events which are received on a date. -/
def dayEvents (events : List ControlEvent) (utcDate : Nat) :
    List ControlEvent :=
  events.filter fun event => dateOfNs event.observedNs = utcDate

/-- A row of the stream of decisions. -/
def universeRow (event : ControlEvent) : Option UniverseRow :=
  match event.payload with
  | .decision decision => some ⟨decision, event.chunkUniverseHash⟩
  | .formalStart _ _ => none

/-- A row of the stream of formal starts, as `_mark_formal_start` fills it. -/
def formalStartRow
    (universeHash : List String → List String → List String → String)
    (event : ControlEvent) : Option FormalStartRow :=
  match event.payload with
  | .decision _ => none
  | .formalStart experimentId active =>
      some {
        observedNs := event.observedNs
        payload := {
          event := "FORMAL_COLLECTION_STARTED"
          experimentId
          coreGeneration := active.coreGeneration
          candidateRevision := active.candidateRevision
          decisionSequence := active.decisionSequence
          universeVersion :=
            versionText active.coreGeneration active.candidateRevision
          universeHash := decisionHash universeHash active }
        chunkUniverseHash := event.chunkUniverseHash }

/-- The decision which has been announced last as in force. -/
def lastInForce (events : List ControlEvent) : Option UniverseDecision :=
  ((events.filter fun event =>
    ¬ event.IsStart ∧ event.InForce).getLast?).map ControlEvent.decision

section Day

variable {universeHash : List String → List String → List String → String}
  {experimentId : String}

theorem formalStartPayload_formalStartRow
    (named : experimentId ≠ "") {event : ControlEvent} {row : FormalStartRow}
    (isRow : formalStartRow universeHash event = some row)
    (start : event.payload = .formalStart experimentId event.decision) :
    formalStartPayload row.payload = .ok () := by
  rw [formalStartRow, start] at isRow
  cases isRow
  have generation := event.decision.valid.coreGeneration
  have sequence := event.decision.valid.decisionSequence
  rw [formalStartPayload, if_neg (not_not.mpr rfl), if_neg named, if_neg]
  dsimp only
  rintro (below | below | below | other)
  · omega
  · omega
  · omega
  · exact other rfl

/-- The announcements of one date. -/
structure DayFeed
    (universeHash : List String → List String → List String → String)
    (experimentId : String) (disk : UniverseDisk) (utcDate : Nat)
    (events : List ControlEvent) : Prop where
  onDate : ∀ event ∈ events, dateOfNs event.observedNs = utcDate
  announced : ∀ event ∈ events, ∃ nowNs,
    Announced universeHash experimentId nowNs disk event
  ordered : events.Pairwise Precedes

/-- A midnight which a day has passed is not after its first. -/
theorem le_midnightNs_of_isMidnight
    {instant : Int} {observedNs utcDate : Nat} (midnight : IsMidnight instant)
    (passed : microsecondsNs instant ≤ observedNs)
    (onDate : dateOfNs observedNs = utcDate) :
    microsecondsNs instant ≤ midnightNs utcDate := by
  have bounds := dateOfNs_eq_iff.mp onDate
  simp only [midnightNs_eq, IsMidnight, usPerDay, microsecondsNs] at *
  omega

/-- A midnight after some instant of a day is not before its end. -/
theorem midnightNs_succ_le_of_isMidnight
    {instant : Int} {observedNs utcDate : Nat} (midnight : IsMidnight instant)
    (ahead : (observedNs : Int) < microsecondsNs instant)
    (onDate : dateOfNs observedNs = utcDate) :
    (midnightNs (utcDate + 1) : Int) ≤ microsecondsNs instant := by
  have bounds := dateOfNs_eq_iff.mp onDate
  simp only [midnightNs_eq, IsMidnight, usPerDay, microsecondsNs] at *
  omega

namespace DayFeed

variable {disk : UniverseDisk} {utcDate : Nat} {events : List ControlEvent}

/-- What is effective within the day has been announced in force. -/
theorem inForce_of_effective
    (feed : DayFeed universeHash experimentId disk utcDate events)
    {event : ControlEvent} (isEvent : event ∈ events) {atNs : Nat}
    (within : atNs < midnightNs (utcDate + 1))
    (effective : microsecondsNs event.decision.effectiveAt ≤ atNs) :
    event.InForce := by
  rcases feed.announced event isEvent with ⟨nowNs, announced⟩
  by_contra ahead
  have after := midnightNs_succ_le_of_isMidnight (announced.planned ahead)
    (not_le.mp ahead) (feed.onDate event isEvent)
  omega

/-- The last decision in force follows every other one. -/
theorem upTo_last
    (feed : DayFeed universeHash experimentId disk utcDate events)
    {last : UniverseDecision} (isLast : lastInForce events = some last) :
    ∃ final ∈ events, final.decision = last ∧ ¬ final.IsStart ∧
      final.InForce ∧ ∀ event ∈ events, ¬ event.IsStart → event.InForce →
        UpTo event.decision last := by
  rcases Option.map_eq_some_iff.mp isLast with ⟨final, isFinal, rfl⟩
  have member := List.mem_of_getLast? isFinal
  rw [List.mem_filter, decide_eq_true_eq] at member
  rcases member with ⟨isEvent, notStart, inForce⟩
  refine ⟨final, isEvent, rfl, notStart, inForce, ?_⟩
  intro event other otherNotStart otherInForce
  rcases List.getLast?_eq_some_iff.mp isFinal with ⟨before, split⟩
  have sorted := feed.ordered.filter
    fun event => decide (¬ event.IsStart ∧ event.InForce)
  have isKept : event ∈ events.filter fun event =>
      decide (¬ event.IsStart ∧ event.InForce) :=
    List.mem_filter.mpr ⟨other, by simp [otherNotStart, otherInForce]⟩
  rw [split] at sorted isKept
  rcases List.mem_append.mp isKept with earlier | same
  · exact ((List.pairwise_append.mp sorted).2.2 event earlier final
      List.mem_cons_self).upTo otherInForce inForce
  · rw [List.mem_singleton.mp same]
    exact UpTo.refl _

/-- The centre takes the decision which was announced last as in force. -/
theorem activeUniverse_of_last
    (feed : DayFeed universeHash experimentId disk utcDate events)
    {rows : List UniverseRow}
    (received : rows.Perm (events.filterMap universeRow))
    {last : UniverseDecision} (isLast : lastInForce events = some last)
    {atNs : Nat} (within : atNs < midnightNs (utcDate + 1))
    (effective : microsecondsNs last.effectiveAt ≤ atNs) :
    ∃ active, activeUniverse universeHash rows atNs = .ok (some active) ∧
      SameUniverse last active ∧ ∃ activation ∈ disk.history,
        SameDecision activation.decision active := by
  rcases feed.upTo_last isLast with
    ⟨final, isFinal, rfl, notStart, inForce, upTo⟩
  have known : ∀ row ∈ effectiveRows rows atNs,
      ∃ event ∈ events, event.decision = row.decision ∧
        event.chunkUniverseHash = row.chunkUniverseHash ∧
        ¬ event.IsStart ∧ event.InForce := by
    intro row isRow
    rcases mem_effectiveRows.mp isRow with ⟨isRow, isEffective⟩
    rcases List.mem_filterMap.mp (received.mem_iff.mp isRow) with
      ⟨event, isEvent, made⟩
    have shape : event.payload = .decision row.decision ∧
        event.chunkUniverseHash = row.chunkUniverseHash := by
      unfold universeRow at made
      split at made
      next named =>
        cases made
        exact ⟨named, rfl⟩
      next => cases made
    have names : event.decision = row.decision := by
      rw [ControlEvent.decision, shape.1]
    refine ⟨event, isEvent, names, shape.2, ?_, ?_⟩
    · rw [ControlEvent.IsStart, shape.1]
      exact not_false
    · exact feed.inForce_of_effective isEvent within (names ▸ isEffective)
  have row : (⟨final.decision, final.chunkUniverseHash⟩ : UniverseRow) ∈
      effectiveRows rows atNs := by
    refine mem_effectiveRows.mpr ⟨received.mem_iff.mpr ?_, effective⟩
    refine List.mem_filterMap.mpr ⟨final, isFinal, ?_⟩
    rcases final with ⟨observedNs, decision | _, hash⟩
    · rfl
    · exact absurd trivial notStart
  rcases activeUniverse_eq_some row (fun other isOther => by
      rcases known other isOther with ⟨event, isEvent, names, _, plain, stated⟩
      exact names ▸ (upTo event isEvent plain stated).sequence_le)
    (fun other isOther => by
      rcases known other isOther with ⟨event, isEvent, names, hash, _, stated⟩
      rcases feed.announced event isEvent with ⟨_, announced⟩
      rw [← names, ← hash]
      exact announced.hash stated) with ⟨taken, isTaken, sequence, isActive⟩
  rcases known taken isTaken with ⟨event, isEvent, names, _, plain, stated⟩
  rcases feed.announced event isEvent with ⟨_, announced⟩
  refine ⟨taken.decision, isActive, ?_, ?_⟩
  · rw [← names] at sequence ⊢
    exact ((upTo event isEvent plain stated).same_of_sequence sequence).symm
  · exact names ▸ announced.history stated

/-- Without a decision in force there is no universe. -/
theorem activeUniverse_of_none
    (feed : DayFeed universeHash experimentId disk utcDate events)
    {rows : List UniverseRow}
    (received : rows.Perm (events.filterMap universeRow))
    {atNs : Nat} (within : atNs < midnightNs (utcDate + 1))
    (later : ∀ event ∈ events, ¬ event.IsStart → event.InForce →
      (atNs : Int) < microsecondsNs event.decision.effectiveAt) :
    activeUniverse universeHash rows atNs = .ok none := by
  apply activeUniverse_eq_none
  intro row isRow
  rcases List.mem_filterMap.mp (received.mem_iff.mp isRow) with
    ⟨⟨observedNs, payload, hash⟩, isEvent, made⟩
  cases payload with
  | formalStart => cases made
  | decision decision =>
      cases made
      by_contra effective
      have stated := feed.inForce_of_effective isEvent within
        (not_lt.mp effective)
      exact effective (later _ isEvent not_false stated)

/-- A formal start and the last decision in force come in some order. -/
theorem start_and_last
    (feed : DayFeed universeHash experimentId disk utcDate events)
    {start : ControlEvent} (isEvent : start ∈ events)
    (isStart : start.IsStart) {last : UniverseDecision}
    (isLast : lastInForce events = some last) :
    microsecondsNs last.effectiveAt ≤ start.observedNs ∧
      (UpTo start.decision last ∨ UpTo last start.decision) := by
  rcases feed.upTo_last isLast with ⟨final, isFinal, rfl, notStart, stated, _⟩
  rcases feed.announced start isEvent with ⟨_, announced⟩
  have started := (announced.start isStart).1
  have symmetric : Std.Symm Comparable := ⟨fun _ _ => Or.symm⟩
  have related : events.Pairwise Comparable :=
    feed.ordered.imp fun precedes => Or.inl precedes
  have apart : start ≠ final := by
    rintro rfl
    exact notStart isStart
  rcases related.forall isEvent isFinal apart with earlier | later
  · have upTo := earlier.upTo started stated
    refine ⟨?_, Or.inl upTo⟩
    rcases upTo with same | ⟨_, midnight⟩
    · exact same.effectiveAt ▸ started
    · have bounds := dateOfNs_eq_iff.mp (feed.onDate start isEvent)
      have reached := le_midnightNs_of_isMidnight midnight stated
        (feed.onDate final isFinal)
      omega
  · refine ⟨?_, Or.inr (later.upTo stated started)⟩
    have order := later.observed
    have effective := stated
    rw [ControlEvent.InForce] at effective
    omega

end DayFeed

/-- What the centre makes of the announcements of a date. -/
structure EvidenceAgrees
    (universeHash : List String → List String → List String → String)
    (experimentId : String) (disk : UniverseDisk) (utcDate : Nat)
    (events : List ControlEvent) (starts : List FormalStartRow)
    (rows : List UniverseRow) : Prop where
  /-- A day without formal start has the last universe if it began with it. -/
  unmarked : starts = [] → ∃ active,
    universeEvidence universeHash starts rows utcDate =
        .ok ⟨midnightNs utcDate, none, active⟩ ∧
      Option.Rel SameUniverse
        ((lastInForce events).filter fun last =>
          microsecondsNs last.effectiveAt ≤ midnightNs utcDate) active
  /-- A formal start is accepted if it names the last universe. -/
  accepted : ∀ start last,
    starts.argmin FormalStartRow.observedNs = some start →
    lastInForce events = some last →
    start.payload.decisionSequence = last.decisionSequence →
      ∃ active, SameUniverse last active ∧
        universeEvidence universeHash starts rows utcDate =
          .ok ⟨start.observedNs, some (start.observedNs, experimentId),
            some active⟩
  /-- No other formal start is accepted. -/
  refused : ∀ start marker,
    starts.argmin FormalStartRow.observedNs = some start →
    universeEvidence universeHash starts rows utcDate = .ok marker →
      ∃ last, lastInForce events = some last ∧
        start.payload.decisionSequence = last.decisionSequence
  /-- The universe of the day has been active at the collector. -/
  collected : ∀ marker active,
    universeEvidence universeHash starts rows utcDate = .ok marker →
    marker.active = some active →
      ∃ activation ∈ disk.history, SameDecision activation.decision active

namespace DayFeed

variable {disk : UniverseDisk} {utcDate : Nat} {events : List ControlEvent}

/-- The event of a row of the formal starts. -/
theorem event_of_start
    (feed : DayFeed universeHash experimentId disk utcDate events)
    {starts : List FormalStartRow}
    (received : starts.Perm (events.filterMap (formalStartRow universeHash)))
    {start : FormalStartRow} (isStart : start ∈ starts) :
    ∃ event ∈ events, event.IsStart ∧
      formalStartRow universeHash event = some start ∧
      event.payload = .formalStart experimentId event.decision ∧
      event.InForce := by
  rcases List.mem_filterMap.mp (received.mem_iff.mp isStart) with
    ⟨event, isEvent, made⟩
  have marked : event.IsStart := by
    rcases event with ⟨observedNs, _ | _, hash⟩
    · cases made
    · trivial
  rcases feed.announced event isEvent with ⟨_, announced⟩
  rcases announced.start marked with ⟨stated, names⟩
  exact ⟨event, isEvent, marked, made, names, stated⟩

theorem experimentId_eq
    (feed : DayFeed universeHash experimentId disk utcDate events)
    {starts : List FormalStartRow}
    (received : starts.Perm (events.filterMap (formalStartRow universeHash)))
    {start : FormalStartRow} (isStart : start ∈ starts) :
    start.payload.experimentId = experimentId := by
  rcases feed.event_of_start received isStart with ⟨_, _, _, made, names, _⟩
  rw [formalStartRow, names] at made
  cases made
  rfl

/-- A formal start which names the sequence of the last universe names it. -/
theorem validateFormalStart_of_sequence
    (feed : DayFeed universeHash experimentId disk utcDate events)
    {event : ControlEvent} (isEvent : event ∈ events)
    (isStart : event.IsStart) {start : FormalStartRow}
    (made : formalStartRow universeHash event = some start)
    {last active : UniverseDecision} (isLast : lastInForce events = some last)
    (sequence : start.payload.decisionSequence = last.decisionSequence)
    (same : SameUniverse last active) :
    validateFormalStart universeHash start active = .ok () := by
  rcases feed.announced event isEvent with ⟨_, announced⟩
  rcases announced.start isStart with ⟨stated, names⟩
  have hash := announced.hash stated
  rw [formalStartRow, names] at made
  cases made
  have numbered : event.decision.decisionSequence = last.decisionSequence :=
    Int.ofNat_inj.mp sequence
  have agrees : SameUniverse event.decision active := by
    rcases (feed.start_and_last isEvent isStart isLast).2 with upTo | upTo
    · exact (upTo.same_of_sequence numbered).trans same
    · exact (upTo.same_of_sequence numbered.symm).symm.trans same
  have decision := agrees.decision
  rw [validateFormalStart_eq_ok_iff]
  dsimp only
  rw [decision.generation, decision.revision, decision.sequence, ← hash,
    agrees.hash_eq universeHash]
  exact ⟨rfl, rfl, rfl, rfl, rfl, rfl⟩

/-- The window of the day does not leave it. -/
theorem windowStartNs_lt
    (feed : DayFeed universeHash experimentId disk utcDate events)
    {starts : List FormalStartRow}
    (received : starts.Perm (events.filterMap (formalStartRow universeHash)))
    {start : FormalStartRow} (isStart : start ∈ starts) :
    windowStartNs (some start) (midnightNs utcDate) = start.observedNs ∧
      start.observedNs < midnightNs (utcDate + 1) := by
  rcases feed.event_of_start received isStart with
    ⟨event, isEvent, _, made, names, _⟩
  have bounds := dateOfNs_eq_iff.mp (feed.onDate event isEvent)
  rw [formalStartRow, names] at made
  cases made
  refine ⟨?_, bounds.2⟩
  dsimp only [windowStartNs]
  split
  next none => omega
  next => rfl

theorem not_inForce_of_none
    (noLast : lastInForce events = none) {event : ControlEvent}
    (isEvent : event ∈ events) (notStart : ¬ event.IsStart) :
    ¬ event.InForce := by
  rw [lastInForce, Option.map_eq_none_iff, List.getLast?_eq_none_iff,
    List.filter_eq_nil_iff] at noLast
  have dropped := noLast event isEvent
  rw [decide_eq_true_eq] at dropped
  exact fun stated => dropped ⟨notStart, stated⟩

/-- The evidence of a day without a formal start. -/
theorem evidence_unmarked
    (feed : DayFeed universeHash experimentId disk utcDate events)
    {rows : List UniverseRow}
    (received : rows.Perm (events.filterMap universeRow)) :
    ∃ active, activeUniverse universeHash rows (midnightNs utcDate) =
        .ok active ∧
      Option.Rel SameUniverse
        ((lastInForce events).filter fun last =>
          microsecondsNs last.effectiveAt ≤ midnightNs utcDate) active ∧
      ∀ taken, active = some taken → ∃ activation ∈ disk.history,
        SameDecision activation.decision taken := by
  have within := midnightNs_lt_succ utcDate
  cases isLast : lastInForce events with
  | none =>
      refine ⟨none, ?_, Option.Rel.none, by rintro taken ⟨⟩⟩
      apply feed.activeUniverse_of_none received within
      intro event isEvent notStart stated
      exact absurd stated (not_inForce_of_none isLast isEvent notStart)
  | some last =>
      by_cases effective :
          microsecondsNs last.effectiveAt ≤ midnightNs utcDate
      · rcases feed.activeUniverse_of_last received isLast within effective
          with ⟨active, isActive, same, past⟩
        refine ⟨some active, isActive, ?_, ?_⟩
        · rw [Option.filter_some, if_pos (decide_eq_true effective)]
          exact Option.Rel.some same
        · rintro _ ⟨⟩
          exact past
      · refine ⟨none, ?_, ?_, by rintro taken ⟨⟩⟩
        · apply feed.activeUniverse_of_none received within
          intro event isEvent notStart stated
          rcases feed.upTo_last isLast with
            ⟨final, isFinal, rfl, _, inForce, upTo⟩
          rcases upTo event isEvent notStart stated with same | ⟨_, midnight⟩
          · rw [same.effectiveAt]
            exact not_le.mp effective
          · exact absurd (le_midnightNs_of_isMidnight midnight inForce
              (feed.onDate final isFinal)) effective
        · rw [Option.filter_some, if_neg (by simpa using effective)]
          exact Option.Rel.none

/-- The evidence of a day with a formal start. -/
theorem evidence_marked
    (feed : DayFeed universeHash experimentId disk utcDate events)
    {starts : List FormalStartRow}
    (startsReceived :
      starts.Perm (events.filterMap (formalStartRow universeHash)))
    {rows : List UniverseRow}
    (received : rows.Perm (events.filterMap universeRow))
    {start : FormalStartRow} (isStart : start ∈ starts) :
    (lastInForce events = none ∧
        activeUniverse universeHash rows start.observedNs = .ok none) ∨
      ∃ last active, lastInForce events = some last ∧
        activeUniverse universeHash rows start.observedNs =
          .ok (some active) ∧
        SameUniverse last active ∧
        (validateFormalStart universeHash start active = .ok () ↔
          start.payload.decisionSequence = last.decisionSequence) ∧
        ∃ activation ∈ disk.history,
          SameDecision activation.decision active := by
  have within := (feed.windowStartNs_lt startsReceived isStart).2
  rcases feed.event_of_start startsReceived isStart with
    ⟨event, isEvent, marked, made, names, _⟩
  have observed : start.observedNs = event.observedNs := by
    rw [formalStartRow, names] at made
    cases made
    rfl
  cases isLast : lastInForce events with
  | none =>
      refine Or.inl ⟨rfl, ?_⟩
      apply feed.activeUniverse_of_none received within
      intro other isOther notStart stated
      exact absurd stated (not_inForce_of_none isLast isOther notStart)
  | some last =>
      have effective := (feed.start_and_last isEvent marked isLast).1
      rw [← observed] at effective
      rcases feed.activeUniverse_of_last received isLast within effective
        with ⟨active, isActive, same, past⟩
      refine Or.inr ⟨last, active, rfl, isActive, same, ?_, past⟩
      constructor
      · intro accepted
        rw [(validateFormalStart_eq_ok_iff.mp accepted).2.2.1,
          same.decision.sequence]
      · intro sequence
        exact feed.validateFormalStart_of_sequence isEvent marked made isLast
          sequence same

theorem evidenceAgrees
    (feed : DayFeed universeHash experimentId disk utcDate events)
    (named : experimentId ≠ "") {starts : List FormalStartRow}
    (startsReceived :
      starts.Perm (events.filterMap (formalStartRow universeHash)))
    {rows : List UniverseRow}
    (received : rows.Perm (events.filterMap universeRow)) :
    EvidenceAgrees universeHash experimentId disk utcDate events starts
      rows := by
  have valid : ∀ row ∈ starts, formalStartPayload row.payload = .ok () := by
    intro row isRow
    rcases feed.event_of_start startsReceived isRow with
      ⟨event, _, _, made, names, _⟩
    exact formalStartPayload_formalStartRow named made names
  have window : ∀ start, starts.argmin FormalStartRow.observedNs =
      some start → start ∈ starts ∧
        windowStartNs (starts.argmin FormalStartRow.observedNs)
          (midnightNs utcDate) = start.observedNs := by
    intro start earliest
    have isStart := List.argmin_mem (Option.mem_def.mpr earliest)
    rw [earliest]
    exact ⟨isStart, (feed.windowStartNs_lt startsReceived isStart).1⟩
  constructor
  · rintro rfl
    rcases feed.evidence_unmarked received with ⟨active, isActive, agrees, _⟩
    refine ⟨active, ?_, agrees⟩
    rw [universeEvidence_eq_ok_iff valid isActive]
    exact ⟨rfl, rfl⟩
  · intro start last earliest isLast sequence
    rcases window start earliest with ⟨isStart, starting⟩
    rcases feed.evidence_marked startsReceived received isStart with
      ⟨noLast, _⟩ | ⟨other, active, isOther, isActive, same, validated, _⟩
    · exact absurd (isLast.symm.trans noLast) (by simp)
    · cases Option.some.inj (isLast.symm.trans isOther)
      refine ⟨active, same, ?_⟩
      rw [← starting] at isActive
      rw [earliest] at starting
      rw [universeEvidence_eq_ok_iff valid isActive, earliest, starting,
        Option.map_some, feed.experimentId_eq startsReceived isStart]
      exact ⟨validated.mpr sequence, rfl⟩
  · intro start marker earliest accepted
    rcases window start earliest with ⟨isStart, starting⟩
    rcases feed.evidence_marked startsReceived received isStart with
      ⟨_, isActive⟩ | ⟨last, active, isLast, isActive, _, validated, _⟩
    · rw [← starting] at isActive
      rw [universeEvidence_eq_ok_iff valid isActive, earliest] at accepted
      cases accepted.1
    · rw [← starting] at isActive
      rw [universeEvidence_eq_ok_iff valid isActive, earliest] at accepted
      exact ⟨last, isLast, validated.mp accepted.1⟩
  · intro marker taken accepted isTaken
    cases earliest : starts.argmin FormalStartRow.observedNs with
    | none =>
        cases List.argmin_eq_none.mp earliest
        rcases feed.evidence_unmarked received with
          ⟨active, isActive, _, past⟩
        rw [universeEvidence_eq_ok_iff valid isActive] at accepted
        rw [accepted.2] at isTaken
        exact past taken isTaken
    | some start =>
        rcases window start earliest with ⟨isStart, starting⟩
        rcases feed.evidence_marked startsReceived received isStart with
          ⟨_, isActive⟩ | ⟨last, active, _, isActive, _, _, past⟩
        · rw [← starting] at isActive
          rw [universeEvidence_eq_ok_iff valid isActive, earliest] at accepted
          cases accepted.1
        · rw [← starting] at isActive
          rw [universeEvidence_eq_ok_iff valid isActive, earliest] at accepted
          rw [accepted.2] at isTaken
          cases isTaken
          exact past

end DayFeed

theorem FeedSound.dayFeed
    {δ : Type} [DecimalArithmetic δ] {state : FeedState δ}
    (sound : FeedSound universeHash experimentId state) (utcDate : Nat) :
    DayFeed universeHash experimentId state.store.disk utcDate
      (dayEvents state.finished utcDate) where
  onDate := by
    intro event isEvent
    rw [dayEvents, List.mem_filter, decide_eq_true_eq] at isEvent
    exact isEvent.2
  announced := by
    intro event isEvent
    exact ⟨state.nowNs, sound.announced event (List.mem_append_left _
      (List.mem_of_mem_filter isEvent))⟩
  ordered := (List.pairwise_append.mp sound.ordered).1.filter _

/--
In every run of the collector, with crashes between any two writes, which
announces every plan before it is effective: whatever the order in which the
finished announcements of a date reach the centre, it takes the decision which
was announced last as in force, accepts the first formal start exactly if it
names that decision, takes a decision on a day without formal start only if it
is effective by its midnight, and takes no universe which has not been active.
-/
theorem universe_evidence_agrees
    {δ : Type} [DecimalArithmetic δ] (named : experimentId ≠ "")
    {labels : List (FeedLabel δ)} {final : FeedState δ}
    (timely : StepsMeet (feedStep universeHash experimentId) Timely
      (initialFeed δ) labels)
    (reached : runFrom (feedStep universeHash experimentId) (initialFeed δ)
      labels = some final)
    (utcDate : Nat) {starts : List FormalStartRow}
    (startsReceived : starts.Perm
      ((dayEvents final.finished utcDate).filterMap
        (formalStartRow universeHash)))
    {rows : List UniverseRow}
    (received : rows.Perm
      ((dayEvents final.finished utcDate).filterMap universeRow)) :
    EvidenceAgrees universeHash experimentId final.store.disk utcDate
      (dayEvents final.finished utcDate) starts rows :=
  ((feedSound_of_run timely reached).dayFeed utcDate).evidenceAgrees named
    startsReceived received

end Day

/-! ## A formal start, and a member replaced two days later -/

def joinSymbols (core boundary probe : List String) : String :=
  ",".intercalate (core ++ boundary ++ probe)

def replacedRun : List (FeedLabel ℚ) :=
  [.boot samplePolicy, .serve, .serve, .serve, .tick 3600000000000,
    .markFormalStart false, .serve, .serve, .serve, .serve,
    .placeOverride "swap.override.json" (some sampleOverride),
    .tick (midnightNs 2), .midnightBoundary 2, .serve, .serve, .serve, .serve]

theorem replacedRun_completes :
    (runFrom (feedStep joinSymbols "experiment") (initialFeed ℚ)
      replacedRun).isSome := by
  decide +kernel

def replacedFeed : FeedState ℚ :=
  (runFrom (feedStep joinSymbols "experiment") (initialFeed ℚ)
    replacedRun).get replacedRun_completes

theorem replacedRun_timely :
    StepsMeet (feedStep joinSymbols "experiment") Timely (initialFeed ℚ)
      replacedRun := by
  apply stepsMeet_of_forall
  simp [replacedRun, Timely]

theorem universe_evidence_agrees_replaced :
    (dayEvents replacedFeed.finished 0).length = 2 ∧
      (lastInForce (dayEvents replacedFeed.finished 2)).map
          (fun decision => decision.probe) =
        some (sampleSymbols 65 4 ++ ["S70"]) ∧
      ∀ utcDate, EvidenceAgrees joinSymbols "experiment"
        replacedFeed.store.disk utcDate
        (dayEvents replacedFeed.finished utcDate)
        ((dayEvents replacedFeed.finished utcDate).filterMap
          (formalStartRow joinSymbols))
        ((dayEvents replacedFeed.finished utcDate).filterMap universeRow) :=
  ⟨by decide +kernel, by decide +kernel, fun utcDate =>
    universe_evidence_agrees (by decide) replacedRun_timely
      (Option.some_get replacedRun_completes).symm utcDate (List.Perm.refl _)
      (List.Perm.refl _)⟩

end ShadowDataPlane.Transfer
