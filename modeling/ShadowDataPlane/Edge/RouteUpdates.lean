import Mathlib.Data.Finset.Dedup
import Mathlib.Data.Finset.Lattice.Lemmas
import Mathlib.Data.List.Sort
import ShadowDataPlane.Edge.RouteLiveness

/-!
# An update and a refresh of one route

The liveness loop plans a refresh several awaits before it holds the update
lock, and keeps its plan while it watches for fresh events.  An update which
commits meanwhile may remove a planned stream: the loop then looks up a key that
is gone, or subscribes the stream again.  An update which gives up after its
request was sent leaves the streams of the universe which it did not commit.

`Harmless` excludes both.  A run of such steps keeps `RouteSound`: every
planned key is still monitored, and the connection is subscribed to what the
instruments aimed at need.
-/

namespace ShadowDataPlane.Edge

open ShadowDataPlane.Contracts
open ShadowDataPlane.Foundation

/-! ## The property -/

/-- The stale keys which an iteration has planned to refresh. -/
def LoopPhase.planned : LoopPhase → List StaleKey
  | .opening _ _ stale => stale
  | .locking stale => stale
  | .refreshing stale => stale
  | .watching stale _ => stale
  | _ => []

/-- No iteration of the loop and no update is under way. -/
def RouteState.Finished (state : RouteState) : Prop :=
  (state.phase = .resting ∨ state.phase = .ended) ∧
    state.waiting = none ∧ state.request = none

/-- What an update and a refresh leave behind in any order. -/
structure Commutes (state : RouteState) : Prop where
  lookups : ∀ key, state.phase ≠ .failed key
  settled : state.Finished → ∀ streams, state.subscribed = some streams →
    streams = (state.kind.subscriptionsFor state.instruments).toFinset
  refreshed : ∀ request, state.request = some request →
    request.submitter = .refresh → request.stage = .sent →
      ∀ stream ∈ request.add,
        stream ∈ state.kind.subscriptionsFor state.instruments

/--
A committing update keeps the planned keys, and an update which gives up was not
sent on the connection which is up, or changes nothing.
-/
def Harmless (state : RouteState) (label : RouteLabel) : Prop :=
  match label, state.request with
  | .complete _, some request =>
      match request.submitter with
      | .update instruments =>
          ∀ stale ∈ state.phase.planned, stale.key.2 ∈ instruments
      | .refresh => True
  | .giveUp _, some request =>
      match request.submitter with
      | .update _ =>
          request.stage = .queued ∨ request.stage = .broken ∨
            (request.add = [] ∧ request.remove = [])
      | .refresh => True
  | _, _ => True

instance (state : RouteState) (label : RouteLabel) :
    Decidable (Harmless state label) := by
  unfold Harmless
  split
  · split <;> infer_instance
  · split <;> infer_instance
  · infer_instance

/-! ## Subscriptions of monitored streams -/

theorem livenessSubscription_mem
    {kind : RouteKind} {instruments : List String} {key : LivenessKey}
    {stream : String}
    (monitored : key.1 ∈ kind.livenessTypes) (served : key.2 ∈ instruments)
    (subscription : livenessSubscription key = some stream) :
    stream ∈ kind.subscriptionsFor instruments := by
  rcases key with ⟨streamType, symbol⟩
  cases kind with
  | publicRoute d0Enabled =>
      apply List.mem_append_left
      apply List.mem_flatMap.mpr
      refine ⟨symbol, served, ?_⟩
      simp only [RouteKind.livenessTypes, List.mem_cons,
        List.not_mem_nil, or_false] at monitored
      rcases monitored with rfl | rfl
      · cases subscription
        exact List.mem_cons_self
      · cases subscription
        exact List.mem_cons_of_mem _ List.mem_cons_self
  | marketRoute =>
      apply List.mem_append_left
      apply List.mem_flatMap.mpr
      refine ⟨symbol, served, ?_⟩
      simp only [RouteKind.livenessTypes, List.mem_cons,
        List.not_mem_nil, or_false] at monitored
      subst monitored
      cases subscription
      exact List.mem_cons_of_mem _ List.mem_cons_self

theorem mem_sortedDifference
    {left right : List String} {stream : String} :
    stream ∈ RouteState.sortedDifference left right ↔
      stream ∈ left ∧ stream ∉ right := by
  simp [RouteState.sortedDifference, List.mem_insertionSort]

/-- Removing and adding the differences leads from one list to the other. -/
theorem sortedDifferences_apply (before after : List String) :
    (before.toFinset \ (RouteState.sortedDifference before after).toFinset) ∪
        (RouteState.sortedDifference after before).toFinset =
      after.toFinset := by
  ext stream
  simp only [Finset.mem_union, Finset.mem_sdiff, List.mem_toFinset,
    mem_sortedDifference]
  constructor
  · rintro (⟨inBefore, kept⟩ | ⟨inAfter, -⟩)
    · by_contra absent
      exact kept ⟨inBefore, absent⟩
    · exact inAfter
  · intro inAfter
    by_cases inBefore : stream ∈ before
    · exact Or.inl ⟨inBefore, fun removed => removed.2 inAfter⟩
    · exact Or.inr ⟨inAfter, inBefore⟩

theorem mem_monitored_iff
    {kind : RouteKind} {instruments : List String} {key : LivenessKey} :
    (key ∈ kind.livenessTypes.flatMap fun streamType =>
        instruments.map fun symbol => (streamType, symbol)) ↔
      key.1 ∈ kind.livenessTypes ∧ key.2 ∈ instruments := by
  rcases key with ⟨streamType, symbol⟩
  simp [List.mem_flatMap, List.mem_map, Prod.mk.injEq]

/-- A map which is built anew binds the keys it is built for. -/
theorem get?_foldl_monitored
    (seenOf : LivenessKey → Seen) (keys : List LivenessKey)
    (key : LivenessKey) :
    (keys.foldl (fun lastEvent key => lastEvent.set key (seenOf key))
        Dict.empty).get? key =
      if key ∈ keys then some (seenOf key) else none := by
  rw [Dict.get?_foldl_rebind
    (fun lastEvent key => lastEvent.set key (seenOf key))
    (fun key _ => seenOf key)
    (fun dict head key => by
      rw [Dict.get?_set]
      split
      next same => rw [same]
      next => rfl)
    (fun _ _ => rfl)]
  by_cases member : key ∈ keys
  · rw [if_pos member, if_pos member]
  · rw [if_neg member, if_neg member]
    rfl

theorem isSome_foldl_set_iff
    (seenOf : LivenessKey → Seen) (keys : List LivenessKey)
    (key : LivenessKey) :
    ((keys.foldl (fun lastEvent key => lastEvent.set key (seenOf key))
        Dict.empty).get? key).isSome ↔ key ∈ keys := by
  rw [get?_foldl_monitored]
  split
  next member => exact ⟨fun _ => member, fun _ => rfl⟩
  next absent => exact ⟨fun bound => absurd bound (by simp), fun member =>
    absurd member absent⟩

/-! ## What the loop does between two awaits -/

/-- The planned keys are monitored, and no lookup failed. -/
def LoopPhase.Sound (lastEvent : Dict LivenessKey Seen) : LoopPhase → Prop
  | .opening current rest stale =>
      current ∈ stale ∧ (∀ other ∈ rest, other ∈ stale) ∧
        ∀ other ∈ stale, (lastEvent.get? other.key).isSome
  | .locking stale => ∀ other ∈ stale, (lastEvent.get? other.key).isSome
  | .refreshing stale => ∀ other ∈ stale, (lastEvent.get? other.key).isSome
  | .watching stale _ => ∀ other ∈ stale, (lastEvent.get? other.key).isSome
  | .failed _ => False
  | _ => True

theorem LoopPhase.Sound.planned_isSome
    {lastEvent : Dict LivenessKey Seen} {phase : LoopPhase}
    (sound : phase.Sound lastEvent) :
    ∀ stale ∈ phase.planned, (lastEvent.get? stale.key).isSome := by
  cases phase with
  | opening current rest stale => exact sound.2.2
  | locking stale => exact sound
  | refreshing stale => exact sound
  | watching stale after => exact sound
  | _ => exact fun stale member => absurd member List.not_mem_nil

/-- A phase stays sound as long as its planned keys are monitored. -/
theorem LoopPhase.Sound.of_planned
    {earlier later : Dict LivenessKey Seen} {phase : LoopPhase}
    (sound : phase.Sound earlier)
    (monitored : ∀ stale ∈ phase.planned, (later.get? stale.key).isSome) :
    phase.Sound later := by
  cases phase with
  | opening current rest stale => exact ⟨sound.1, sound.2.1, monitored⟩
  | locking stale => exact monitored
  | refreshing stale => exact monitored
  | watching stale after => exact monitored
  | failed key => exact sound.elim
  | _ => trivial

theorem mem_staleKeys
    {lastEvent : Dict LivenessKey Seen} {now timeout : Nat} {stale : StaleKey}
    (member : stale ∈ staleKeys lastEvent now timeout) :
    (lastEvent.get? stale.key).isSome := by
  rcases List.mem_map.mp member with ⟨⟨key, seen⟩, filtered, rfl⟩
  have bound : (key, seen) ∈ lastEvent.entries := List.mem_of_mem_filter filtered
  rw [lastEvent.mem_entries_iff.mp bound]
  rfl

theorem nextOpening_eq_some
    {activeGaps : Dict LivenessKey ActiveGap} {rest later : List StaleKey}
    {current : StaleKey}
    (next : nextOpening activeGaps rest = some (current, later)) :
    current ∈ rest ∧ ∀ other ∈ later, other ∈ rest := by
  induction rest with
  | nil => simp [nextOpening] at next
  | cons head tail induction =>
      rw [nextOpening] at next
      split at next
      · rcases induction next with ⟨member, later⟩
        exact ⟨List.mem_cons_of_mem _ member,
          fun other inLater => List.mem_cons_of_mem _ (later other inLater)⟩
      · cases next
        exact ⟨List.mem_cons_self,
          fun other inLater => List.mem_cons_of_mem _ inLater⟩

theorem pendingKeys_ok
    {lastEvent : Dict LivenessKey Seen} (after : Nat) {keys : List StaleKey}
    (monitored : ∀ stale ∈ keys, (lastEvent.get? stale.key).isSome) :
    ∃ pending, pendingKeys lastEvent after keys = .ok pending := by
  induction keys with
  | nil => exact ⟨[], rfl⟩
  | cons head tail induction =>
      rcases Option.isSome_iff_exists.mp (monitored head List.mem_cons_self)
        with ⟨observed, found⟩
      rcases induction fun stale inTail =>
        monitored stale (List.mem_cons_of_mem _ inTail) with ⟨pending, isOk⟩
      simp only [pendingKeys, found, isOk]
      exact ⟨_, rfl⟩

namespace RouteState

theorem openNext_phase
    (state : RouteState) {rest stale : List StaleKey}
    (among : ∀ other ∈ rest, other ∈ stale)
    (monitored : ∀ other ∈ stale,
      (state.lastEvent.get? other.key).isSome) :
    ∃ phase, state.openNext rest stale = { state with phase } ∧
      phase.Sound state.lastEvent := by
  refine ⟨_, rfl, ?_⟩
  split
  next current later next =>
    rcases nextOpening_eq_some next with ⟨isCurrent, areLater⟩
    exact ⟨among current isCurrent,
      fun other inLater => among other (areLater other inLater), monitored⟩
  next => exact monitored

theorem closeNext_phase
    (state : RouteState) (now : Nat) (rest : List (LivenessKey × ActiveGap)) :
    ∃ phase, state.closeNext now rest = { state with phase } ∧
      phase.Sound state.lastEvent := by
  rw [closeNext]
  split
  next key later next => exact ⟨.closing now key later, rfl, trivial⟩
  next =>
    split
    next => exact ⟨.resting, rfl, trivial⟩
    next =>
      exact state.openNext_phase (fun other member => member)
        fun other member => mem_staleKeys member

theorem settleNext_phase (state : RouteState) (rest : List StaleKey) :
    ∃ phase, state.settleNext rest = { state with phase } ∧
      phase.Sound state.lastEvent := by
  refine ⟨_, rfl, ?_⟩
  split <;> trivial

theorem watch_phase
    (state : RouteState) {stale : List StaleKey} (after : Nat)
    (monitored : ∀ other ∈ stale,
      (state.lastEvent.get? other.key).isSome) :
    ∃ phase, state.watch stale after =
        { state with changed := false, phase } ∧
      phase.Sound state.lastEvent := by
  rcases pendingKeys_ok after monitored with ⟨pending, isOk⟩
  cases pending with
  | nil =>
      rcases { state with changed := false }.settleNext_phase stale with
        ⟨phase, isPhase, sound⟩
      exact ⟨phase, by rw [watch, isOk]; exact isPhase, sound⟩
  | cons key others =>
      exact ⟨.watching stale after, by rw [watch, isOk], monitored⟩

end RouteState

/-! ## The invariant -/

/-- The instruments which a request leaves on the connection it was sent on. -/
def SubscriptionUpdate.carried (request : SubscriptionUpdate) :
    Option (List String) :=
  match request.submitter, request.stage with
  | .update instruments, .sent => some instruments
  | .update instruments, .acknowledged => some instruments
  | _, _ => none

/-- The instruments whose streams the connection carries. -/
def RouteState.carried (state : RouteState) : List String :=
  (state.request.bind SubscriptionUpdate.carried).getD state.instruments

/--
A refresh asks for streams of the instruments, and an update leads to the
streams of its own.
-/
structure SubscriptionUpdate.Sound
    (kind : RouteKind) (instruments : List String)
    (request : SubscriptionUpdate) : Prop where
  refreshes : request.submitter = .refresh →
    request.remove = request.add ∧
      ∀ stream ∈ request.add, stream ∈ kind.subscriptionsFor instruments
  updates : ∀ proposed, request.submitter = .update proposed →
    ((kind.subscriptionsFor instruments).toFinset \ request.remove.toFinset) ∪
        request.add.toFinset =
      (kind.subscriptionsFor proposed).toFinset

/-- What holds of a route between any two steps of its tasks. -/
structure RouteSound (state : RouteState) : Prop where
  subscriptions :
    state.subscriptions = state.kind.subscriptionsFor state.instruments
  keys : ∀ key, (state.lastEvent.get? key).isSome ↔
    key.1 ∈ state.kind.livenessTypes ∧ key.2 ∈ state.instruments
  phase : state.phase.Sound state.lastEvent
  subscribed : ∀ streams, state.subscribed = some streams →
    streams = (state.kind.subscriptionsFor state.carried).toFinset
  offline : state.subscribed = none → state.carried = state.instruments
  request : ∀ request, state.request = some request →
    request.Sound state.kind state.instruments

namespace RouteSound

variable {state : RouteState}

/-- Gaps, flags and a waiting update play no part. -/
theorem rephase
    (sound : RouteSound state) (activeGaps : Dict LivenessKey ActiveGap)
    (changed reconnectRequested stopping : Bool)
    (waiting : Option (List String)) {phase : LoopPhase}
    (isSound : phase.Sound state.lastEvent) :
    RouteSound { state with
      activeGaps, changed, reconnectRequested, stopping, waiting, phase } where
  subscriptions := sound.subscriptions
  keys := sound.keys
  phase := isSound
  subscribed := sound.subscribed
  offline := sound.offline
  request := sound.request

/-- A request ends which carries no other streams than the instruments need. -/
theorem release
    (sound : RouteSound state)
    (carried : (state.kind.subscriptionsFor state.carried).toFinset =
      (state.kind.subscriptionsFor state.instruments).toFinset) :
    RouteSound { state with request := none } where
  subscriptions := sound.subscriptions
  keys := sound.keys
  phase := sound.phase
  subscribed streams isStreams := by
    rw [sound.subscribed streams isStreams]
    exact carried
  offline _ := rfl
  request := by
    rintro request ⟨⟩

/-- A coroutine took the free lock and queued its request. -/
theorem acquire
    (sound : RouteSound state) (free : state.request = none)
    {request : SubscriptionUpdate} (queued : request.stage = .queued)
    (isSound : request.Sound state.kind state.instruments) :
    RouteSound { state with request := some request } := by
  have carries : request.carried = none := by
    rcases request with ⟨submitter, add, remove, snapshotRequests, stage⟩
    cases queued
    cases submitter <;> rfl
  have same : ({ state with request := some request } : RouteState).carried =
      state.carried := by
    simp [RouteState.carried, free, carries]
  exact {
    subscriptions := sound.subscriptions
    keys := sound.keys
    phase := sound.phase
    subscribed := fun streams isStreams => by
      rw [same]
      exact sound.subscribed streams isStreams
    offline := fun offline => by
      rw [same]
      exact sound.offline offline
    request := by
      rintro _ ⟨⟩
      exact isSound }

/-! ## Steps of the loop -/

theorem closeNext
    (sound : RouteSound state) (now : Nat)
    (rest : List (LivenessKey × ActiveGap)) :
    RouteSound (state.closeNext now rest) := by
  rcases state.closeNext_phase now rest with ⟨phase, isPhase, isSound⟩
  rw [isPhase]
  exact sound.rephase _ _ _ _ _ isSound

theorem settleNext (sound : RouteSound state) (rest : List StaleKey) :
    RouteSound (state.settleNext rest) := by
  rcases state.settleNext_phase rest with ⟨phase, isPhase, isSound⟩
  rw [isPhase]
  exact sound.rephase _ _ _ _ _ isSound

theorem watch
    (sound : RouteSound state) {stale : List StaleKey} (after : Nat)
    (monitored : ∀ other ∈ stale,
      (state.lastEvent.get? other.key).isSome) :
    RouteSound (state.watch stale after) := by
  rcases state.watch_phase after monitored with ⟨phase, isPhase, isSound⟩
  rw [isPhase]
  exact sound.rephase _ _ _ _ _ isSound

theorem openNext
    (sound : RouteSound state) {rest stale : List StaleKey}
    (among : ∀ other ∈ rest, other ∈ stale)
    (monitored : ∀ other ∈ stale,
      (state.lastEvent.get? other.key).isSome) :
    RouteSound (state.openNext rest stale) := by
  rcases state.openNext_phase among monitored with ⟨phase, isPhase, isSound⟩
  rw [isPhase]
  exact sound.rephase _ _ _ _ _ isSound

/-- The streams of monitored keys are those of the instruments. -/
theorem refreshRequest_sound
    (sound : RouteSound state) {stale : List StaleKey}
    (monitored : ∀ other ∈ stale,
      (state.lastEvent.get? other.key).isSome) :
    (RouteState.refreshRequest stale).Sound state.kind state.instruments where
  refreshes _ := by
    refine ⟨rfl, fun stream member => ?_⟩
    have unsorted := (List.mem_insertionSort _).mp member
    rcases List.mem_filterMap.mp unsorted with
      ⟨other, isPlanned, subscription⟩
    rcases (sound.keys other.key).mp (monitored other isPlanned) with
      ⟨isMonitored, isServed⟩
    exact livenessSubscription_mem isMonitored isServed subscription
  updates := by
    rintro proposed ⟨⟩

theorem lockRefresh
    (sound : RouteSound state) {stale : List StaleKey}
    (locking : state.phase = .locking stale) (free : state.request = none) :
    RouteSound { state with
      phase := .refreshing stale
      request := some (RouteState.refreshRequest stale) } := by
  have monitored := sound.phase
  rw [locking] at monitored
  have phased : (LoopPhase.refreshing stale).Sound state.lastEvent := monitored
  exact (sound.rephase state.activeGaps state.changed
    state.reconnectRequested state.stopping state.waiting phased).acquire
      free rfl (sound.refreshRequest_sound monitored)

/-! ## Steps of an update -/

theorem updateRequest_sound
    (sound : RouteSound state) (instruments : List String) :
    (state.updateRequest instruments).Sound state.kind state.instruments where
  refreshes := by
    rintro ⟨⟩
  updates := by
    rintro proposed ⟨⟩
    simp only [RouteState.updateRequest]
    rw [sound.subscriptions]
    exact sortedDifferences_apply _ _

theorem lockUpdate
    (sound : RouteSound state) (instruments : List String)
    (free : state.request = none) :
    RouteSound { state with
      waiting := none
      request := some (state.updateRequest instruments) } :=
  (sound.rephase state.activeGaps state.changed state.reconnectRequested
    state.stopping none sound.phase).acquire free rfl
      (sound.updateRequest_sound instruments)

theorem isSome_updatedLastEvent_iff
    (state : RouteState) (instruments : List String) (now : Seen)
    (key : LivenessKey) :
    ((state.updatedLastEvent instruments now).get? key).isSome ↔
      key.1 ∈ state.kind.livenessTypes ∧ key.2 ∈ instruments := by
  rw [RouteState.updatedLastEvent, isSome_foldl_set_iff fun key =>
    (state.lastEvent.get? key).getD now]
  exact mem_monitored_iff

/-- An update commits and every planned key is still monitored. -/
theorem commitUpdate
    (sound : RouteSound state) {request : SubscriptionUpdate}
    {instruments : List String} (now : Seen)
    (holds : state.request = some request)
    (isUpdate : request.submitter = .update instruments)
    (acknowledged : request.stage = .acknowledged)
    (kept : ∀ stale ∈ state.phase.planned, stale.key.2 ∈ instruments) :
    RouteSound (state.commitUpdate instruments now) where
  subscriptions := rfl
  keys := isSome_updatedLastEvent_iff state instruments now
  phase := by
    apply sound.phase.of_planned
    intro stale isPlanned
    have monitored := sound.phase.planned_isSome stale isPlanned
    exact (isSome_updatedLastEvent_iff state instruments now stale.key).mpr
      ⟨((sound.keys stale.key).mp monitored).1, kept stale isPlanned⟩
  subscribed streams isStreams := by
    have carried : state.carried = instruments := by
      simp [RouteState.carried, holds, SubscriptionUpdate.carried, isUpdate,
        acknowledged]
    rw [sound.subscribed streams isStreams, carried]
    rfl
  offline _ := rfl
  request := by
    rintro request ⟨⟩

/-! ## Steps of the connection -/

/-- A request which was sent changes the streams as it was meant to. -/
theorem send
    (sound : RouteSound state) {request : SubscriptionUpdate}
    {subscribed : Finset String}
    (holds : state.request = some request)
    (up : state.subscribed = some subscribed)
    (queued : request.stage = .queued) :
    RouteSound { state with
      request := some { request with stage := .sent }
      subscribed := some
        ((subscribed \ request.remove.toFinset) ∪ request.add.toFinset) } := by
  have isSound := sound.request request holds
  have current := sound.subscribed subscribed up
  have carried : state.carried = state.instruments := by
    rcases request with ⟨submitter, add, remove, snapshotRequests, stage⟩
    cases queued
    cases submitter <;> simp [RouteState.carried, holds,
      SubscriptionUpdate.carried]
  rw [carried] at current
  exact {
    subscriptions := sound.subscriptions
    keys := sound.keys
    phase := sound.phase
    subscribed := by
      rintro streams ⟨⟩
      rw [current]
      cases submitted : request.submitter with
      | refresh =>
          rcases isSound.refreshes submitted with ⟨same, served⟩
          simp only [RouteState.carried, Option.bind_some,
            SubscriptionUpdate.carried, Option.getD_none]
          rw [same]
          apply Finset.sdiff_union_of_subset
          intro stream member
          exact List.mem_toFinset.mpr
            (served stream (List.mem_toFinset.mp member))
      | update proposed =>
          simp only [RouteState.carried, Option.bind_some,
            SubscriptionUpdate.carried, Option.getD_some]
          exact isSound.updates proposed submitted
    offline := by
      rintro ⟨⟩
    request := by
      rintro _ ⟨⟩
      exact ⟨isSound.refreshes, isSound.updates⟩ }

theorem acknowledge
    (sound : RouteSound state) {request : SubscriptionUpdate}
    (holds : state.request = some request) (sent : request.stage = .sent) :
    RouteSound { state with
      request := some { request with stage := .acknowledged } } := by
  have isSound := sound.request request holds
  have same : ({ state with
      request := some { request with stage := .acknowledged } } :
        RouteState).carried = state.carried := by
    rcases request with ⟨submitter, add, remove, snapshotRequests, stage⟩
    cases sent
    cases submitter <;> simp [RouteState.carried, holds,
      SubscriptionUpdate.carried]
  exact {
    subscriptions := sound.subscriptions
    keys := sound.keys
    phase := sound.phase
    subscribed := fun streams isStreams => by
      rw [same]
      exact sound.subscribed streams isStreams
    offline := fun offline => by
      rw [same]
      exact sound.offline offline
    request := by
      rintro _ ⟨⟩
      exact ⟨isSound.refreshes, isSound.updates⟩ }

theorem connectionLost (sound : RouteSound state) :
    RouteSound { state with
      subscribed := none
      request := state.request.map fun request =>
        if request.stage = .queued then request
        else { request with stage := .broken } } where
  subscriptions := sound.subscriptions
  keys := sound.keys
  phase := sound.phase
  subscribed := by
    rintro streams ⟨⟩
  offline _ := by
    cases holds : state.request with
    | none => simp [RouteState.carried]
    | some request =>
        rcases request with ⟨submitter, add, remove, snapshotRequests, stage⟩
        cases submitter <;> cases stage <;>
          simp [RouteState.carried, SubscriptionUpdate.carried]
  request := by
    intro _ isRequest
    rcases Option.map_eq_some_iff.mp isRequest with ⟨request, holds, rfl⟩
    have isSound := sound.request request holds
    split
    · exact isSound
    · exact ⟨isSound.refreshes, isSound.updates⟩

/-- A new connection subscribes to the route's streams. -/
theorem connect
    (sound : RouteSound state) (reconnectRequested : Bool)
    (own : state.carried = state.instruments) :
    RouteSound { state with
      subscribed := some state.subscriptions.toFinset
      reconnectRequested } where
  subscriptions := sound.subscriptions
  keys := sound.keys
  phase := sound.phase
  subscribed := by
    rintro streams ⟨⟩
    have same : ({ state with
        subscribed := some state.subscriptions.toFinset
        reconnectRequested } : RouteState).carried = state.carried := rfl
    rw [same, own, sound.subscriptions]
  offline := by
    rintro ⟨⟩
  request := sound.request

/-- An event moves a monitored key, and adds none. -/
theorem event
    (sound : RouteSound state) {key : LivenessKey} (seen : Seen)
    (monitored : (state.lastEvent.get? key).isSome) :
    RouteSound { state with
      lastEvent := state.lastEvent.set key seen
      changed := true } := by
  have same : ∀ other,
      ((state.lastEvent.set key seen).get? other).isSome ↔
        (state.lastEvent.get? other).isSome := by
    intro other
    rw [Dict.get?_set]
    split
    next isKey => exact ⟨fun _ => isKey ▸ monitored, fun _ => rfl⟩
    next => exact Iff.rfl
  exact {
    subscriptions := sound.subscriptions
    keys := fun other => (same other).trans (sound.keys other)
    phase := sound.phase.of_planned fun stale isPlanned =>
      (same stale.key).mpr (sound.phase.planned_isSome stale isPlanned)
    subscribed := sound.subscribed
    offline := sound.offline
    request := sound.request }

/-- An update gives up before it was sent, or with nothing to change. -/
theorem giveUp
    (sound : RouteSound state) {request : SubscriptionUpdate}
    {proposed : List String}
    (holds : state.request = some request)
    (isUpdate : request.submitter = .update proposed)
    (harmless : request.stage = .queued ∨ request.stage = .broken ∨
      (request.add = [] ∧ request.remove = [])) :
    RouteSound { state with request := none } := by
  apply sound.release
  have updates := (sound.request request holds).updates proposed isUpdate
  rcases harmless with queued | broken | ⟨nothingAdded, nothingRemoved⟩
  · simp [RouteState.carried, holds, SubscriptionUpdate.carried, isUpdate,
      queued]
  · simp [RouteState.carried, holds, SubscriptionUpdate.carried, isUpdate,
      broken]
  · have equal : (state.kind.subscriptionsFor state.instruments).toFinset =
        (state.kind.subscriptionsFor proposed).toFinset := by
      simpa [nothingAdded, nothingRemoved] using updates
    cases staged : request.stage <;>
      simp [RouteState.carried, holds, SubscriptionUpdate.carried, isUpdate,
        staged, equal]

/-- A refresh carries no other streams than the instruments need. -/
theorem carried_of_refresh
    {request : SubscriptionUpdate}
    (holds : state.request = some request)
    (isRefresh : request.submitter = .refresh) :
    state.carried = state.instruments := by
  simp [RouteState.carried, holds, SubscriptionUpdate.carried, isRefresh]

theorem carried_of_free (free : state.request = none) :
    state.carried = state.instruments := by
  simp [RouteState.carried, free]

theorem step
    (sound : RouteSound state) {label : RouteLabel} {after : RouteState}
    (harmless : Harmless state label)
    (stepped : routeStep state label = some after) : RouteSound after := by
  cases routeStep_effect stepped with
  | wakeStopping => exact sound.rephase _ _ _ _ _ trivial
  | wake => exact sound.closeNext _ _
  | @gapClosed now key rest =>
      exact (sound.rephase (state.activeGaps.erase key) _ _ _ _
        sound.phase).closeNext now rest
  | @gapSettled key rest =>
      exact (sound.rephase (state.activeGaps.erase key) _ _ _ _
        sound.phase).settleNext rest
  | @gapMissed _ current _ _ opening missing =>
      -- The planned key of an opened gap is still there to be looked up.
      have planned := sound.phase
      rw [opening] at planned
      have found := planned.2.2 current planned.1
      rw [missing] at found
      exact absurd found (by simp)
  | @gapOpened gapId current _ _ observed opening =>
      have planned := sound.phase
      rw [opening] at planned
      exact (sound.rephase (state.activeGaps.set current.key
        ⟨gapId, observed.monotonic⟩) state.changed state.reconnectRequested
          state.stopping state.waiting sound.phase).openNext planned.2.1
            planned.2.2
  | lockRefresh locking free => exact sound.lockRefresh locking free
  | requestUpdate => exact sound.rephase _ _ _ _ _ sound.phase
  | withdrawUpdate => exact sound.rephase _ _ _ _ _ sound.phase
  | lockUpdate _ free => exact sound.lockUpdate _ free
  | send holds up queued => exact sound.send holds up queued
  | acknowledge holds sent => exact sound.acknowledge holds sent
  | updated holds acknowledged isUpdate =>
      simp only [Harmless, holds, isUpdate] at harmless
      exact sound.commitUpdate _ holds isUpdate acknowledged harmless
  | refreshedStopping holds _ isRefresh =>
      exact (sound.release (by
        rw [carried_of_refresh holds isRefresh])).rephase _ _ _ _ _ trivial
  | refreshed holds _ isRefresh refreshing =>
      have monitored := sound.phase
      rw [refreshing] at monitored
      exact (sound.release (by
        rw [carried_of_refresh holds isRefresh])).watch _ monitored
  | updateGivenUp holds isUpdate =>
      simp only [Harmless, holds, isUpdate] at harmless
      exact sound.giveUp holds isUpdate harmless
  | @refreshGivenUp _ failure holds isRefresh =>
      have released : RouteSound { state with request := none } :=
        sound.release (by rw [carried_of_refresh holds isRefresh])
      cases failure with
      | timedOut => exact released.rephase _ _ _ _ _ trivial
      | overloaded => exact released.rephase _ _ _ _ _ trivial
      | cancelled => exact released.rephase _ _ _ _ _ trivial
  | recheck watching =>
      have monitored := sound.phase
      rw [watching] at monitored
      exact sound.watch _ monitored
  | watchTimeout => exact sound.rephase _ _ _ _ _ trivial
  | resumable => exact sound.rephase _ _ _ _ _ trivial
  | event monitored => exact sound.event _ monitored
  | eventUnmonitored => exact sound
  | connectionLost => exact sound.connectionLost
  | connect down => exact sound.connect false (sound.offline down)
  | rotate free =>
      exact sound.connect state.reconnectRequested (carried_of_free free)
  | stop => exact sound.rephase _ _ _ _ _ sound.phase

theorem commutes (sound : RouteSound state) : Commutes state where
  lookups key failed := by
    have isSound := sound.phase
    rw [failed] at isSound
    exact isSound
  settled finished streams isStreams := by
    rw [sound.subscribed streams isStreams, carried_of_free finished.2.2]
  refreshed request holds isRefresh _ :=
    ((sound.request request holds).refreshes isRefresh).2

end RouteSound

theorem routeSound_start
    (kind : RouteKind) (livenessTimeout : Nat) (instruments : List String)
    (now : Seen) :
    RouteSound (startRoute kind livenessTimeout instruments now) where
  subscriptions := rfl
  keys key := (isSome_foldl_set_iff (fun _ => now) _ key).trans
    mem_monitored_iff
  phase := trivial
  subscribed := by
    rintro streams ⟨⟩
    rfl
  offline := by
    rintro ⟨⟩
  request := by
    rintro request ⟨⟩

/--
In a run in which no update removes a planned stream and none gives up after it
was sent, the loop never misses a key, no removed stream is subscribed again,
and the connection ends with the streams of the current instruments.
-/
theorem update_and_refresh_commute
    (kind : RouteKind) (livenessTimeout : Nat) (instruments : List String)
    (now : Seen) {labels : List RouteLabel} {final : RouteState}
    (harmless : StepsMeet routeStep Harmless
      (startRoute kind livenessTimeout instruments now) labels)
    (reached : runFrom routeStep
      (startRoute kind livenessTimeout instruments now) labels =
        some final) :
    Commutes final := by
  have sound : RouteSound final :=
    invariant_of_run
      (fun _ _ _ before condition stepped => before.step condition stepped)
      (routeSound_start kind livenessTimeout instruments now)
      harmless reached
  exact sound.commutes

/-! ## Runs -/

def singleRoute : RouteState :=
  startRoute (.publicRoute false) 30 ["AUSDT"] ⟨0, 0⟩

/-- An update takes the lock, commits and lets the loop go on. -/
def commits (instruments : List String) : List RouteLabel :=
  [.requestUpdate instruments, .lockUpdate, .send, .acknowledge,
    .complete ⟨32, 32⟩]

/-- The update commits while the loop opens its first gap. -/
def updatedWhileOpening (instruments : List String) : List RouteLabel :=
  [.wake 30] ++ commits instruments ++ [.gapOpened "gap-first"]

/-- The update commits while the loop waits for the lock to refresh. -/
def sentAfterUpdate (instruments : List String) : List RouteLabel :=
  [.wake 30, .gapOpened "gap-first", .gapOpened "gap-second"] ++
    commits instruments ++ [.lockRefresh, .send]

/-- The refresh fails after it was sent, and the connection is still up. -/
def updatedWhileLocking (instruments : List String) : List RouteLabel :=
  sentAfterUpdate instruments ++ [.giveUp .overloaded, .resumable]

theorem updatedWhileLocking_runs :
    (runFrom routeStep singleRoute
      (updatedWhileLocking ["AUSDT", "BUSDT"])).isSome := by
  decide +kernel

/-- Where the run leads when the update only adds a symbol. -/
def extendedRoute : RouteState :=
  (runFrom routeStep singleRoute
    (updatedWhileLocking ["AUSDT", "BUSDT"])).get updatedWhileLocking_runs

theorem update_and_refresh_commute_extended : Commutes extendedRoute := by
  have harmless : StepsMeet routeStep Harmless singleRoute
      (updatedWhileLocking ["AUSDT", "BUSDT"]) := by
    decide +kernel
  exact update_and_refresh_commute (.publicRoute false) 30 ["AUSDT"] ⟨0, 0⟩
    harmless (Option.some_get updatedWhileLocking_runs).symm

/--
The loop misses a removed key, or subscribes a removed stream again: once the
refresh is sent, and still while the connection lasts after both have ended.
-/
theorem removed_stream_subscribed :
    (∃ final ∈ runFrom routeStep singleRoute (updatedWhileOpening ["BUSDT"]),
      ¬ Commutes final) ∧
    (∃ final ∈ runFrom routeStep singleRoute (sentAfterUpdate ["BUSDT"]),
      ¬ Commutes final) ∧
    ∃ final ∈ runFrom routeStep singleRoute (updatedWhileLocking ["BUSDT"]),
      ¬ Commutes final := by
  refine ⟨?_, ?_, ?_⟩
  · have fails : ∃ final ∈ runFrom routeStep singleRoute
        (updatedWhileOpening ["BUSDT"]),
          final.phase = .failed (.bookTicker, "AUSDT") := by
      decide +kernel
    rcases fails with ⟨final, reached, failed⟩
    exact ⟨final, reached, fun commutes => commutes.lookups _ failed⟩
  · have sent : ∃ final ∈ runFrom routeStep singleRoute
        (sentAfterUpdate ["BUSDT"]),
          ∃ request ∈ final.request,
            (request.submitter = .refresh ∧ request.stage = .sent) ∧
            ∃ stream ∈ request.add,
              stream ∉ final.kind.subscriptionsFor final.instruments := by
      decide +kernel
    rcases sent with ⟨final, reached, request, isRequest,
      ⟨refreshes, isSent⟩, stream, added, removed⟩
    exact ⟨final, reached, fun commutes => removed
      (commutes.refreshed request isRequest refreshes isSent stream added)⟩
  · have resubscribes : ∃ final ∈ runFrom routeStep singleRoute
        (updatedWhileLocking ["BUSDT"]),
          (final.phase = .resting ∧ final.waiting = none ∧
            final.request = none) ∧
          ∃ streams ∈ final.subscribed,
            streams ≠ (final.kind.subscriptionsFor
              final.instruments).toFinset := by
      decide +kernel
    rcases resubscribes with
      ⟨final, reached, ⟨resting, waiting, request⟩, streams, isStreams, differs⟩
    exact ⟨final, reached, fun commutes => differs
      (commutes.settled ⟨Or.inl resting, waiting, request⟩ streams isStreams)⟩

end ShadowDataPlane.Edge
