import Mathlib.Data.Finset.Lattice.Basic
import Mathlib.Data.Finset.SDiff
import ShadowDataPlane.Contracts.Gap
import ShadowDataPlane.Foundation.Dict
import ShadowDataPlane.Foundation.Transition

/-!
# Live updates and liveness of one route

A `RouteRunner` watches the last event of every monitored stream.  Its
`liveness_loop` opens a gap for each silent stream and refreshes the
subscriptions; `update_instruments` changes the subscriptions to those of
another universe.  Both submit requests to the connection under one lock.

A label is what one coroutine does between two `await`s, or what happens to the
connection, so that a run is an interleaving.  `subscribed` is the set which
the requests sent on the current connection leave subscribed.  The gap journal
and the snapshots only matter here as points at which the loop waits.
-/

namespace ShadowDataPlane.Edge

open ShadowDataPlane.Contracts
open ShadowDataPlane.Foundation

/-! ## Subscriptions -/

/-- `symbol.lower()`. -/
def lowerSymbol (symbol : String) : String :=
  String.ofList (symbol.toList.map Char.toLower)

/-- `public_subscriptions`. -/
def publicSubscriptions (instruments : List String) (d0Enabled : Bool) :
    List String :=
  instruments.flatMap (fun symbol =>
      [lowerSymbol symbol ++ "@bookTicker",
        lowerSymbol symbol ++ "@depth@100ms"]) ++
    if d0Enabled then
      instruments.map (fun symbol => lowerSymbol symbol ++ "@trade") ++
        instruments.map fun symbol => lowerSymbol symbol ++ "@rpiDepth@500ms"
    else []

/-- `market_subscriptions`. -/
def marketSubscriptions (instruments : List String) : List String :=
  instruments.flatMap (fun symbol =>
      [lowerSymbol symbol ++ "@aggTrade", lowerSymbol symbol ++ "@markPrice@1s",
        lowerSymbol symbol ++ "@forceOrder"]) ++
    ["!contractInfo"]

/-- The two kinds of routes of a source group. -/
inductive RouteKind where
  | publicRoute (d0Enabled : Bool)
  | marketRoute
deriving DecidableEq

namespace RouteKind

/-- `subscriptions_for`. -/
def subscriptionsFor : RouteKind → List String → List String
  | .publicRoute d0Enabled, instruments => publicSubscriptions instruments d0Enabled
  | .marketRoute, instruments => marketSubscriptions instruments

/-- `liveness_stream_types`. -/
def livenessTypes : RouteKind → List StreamType
  | .publicRoute _ => [.bookTicker, .depth]
  | .marketRoute => [.markPrice]

end RouteKind

/-- A monitored stream of one symbol. -/
abbrev LivenessKey := StreamType × String

/-- `_liveness_subscription`; other stream types raise. -/
def livenessSubscription (key : LivenessKey) : Option String :=
  match key.1 with
  | .depth => some (lowerSymbol key.2 ++ "@depth@100ms")
  | .rpiDepth => some (lowerSymbol key.2 ++ "@rpiDepth@500ms")
  | .bookTicker => some (lowerSymbol key.2 ++ "@bookTicker")
  | .markPrice => some (lowerSymbol key.2 ++ "@markPrice@1s")
  | _ => none

/-- `_snapshot_type` of a depth stream. -/
def snapshotType : StreamType → Option StreamType
  | .depth => some .depthSnapshot
  | .rpiDepth => some .rpiDepthSnapshot
  | _ => none

/-! ## The state -/

/-- When a stream was last heard of, on both clocks. -/
structure Seen where
  monotonic : Nat
  realtimeNs : Nat
deriving DecidableEq

/-- A silent stream with the start of its silence. -/
structure StaleKey where
  key : LivenessKey
  affectedFromNs : Nat
deriving DecidableEq

/-- An open gap of the loop: its id, and the last event before it. -/
structure ActiveGap where
  gapId : String
  openedAfter : Nat
deriving DecidableEq

/-- Where `liveness_loop` waits. -/
inductive LoopPhase where
  | resting
  /-- Closing the gap of `key`; the entries after it are still to be looked at. -/
  | closing (now : Nat) (key : LivenessKey)
      (rest : List (LivenessKey × ActiveGap))
  /-- Opening a gap for `current`, one of the stale keys of this iteration. -/
  | opening (current : StaleKey) (rest stale : List StaleKey)
  | locking (stale : List StaleKey)
  | refreshing (stale : List StaleKey)
  | watching (stale : List StaleKey) (after : Nat)
  | settling (key : LivenessKey) (rest : List StaleKey)
  | overloaded
  /-- A lookup raised `KeyError`, which ends the loop. -/
  | failed (key : LivenessKey)
  | ended
deriving DecidableEq

/-- Who submitted a request, and so holds `_update_lock`. -/
inductive Submitter where
  | refresh
  | update (instruments : List String)
deriving DecidableEq

/-- How far a request has come. -/
inductive RequestStage where
  | queued
  | sent
  | acknowledged
  /-- The connection ended with the request; its futures raise. -/
  | broken
deriving DecidableEq

/-- `SubscriptionUpdate`. -/
structure SubscriptionUpdate where
  submitter : Submitter
  add : List String
  remove : List String
  snapshotRequests : List (String × StreamType)
  stage : RequestStage
deriving DecidableEq

/-- A route with its coroutines and its connection. -/
structure RouteState where
  kind : RouteKind
  livenessTimeout : Nat
  instruments : List String
  subscriptions : List String
  lastEvent : Dict LivenessKey Seen
  activeGaps : Dict LivenessKey ActiveGap
  phase : LoopPhase
  /-- `_liveness_changed`. -/
  changed : Bool
  /-- An update which waits for the lock. -/
  waiting : Option (List String)
  /-- The request of the coroutine which holds the lock. -/
  request : Option SubscriptionUpdate
  subscribed : Option (Finset String)
  reconnectRequested : Bool
  stopping : Bool
deriving DecidableEq

/-! ## What the loop does between two awaits -/

/-- The next gap to close: its stream spoke again or was removed. -/
def nextClosing (lastEvent : Dict LivenessKey Seen) :
    List (LivenessKey × ActiveGap) →
      Option (LivenessKey × List (LivenessKey × ActiveGap))
  | [] => none
  | entry :: rest =>
      match lastEvent.get? entry.1 with
      | some observed =>
          if observed.monotonic ≤ entry.2.openedAfter then
            nextClosing lastEvent rest
          else some (entry.1, rest)
      | none => some (entry.1, rest)

/-- The streams without an event for the timeout. -/
def staleKeys (lastEvent : Dict LivenessKey Seen) (now timeout : Nat) :
    List StaleKey :=
  (lastEvent.entries.filter fun entry =>
    entry.2.monotonic + timeout ≤ now).map
    fun entry => ⟨entry.1, entry.2.realtimeNs⟩

/-- The next stale key without a gap. -/
def nextOpening (activeGaps : Dict LivenessKey ActiveGap) :
    List StaleKey → Option (StaleKey × List StaleKey)
  | [] => none
  | stale :: rest =>
      if (activeGaps.get? stale.key).isSome then nextOpening activeGaps rest
      else some (stale, rest)

/-- The next stale key whose gap is to be closed. -/
def nextSettling (activeGaps : Dict LivenessKey ActiveGap) :
    List StaleKey → Option (LivenessKey × List StaleKey)
  | [] => none
  | stale :: rest =>
      if (activeGaps.get? stale.key).isSome then some (stale.key, rest)
      else nextSettling activeGaps rest

/-- The keys without an event after an instant; a missing key raises. -/
def pendingKeys (lastEvent : Dict LivenessKey Seen) (after : Nat) :
    List StaleKey → Except LivenessKey (List LivenessKey)
  | [] => .ok []
  | stale :: rest =>
      match lastEvent.get? stale.key with
      | none => .error stale.key
      | some observed =>
          (pendingKeys lastEvent after rest).map fun pending =>
            if observed.monotonic ≤ after then stale.key :: pending
            else pending

namespace RouteState

/-- Open gaps for the stale keys without one, then refresh them all. -/
def openNext (state : RouteState) (rest stale : List StaleKey) : RouteState :=
  { state with
    phase :=
      match nextOpening state.activeGaps rest with
      | some (current, later) => .opening current later stale
      | none => .locking stale }

/-- Close what recovered, then look for stale keys. -/
def closeNext (state : RouteState) (now : Nat)
    (rest : List (LivenessKey × ActiveGap)) : RouteState :=
  match nextClosing state.lastEvent rest with
  | some (key, later) => { state with phase := .closing now key later }
  | none =>
      match staleKeys state.lastEvent now state.livenessTimeout with
      | [] => { state with phase := .resting }
      | stale => state.openNext stale stale

/-- Close the gaps of the refreshed keys. -/
def settleNext (state : RouteState) (rest : List StaleKey) : RouteState :=
  { state with
    phase :=
      match nextSettling state.activeGaps rest with
      | some (key, later) => .settling key later
      | none => .resting }

/-- One pass of the loop in `_wait_for_fresh_events`. -/
def watch (state : RouteState) (stale : List StaleKey) (after : Nat) :
    RouteState :=
  match pendingKeys state.lastEvent after stale with
  | .error key => { state with changed := false, phase := .failed key }
  | .ok [] => { state with changed := false }.settleNext stale
  | .ok _ => { state with changed := false, phase := .watching stale after }

/-- `sorted(set(left) - set(right))`. -/
def sortedDifference (left right : List String) : List String :=
  (left.eraseDups.filter fun stream => stream ∉ right).insertionSort (· ≤ ·)

/-- `_snapshot_requests_for`; only the public routes monitor depth. -/
def snapshotRequestsFor (kind : RouteKind) (instruments : List String) :
    List (String × StreamType) :=
  match kind with
  | .marketRoute => []
  | .publicRoute d0Enabled =>
      instruments.map (fun symbol => (symbol, .depthSnapshot)) ++
        if d0Enabled then
          instruments.map fun symbol => (symbol, .rpiDepthSnapshot)
        else []

/-- The request of `update_instruments`. -/
def updateRequest (state : RouteState) (instruments : List String) :
    SubscriptionUpdate :=
  let newSubscriptions := state.kind.subscriptionsFor instruments
  { submitter := .update instruments
    add := sortedDifference newSubscriptions state.subscriptions
    remove := sortedDifference state.subscriptions newSubscriptions
    snapshotRequests := snapshotRequestsFor state.kind
      (sortedDifference instruments state.instruments)
    stage := .queued }

/-- The request of `_refresh_keys`. -/
def refreshRequest (stale : List StaleKey) : SubscriptionUpdate :=
  let streams := (stale.filterMap fun stale =>
    livenessSubscription stale.key).insertionSort (· ≤ ·)
  { submitter := .refresh
    add := streams
    remove := streams
    snapshotRequests := stale.filterMap fun stale =>
      (snapshotType stale.key.1).map fun snapshot => (stale.key.2, snapshot)
    stage := .queued }

/-- `_last_event` after an update: new keys start now, removed ones go. -/
def updatedLastEvent (state : RouteState) (instruments : List String)
    (now : Seen) : Dict LivenessKey Seen :=
  (state.kind.livenessTypes.flatMap fun streamType =>
    instruments.map fun symbol => (streamType, symbol)).foldl
    (fun lastEvent key =>
      lastEvent.set key ((state.lastEvent.get? key).getD now)) Dict.empty

/-- The end of `update_instruments`. -/
def commitUpdate (state : RouteState) (instruments : List String)
    (now : Seen) : RouteState :=
  { state with
    instruments
    subscriptions := state.kind.subscriptionsFor instruments
    lastEvent := state.updatedLastEvent instruments now
    request := none }

end RouteState

/-! ## Steps -/

/-- How a submission fails. -/
inductive SubmissionFailure where
  | timedOut
  | overloaded
  | cancelled
deriving DecidableEq

/-- What one coroutine does next, or what happens to the connection. -/
inductive RouteLabel where
  | wake (now : Nat)
  | gapClosed
  | gapOpened (gapId : String)
  | lockRefresh
  | requestUpdate (instruments : List String)
  | withdrawUpdate
  | lockUpdate
  | send
  | acknowledge
  | complete (now : Seen)
  | giveUp (failure : SubmissionFailure)
  | recheck
  | watchTimeout
  | resumable
  | event (key : LivenessKey) (seen : Seen)
  | connectionLost
  | connect
  | rotate
  | stop
deriving DecidableEq

/-- The loop after its own request failed. -/
def abandonRefresh (state : RouteState) :
    SubmissionFailure → RouteState
  | .timedOut =>
      { state with request := none, phase := .resting,
                   reconnectRequested := true }
  | .overloaded => { state with request := none, phase := .overloaded }
  | .cancelled => { state with request := none, phase := .ended }

/-- One step of the liveness loop or of another task of the route. -/
def routeStep (state : RouteState) : RouteLabel → Option RouteState
  | .wake now =>
      match state.phase with
      | .resting =>
          if state.stopping then some { state with phase := .ended }
          else some (state.closeNext now state.activeGaps.entries)
      | _ => none
  | .gapClosed =>
      match state.phase with
      | .closing now key rest =>
          some ({ state with
            activeGaps := state.activeGaps.erase key }.closeNext now rest)
      | .settling key rest =>
          some ({ state with
            activeGaps := state.activeGaps.erase key }.settleNext rest)
      | _ => none
  | .gapOpened gapId =>
      match state.phase with
      | .opening current rest stale =>
          match state.lastEvent.get? current.key with
          | none => some { state with phase := .failed current.key }
          | some observed =>
              some ({ state with
                activeGaps := state.activeGaps.set current.key
                  ⟨gapId, observed.monotonic⟩ }.openNext rest stale)
      | _ => none
  | .lockRefresh =>
      match state.phase, state.request with
      | .locking stale, none =>
          some { state with
            phase := .refreshing stale
            request := some (RouteState.refreshRequest stale) }
      | _, _ => none
  | .requestUpdate instruments =>
      match state.waiting, state.request with
      | none, some { submitter := .update _, .. } => none
      | none, _ => some { state with waiting := some instruments }
      | some _, _ => none
  | .withdrawUpdate =>
      match state.waiting with
      | some _ => some { state with waiting := none }
      | none => none
  | .lockUpdate =>
      match state.waiting, state.request with
      | some instruments, none =>
          some { state with
            waiting := none
            request := some (state.updateRequest instruments) }
      | _, _ => none
  | .send =>
      match state.request, state.subscribed with
      | some request, some subscribed =>
          if request.stage = .queued then
            some { state with
              request := some { request with stage := .sent }
              subscribed := some
                ((subscribed \ request.remove.toFinset) ∪
                  request.add.toFinset) }
          else none
      | _, _ => none
  | .acknowledge =>
      match state.request with
      | some request =>
          if request.stage = .sent then
            some { state with
              request := some { request with stage := .acknowledged } }
          else none
      | none => none
  | .complete now =>
      match state.request with
      | none => none
      | some request =>
          if request.stage = .acknowledged then
            match request.submitter with
            | .update instruments => some (state.commitUpdate instruments now)
            | .refresh =>
                match state.phase with
                | .refreshing stale =>
                    if state.stopping then
                      some { state with request := none, phase := .ended }
                    else
                      some ({ state with request := none }.watch stale
                        now.monotonic)
                | _ => none
          else none
  | .giveUp failure =>
      match state.request with
      | none => none
      | some request =>
          match request.submitter with
          | .update _ => some { state with request := none }
          | .refresh => some (abandonRefresh state failure)
  | .recheck =>
      match state.phase with
      | .watching stale after =>
          if state.changed then some (state.watch stale after) else none
      | _ => none
  | .watchTimeout =>
      match state.phase with
      | .watching _ _ =>
          some { state with phase := .resting, reconnectRequested := true }
      | _ => none
  | .resumable =>
      match state.phase with
      | .overloaded => some { state with phase := .resting }
      | _ => none
  | .event key seen =>
      if (state.lastEvent.get? key).isSome then
        some { state with
          lastEvent := state.lastEvent.set key seen, changed := true }
      else some state
  | .connectionLost =>
      some { state with
        subscribed := none
        request := state.request.map fun request =>
          if request.stage = .queued then request
          else { request with stage := .broken } }
  | .connect =>
      match state.subscribed with
      | none =>
          some { state with
            subscribed := some state.subscriptions.toFinset
            reconnectRequested := false }
      | some _ => none
  | .rotate =>
      match state.request, state.subscribed with
      | none, some _ =>
          some { state with subscribed := some state.subscriptions.toFinset }
      | _, _ => none
  | .stop => some { state with stopping := true }

/-! ## What a step does -/

/-- The steps of a route, with what each finds. -/
inductive RouteEffect (state : RouteState) :
    RouteLabel → RouteState → Prop where
  | wakeStopping {now : Nat}
      (resting : state.phase = .resting) (stopping : state.stopping) :
      RouteEffect state (.wake now) { state with phase := .ended }
  | wake {now : Nat}
      (resting : state.phase = .resting) (running : ¬ state.stopping) :
      RouteEffect state (.wake now)
        (state.closeNext now state.activeGaps.entries)
  | gapClosed {now : Nat} {key : LivenessKey}
      {rest : List (LivenessKey × ActiveGap)}
      (closing : state.phase = .closing now key rest) :
      RouteEffect state .gapClosed
        ({ state with
          activeGaps := state.activeGaps.erase key }.closeNext now rest)
  | gapSettled {key : LivenessKey} {rest : List StaleKey}
      (settling : state.phase = .settling key rest) :
      RouteEffect state .gapClosed
        ({ state with
          activeGaps := state.activeGaps.erase key }.settleNext rest)
  | gapMissed {gapId : String} {current : StaleKey}
      {rest stale : List StaleKey}
      (opening : state.phase = .opening current rest stale)
      (missing : state.lastEvent.get? current.key = none) :
      RouteEffect state (.gapOpened gapId)
        { state with phase := .failed current.key }
  | gapOpened {gapId : String} {current : StaleKey}
      {rest stale : List StaleKey} {observed : Seen}
      (opening : state.phase = .opening current rest stale)
      (found : state.lastEvent.get? current.key = some observed) :
      RouteEffect state (.gapOpened gapId)
        ({ state with
          activeGaps := state.activeGaps.set current.key
            ⟨gapId, observed.monotonic⟩ }.openNext rest stale)
  | lockRefresh {stale : List StaleKey}
      (locking : state.phase = .locking stale)
      (free : state.request = none) :
      RouteEffect state .lockRefresh
        { state with
          phase := .refreshing stale
          request := some (RouteState.refreshRequest stale) }
  | requestUpdate {instruments : List String}
      (idle : state.waiting = none)
      (noUpdate : ∀ request, state.request = some request →
        request.submitter = .refresh) :
      RouteEffect state (.requestUpdate instruments)
        { state with waiting := some instruments }
  | withdrawUpdate {instruments : List String}
      (waiting : state.waiting = some instruments) :
      RouteEffect state .withdrawUpdate { state with waiting := none }
  | lockUpdate {instruments : List String}
      (waiting : state.waiting = some instruments)
      (free : state.request = none) :
      RouteEffect state .lockUpdate
        { state with
          waiting := none
          request := some (state.updateRequest instruments) }
  | send {request : SubscriptionUpdate} {subscribed : Finset String}
      (holds : state.request = some request)
      (up : state.subscribed = some subscribed)
      (queued : request.stage = .queued) :
      RouteEffect state .send
        { state with
          request := some { request with stage := .sent }
          subscribed := some
            ((subscribed \ request.remove.toFinset) ∪
              request.add.toFinset) }
  | acknowledge {request : SubscriptionUpdate}
      (holds : state.request = some request)
      (sent : request.stage = .sent) :
      RouteEffect state .acknowledge
        { state with request := some { request with stage := .acknowledged } }
  | updated {request : SubscriptionUpdate} {instruments : List String}
      {now : Seen}
      (holds : state.request = some request)
      (acknowledged : request.stage = .acknowledged)
      (isUpdate : request.submitter = .update instruments) :
      RouteEffect state (.complete now) (state.commitUpdate instruments now)
  | refreshedStopping {request : SubscriptionUpdate}
      {stale : List StaleKey} {now : Seen}
      (holds : state.request = some request)
      (acknowledged : request.stage = .acknowledged)
      (isRefresh : request.submitter = .refresh)
      (refreshing : state.phase = .refreshing stale)
      (stopping : state.stopping) :
      RouteEffect state (.complete now)
        { state with request := none, phase := .ended }
  | refreshed {request : SubscriptionUpdate} {stale : List StaleKey}
      {now : Seen}
      (holds : state.request = some request)
      (acknowledged : request.stage = .acknowledged)
      (isRefresh : request.submitter = .refresh)
      (refreshing : state.phase = .refreshing stale)
      (running : ¬ state.stopping) :
      RouteEffect state (.complete now)
        ({ state with request := none }.watch stale now.monotonic)
  | updateGivenUp {request : SubscriptionUpdate}
      {instruments : List String} {failure : SubmissionFailure}
      (holds : state.request = some request)
      (isUpdate : request.submitter = .update instruments) :
      RouteEffect state (.giveUp failure) { state with request := none }
  | refreshGivenUp {request : SubscriptionUpdate}
      {failure : SubmissionFailure}
      (holds : state.request = some request)
      (isRefresh : request.submitter = .refresh) :
      RouteEffect state (.giveUp failure) (abandonRefresh state failure)
  | recheck {stale : List StaleKey} {after : Nat}
      (watching : state.phase = .watching stale after)
      (changed : state.changed) :
      RouteEffect state .recheck (state.watch stale after)
  | watchTimeout {stale : List StaleKey} {after : Nat}
      (watching : state.phase = .watching stale after) :
      RouteEffect state .watchTimeout
        { state with phase := .resting, reconnectRequested := true }
  | resumable (overloaded : state.phase = .overloaded) :
      RouteEffect state .resumable { state with phase := .resting }
  | event {key : LivenessKey} {seen : Seen}
      (monitored : (state.lastEvent.get? key).isSome) :
      RouteEffect state (.event key seen)
        { state with
          lastEvent := state.lastEvent.set key seen, changed := true }
  | eventUnmonitored {key : LivenessKey} {seen : Seen}
      (unmonitored : ¬ (state.lastEvent.get? key).isSome) :
      RouteEffect state (.event key seen) state
  | connectionLost :
      RouteEffect state .connectionLost
        { state with
          subscribed := none
          request := state.request.map fun request =>
            if request.stage = .queued then request
            else { request with stage := .broken } }
  | connect (down : state.subscribed = none) :
      RouteEffect state .connect
        { state with
          subscribed := some state.subscriptions.toFinset
          reconnectRequested := false }
  | rotate {subscribed : Finset String}
      (free : state.request = none)
      (up : state.subscribed = some subscribed) :
      RouteEffect state .rotate
        { state with subscribed := some state.subscriptions.toFinset }
  | stop : RouteEffect state .stop { state with stopping := true }

theorem routeStep_effect
    {state after : RouteState} {label : RouteLabel}
    (stepped : routeStep state label = some after) :
    RouteEffect state label after := by
  cases label with
  | wake now =>
      simp only [routeStep] at stepped
      split at stepped
      next resting =>
        split at stepped
        next stopping =>
          cases stepped
          exact .wakeStopping resting stopping
        next running =>
          cases stepped
          exact .wake resting running
      next => cases stepped
  | gapClosed =>
      simp only [routeStep] at stepped
      split at stepped
      next closing =>
        cases stepped
        exact .gapClosed closing
      next settling =>
        cases stepped
        exact .gapSettled settling
      next => cases stepped
  | gapOpened gapId =>
      simp only [routeStep] at stepped
      split at stepped
      next opening =>
        split at stepped
        next missing =>
          cases stepped
          exact .gapMissed opening missing
        next found =>
          cases stepped
          exact .gapOpened opening found
      next => cases stepped
  | lockRefresh =>
      simp only [routeStep] at stepped
      split at stepped
      next locking free =>
        cases stepped
        exact .lockRefresh locking free
      next => cases stepped
  | requestUpdate instruments =>
      simp only [routeStep] at stepped
      split at stepped
      next => cases stepped
      next idle noUpdate =>
        cases stepped
        refine .requestUpdate idle ?_
        rintro ⟨submitter, add, remove, snapshots, stage⟩ holds
        cases submitter with
        | refresh => rfl
        | update target => exact (noUpdate _ _ _ _ _ holds).elim
      next => cases stepped
  | withdrawUpdate =>
      simp only [routeStep] at stepped
      split at stepped
      next waiting =>
        cases stepped
        exact .withdrawUpdate waiting
      next => cases stepped
  | lockUpdate =>
      simp only [routeStep] at stepped
      split at stepped
      next waiting free =>
        cases stepped
        exact .lockUpdate waiting free
      next => cases stepped
  | send =>
      simp only [routeStep] at stepped
      split at stepped
      next holds up =>
        split at stepped
        next queued =>
          cases stepped
          exact .send holds up queued
        next => cases stepped
      next => cases stepped
  | acknowledge =>
      simp only [routeStep] at stepped
      split at stepped
      next holds =>
        split at stepped
        next sent =>
          cases stepped
          exact .acknowledge holds sent
        next => cases stepped
      next => cases stepped
  | complete now =>
      simp only [routeStep] at stepped
      split at stepped
      next => cases stepped
      next holds =>
        split at stepped
        next acknowledged =>
          split at stepped
          next isUpdate =>
            cases stepped
            exact .updated holds acknowledged isUpdate
          next isRefresh =>
            split at stepped
            next refreshing =>
              split at stepped
              next stopping =>
                cases stepped
                exact .refreshedStopping holds acknowledged isRefresh
                  refreshing stopping
              next running =>
                cases stepped
                exact .refreshed holds acknowledged isRefresh refreshing
                  running
            next => cases stepped
        next => cases stepped
  | giveUp failure =>
      simp only [routeStep] at stepped
      split at stepped
      next => cases stepped
      next holds =>
        split at stepped
        next isUpdate =>
          cases stepped
          exact .updateGivenUp holds isUpdate
        next isRefresh =>
          cases stepped
          exact .refreshGivenUp holds isRefresh
  | recheck =>
      simp only [routeStep] at stepped
      split at stepped
      next watching =>
        split at stepped
        next changed =>
          cases stepped
          exact .recheck watching changed
        next => cases stepped
      next => cases stepped
  | watchTimeout =>
      simp only [routeStep] at stepped
      split at stepped
      next watching =>
        cases stepped
        exact .watchTimeout watching
      next => cases stepped
  | resumable =>
      simp only [routeStep] at stepped
      split at stepped
      next overloaded =>
        cases stepped
        exact .resumable overloaded
      next => cases stepped
  | event key seen =>
      simp only [routeStep] at stepped
      split at stepped
      next monitored =>
        cases stepped
        exact .event monitored
      next unmonitored =>
        cases stepped
        exact .eventUnmonitored unmonitored
  | connectionLost =>
      cases stepped
      exact .connectionLost
  | connect =>
      simp only [routeStep] at stepped
      split at stepped
      next down =>
        cases stepped
        exact .connect down
      next => cases stepped
  | rotate =>
      simp only [routeStep] at stepped
      split at stepped
      next free up =>
        cases stepped
        exact .rotate free up
      next => cases stepped
  | stop =>
      cases stepped
      exact .stop

/-- A route whose connection is up and whose streams were all just heard of. -/
def startRoute (kind : RouteKind) (livenessTimeout : Nat)
    (instruments : List String) (now : Seen) : RouteState where
  kind
  livenessTimeout
  instruments
  subscriptions := kind.subscriptionsFor instruments
  lastEvent :=
    (kind.livenessTypes.flatMap fun streamType =>
      instruments.map fun symbol => (streamType, symbol)).foldl
      (fun lastEvent key => lastEvent.set key now) Dict.empty
  activeGaps := Dict.empty
  phase := .resting
  changed := false
  waiting := none
  request := none
  subscribed := some (kind.subscriptionsFor instruments).toFinset
  reconnectRequested := false
  stopping := false

end ShadowDataPlane.Edge
