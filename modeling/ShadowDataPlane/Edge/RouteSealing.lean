import ShadowDataPlane.Edge.GapDecomposition
import ShadowDataPlane.Edge.RouteUpdates

/-!
# Backdated route gaps and sealed days

`_open_gap` backdates the gap of a route to the oldest last event of its
monitored streams.  The day index refuses an event of a sealed day, and the
midnight loop seals a day a configured grace after it ended; a boot seals the
completed days as soon as its sources are ready, without a grace.  The gaps
which `liveness_loop` opens are backdated to the last events of their streams
and meet the same day index.

The machine runs a route (`routeStep`) against the clock and the day index.  The
clock does not go back.  Gaps whose start an error brings with it are recorded
elsewhere; they do not touch the sealed days.
-/

namespace ShadowDataPlane.Edge

open ShadowDataPlane.Contracts
open ShadowDataPlane.Foundation

/-! ## The configuration -/

/-- A number of seconds on the nanosecond clock. -/
def seconds (count : Nat) : Nat := count * nsPerSecond

/-- The timings of `EdgeConfig`, with its bounds and `validate_ratios`. -/
structure EdgeConfig where
  publicStreamLivenessNs : Nat := seconds 30
  markPriceLivenessNs : Nat := seconds 5
  daySealGraceNs : Nat := seconds 90
  websocketReceiveTimeoutNs : Nat := seconds 30
  subscriptionAuditNs : Nat := seconds 60
  subscriptionAuditTimeoutNs : Nat := seconds 10
  publicStreamLivenessBounds :
    seconds 10 ≤ publicStreamLivenessNs ∧
      publicStreamLivenessNs ≤ seconds 300 := by decide
  markPriceLivenessBounds :
    seconds 3 ≤ markPriceLivenessNs ∧
      markPriceLivenessNs ≤ seconds 30 := by decide
  daySealGraceBounds :
    seconds 10 ≤ daySealGraceNs ∧ daySealGraceNs ≤ seconds 600 := by decide
  websocketReceiveTimeoutBounds :
    seconds 5 ≤ websocketReceiveTimeoutNs ∧
      websocketReceiveTimeoutNs ≤ seconds 300 := by decide
  subscriptionAuditBounds :
    seconds 10 ≤ subscriptionAuditNs ∧
      subscriptionAuditNs ≤ seconds 300 := by decide
  subscriptionAuditTimeoutBounds :
    seconds 1 ≤ subscriptionAuditTimeoutNs ∧
      subscriptionAuditTimeoutNs ≤ seconds 30 := by decide
  graceExceedsLiveness : publicStreamLivenessNs < daySealGraceNs := by decide
  auditExceedsReceive :
    websocketReceiveTimeoutNs < subscriptionAuditNs := by decide
  auditExceedsTimeout :
    subscriptionAuditTimeoutNs < subscriptionAuditNs := by decide
  graceExceedsAudit :
    subscriptionAuditNs + subscriptionAuditTimeoutNs <
      daySealGraceNs := by decide

/-- The liveness timeout which the source manager gives a route. -/
def EdgeConfig.livenessNs (config : EdgeConfig) : RouteKind → Nat
  | .publicRoute _ => config.publicStreamLivenessNs
  | .marketRoute => config.markPriceLivenessNs

/-- The stream types which a gap of the route covers. -/
def RouteKind.streamTypes : RouteKind → List StreamType
  | .publicRoute d0Enabled =>
      [.bookTicker, .depth] ++ if d0Enabled then [.trade, .rpiDepth] else []
  | .marketRoute => [.aggTrade, .markPrice, .forceOrder, .contractInfo]

/-! ## Steps -/

/-- A route under the clock. -/
structure RouteDay where
  route : RouteState
  nowNs : Nat
  index : DayIndex GapEventV1
  /-- The sources were started and have not become ready. -/
  booting : Bool
  /-- The event of `_open_gap`, which waits for the day index. -/
  opening : Option GapEventV1
  gapId : Option String
  /-- `RuntimeError`: cannot publish into a sealed UTC day. -/
  refused : Bool
deriving DecidableEq

/-- What happens to the route, to its days or to the clock. -/
inductive RouteDayLabel where
  | advance (elapsedNs : Nat)
  | route (label : RouteLabel)
  /-- The day index takes or refuses the gap which the loop opens. -/
  | openStale (gapId : String) (detail : String)
  | openGap (gapId : String) (reason : GapReason) (detail : String)
  | record
  | closeGap
  | sealDay (utcDate : Nat)
  | completeBoot (completed : List Nat)
  | restart (instruments : List String) (monotonic : Nat)
deriving DecidableEq

/-- What a label reads from the clock is the present instant. -/
def RouteLabel.Timed (nowNs : Nat) : RouteLabel → Prop
  | .event _ seen => seen.realtimeNs = nowNs
  | .complete now => now.realtimeNs = nowNs
  | _ => True

instance (nowNs : Nat) (label : RouteLabel) : Decidable (label.Timed nowNs) :=
  match label with
  | .event _ seen => inferInstanceAs (Decidable (seen.realtimeNs = nowNs))
  | .complete now => inferInstanceAs (Decidable (now.realtimeNs = nowNs))
  | .wake _ | .gapClosed | .gapOpened _ | .lockRefresh | .requestUpdate _
  | .withdrawUpdate | .lockUpdate | .send | .acknowledge | .giveUp _
  | .recheck | .watchTimeout | .resumable | .connectionLost | .connect
  | .rotate | .stop => .isTrue trivial

/-- The loop has opened a gap. -/
def RouteLabel.OpensGap : RouteLabel → Prop
  | .gapOpened _ => True
  | _ => False

instance (label : RouteLabel) : Decidable label.OpensGap :=
  match label with
  | .gapOpened _ => .isTrue trivial
  | .event _ _ | .complete _ | .wake _ | .gapClosed | .lockRefresh
  | .requestUpdate _ | .withdrawUpdate | .lockUpdate | .send | .acknowledge
  | .giveUp _ | .recheck | .watchTimeout | .resumable | .connectionLost
  | .connect | .rotate | .stop => .isFalse id

/-- The oldest last event; without monitored streams, the present instant. -/
def oldestSeen (lastEvent : Dict LivenessKey Seen) (nowNs : Nat) : Nat :=
  ((lastEvent.values.map Seen.realtimeNs).min?).getD nowNs

/-- The call of `_open_gap`. -/
def RouteState.gapCall (route : RouteState) (reason : GapReason)
    (detail : String) : GapCall where
  reason
  exchangeSymbols := route.instruments
  streamTypes := route.kind.streamTypes
  detail

/-- The call of `liveness_loop` for a silent stream. -/
def StaleKey.gapCall (stale : StaleKey) (detail : String) : GapCall where
  reason := .connectionLost
  exchangeSymbols := [stale.key.2]
  streamTypes := [stale.key.1]
  detail

/-- A route gap is opened while none is open and the connection failed. -/
def RouteDay.MayOpen (state : RouteDay) : Prop :=
  state.opening = none ∧ state.gapId = none ∧
    (state.route.subscribed = none ∨ state.route.reconnectRequested = true)

instance (state : RouteDay) : Decidable state.MayOpen :=
  inferInstanceAs (Decidable (_ ∧ _ ∧ _))

/-- One step of a route under the clock. -/
def routeDayStep (config : EdgeConfig) (state : RouteDay) :
    RouteDayLabel → Option RouteDay
  | .advance elapsedNs => some { state with nowNs := state.nowNs + elapsedNs }
  | .route label =>
      if label.Timed state.nowNs ∧ ¬ label.OpensGap then
        (routeStep state.route label).map fun route => { state with route }
      else none
  | .openStale gapId detail =>
      match state.route.phase with
      | .opening current _ _ =>
          match openEvent gapId state.nowNs (some current.affectedFromNs)
              (current.gapCall detail) with
          | none => some { state with refused := true }
          | some event =>
              match state.index.recordGenerated event.eventDate event with
              | .error _ =>
                  some { state with
                    refused := true
                    route := { state.route with phase := .ended } }
              | .ok index =>
                  (routeStep state.route (.gapOpened gapId)).map fun route =>
                    { state with index, route }
      | _ => none
  | .openGap gapId reason detail =>
      if state.MayOpen then
        match openEvent gapId state.nowNs
            (some (oldestSeen state.route.lastEvent state.nowNs))
            (state.route.gapCall reason detail) with
        | none => some { state with refused := true }
        | some event => some { state with opening := some event }
      else none
  | .record =>
      match state.opening with
      | none => none
      | some event =>
          match state.index.recordGenerated event.eventDate event with
          | .error _ => some { state with opening := none, refused := true }
          | .ok index =>
              some { state with
                index, opening := none, gapId := some event.gapId }
  -- The transport is ready: every monitored stream spoke on the connection.
  | .closeGap =>
      match state.gapId, state.route.subscribed with
      | some _, some _ => some { state with gapId := none }
      | _, _ => none
  | .sealDay utcDate =>
      if midnightNs (utcDate + 1) + config.daySealGraceNs ≤ state.nowNs then
        some { state with index := state.index.sealDay utcDate }
      else none
  | .completeBoot completed =>
      if state.booting = true ∧
          ∀ utcDate ∈ completed, midnightNs (utcDate + 1) ≤ state.nowNs then
        some { state with
          booting := false
          index := completed.foldl DayIndex.sealDay state.index }
      else none
  | .restart instruments monotonic =>
      some { state with
        route := startRoute state.route.kind
          (config.livenessNs state.route.kind) instruments
          ⟨monotonic, state.nowNs⟩
        booting := true
        opening := none
        gapId := none }

/-- The first boot of the collector. -/
def firstBoot (config : EdgeConfig) (kind : RouteKind)
    (instruments : List String) (now : Seen) : RouteDay where
  route := startRoute kind (config.livenessNs kind) instruments now
  nowNs := now.realtimeNs
  index := {}
  booting := true
  opening := none
  gapId := none
  refused := false

/-! ## The property -/

/-- The gaps which this iteration of the loop has still to open. -/
def RouteState.pendingOpenings (route : RouteState) : List StaleKey :=
  match route.phase with
  | .opening current rest _ =>
      current :: rest.filter fun stale =>
        (route.activeGaps.get? stale.key).isNone
  | _ => []

/-- The stream whose gap the loop is closing. -/
def RouteState.closingKey (route : RouteState) : Option LivenessKey :=
  match route.phase with
  | .closing _ key _ => some key
  | .settling key _ => some key
  | _ => none

/-- No backdated gap was refused, and those which are being opened are not. -/
structure BackdatesAccepted (state : RouteDay) : Prop where
  notRefused : state.refused = false
  pending : ∀ event, state.opening = some event →
    ¬ state.index.DayIsSealed event.eventDate
  pendingStale : ∀ stale ∈ state.route.pendingOpenings,
    ¬ state.index.DayIsSealed (dateOfNs stale.affectedFromNs)

/--
Sealing a day changes no start: a monitored stream was last heard of on it only
if the gap of the route and that of the stream are open, and no opening which
waits starts on it.
-/
structure RouteDay.SealsSafely (state : RouteDay) (utcDate : Nat) :
    Prop where
  heard : ∀ entry ∈ state.route.lastEvent.entries,
    dateOfNs entry.2.realtimeNs = utcDate →
      state.gapId.isSome ∧ (state.route.activeGaps.get? entry.1).isSome
  opening : ∀ event ∈ state.opening, event.eventDate ≠ utcDate
  stale : ∀ stale ∈ state.route.pendingOpenings,
    dateOfNs stale.affectedFromNs ≠ utcDate

/--
A day is sealed only when its gaps are open already, and a gap is closed only
when its streams were not last heard of on a sealed day.
-/
def SealsHeard (state : RouteDay) : RouteDayLabel → Prop
  | .route .gapClosed =>
      ∀ key ∈ state.route.closingKey, ∀ seen ∈ state.route.lastEvent.get? key,
        ¬ state.index.DayIsSealed (dateOfNs seen.realtimeNs)
  | .sealDay utcDate => state.SealsSafely utcDate
  | .completeBoot completed =>
      ∀ utcDate ∈ completed, state.SealsSafely utcDate
  | .closeGap =>
      ∀ entry ∈ state.route.lastEvent.entries,
        ¬ state.index.DayIsSealed (dateOfNs entry.2.realtimeNs)
  | _ => True

instance (state : RouteDay) (utcDate : Nat) :
    Decidable (state.SealsSafely utcDate) :=
  decidable_of_iff
    ((∀ entry ∈ state.route.lastEvent.entries,
      dateOfNs entry.2.realtimeNs = utcDate →
        state.gapId.isSome ∧ (state.route.activeGaps.get? entry.1).isSome) ∧
      (∀ event ∈ state.opening, event.eventDate ≠ utcDate) ∧
      ∀ stale ∈ state.route.pendingOpenings,
        dateOfNs stale.affectedFromNs ≠ utcDate)
    ⟨fun ⟨heard, opening, stale⟩ => ⟨heard, opening, stale⟩,
      fun ⟨heard, opening, stale⟩ => ⟨heard, opening, stale⟩⟩

instance (state : RouteDay) (label : RouteDayLabel) :
    Decidable (SealsHeard state label) := by
  unfold SealsHeard
  split <;> infer_instance

/-! ## The last events of a route -/

namespace RouteState

theorem lastEvent_closeNext
    (state : RouteState) (now : Nat) (rest : List (LivenessKey × ActiveGap)) :
    (state.closeNext now rest).lastEvent = state.lastEvent := by
  rw [closeNext]
  split
  · rfl
  · split <;> rfl

theorem lastEvent_watch
    (state : RouteState) (stale : List StaleKey) (after : Nat) :
    (state.watch stale after).lastEvent = state.lastEvent := by
  rw [watch]
  split <;> rfl

theorem get?_updatedLastEvent
    {state : RouteState} {instruments : List String} {now seen : Seen}
    {key : LivenessKey}
    (bound : (state.updatedLastEvent instruments now).get? key = some seen) :
    state.lastEvent.get? key = some seen ∨ seen = now := by
  rw [updatedLastEvent, get?_foldl_monitored fun key =>
    (state.lastEvent.get? key).getD now] at bound
  split at bound
  next =>
    cases found : state.lastEvent.get? key with
    | none =>
        rw [found] at bound
        cases bound
        exact Or.inr rfl
    | some earlier =>
        rw [found] at bound
        cases bound
        exact Or.inl rfl
  next => cases bound

end RouteState

/-- A step of the route only adds events of the present instant. -/
theorem routeStep_lastEvent
    {state after : RouteState} {label : RouteLabel} {nowNs : Nat}
    (timed : label.Timed nowNs)
    (stepped : routeStep state label = some after)
    {key : LivenessKey} {seen : Seen}
    (bound : after.lastEvent.get? key = some seen) :
    state.lastEvent.get? key = some seen ∨ seen.realtimeNs = nowNs := by
  cases routeStep_effect stepped with
  | wake =>
      rw [RouteState.lastEvent_closeNext] at bound
      exact Or.inl bound
  | gapClosed =>
      rw [RouteState.lastEvent_closeNext] at bound
      exact Or.inl bound
  | updated =>
      rcases RouteState.get?_updatedLastEvent bound with earlier | isNow
      · exact Or.inl earlier
      · exact Or.inr (isNow ▸ timed)
  | refreshed =>
      rw [RouteState.lastEvent_watch] at bound
      exact Or.inl bound
  | recheck =>
      rw [RouteState.lastEvent_watch] at bound
      exact Or.inl bound
  | event =>
      rw [Dict.get?_set] at bound
      split at bound
      next =>
        cases bound
        exact Or.inr timed
      next => exact Or.inl bound
  | @refreshGivenUp _ failure =>
      cases failure with
      | timedOut => exact Or.inl bound
      | overloaded => exact Or.inl bound
      | cancelled => exact Or.inl bound
  | _ => exact Or.inl bound

/-! ## What the loop may open -/

namespace RouteState

/-- A stream without an open gap of its own was last heard of then. -/
def Unannounced (route : RouteState) (startNs : Nat) : Prop :=
  ∃ key seen, route.lastEvent.get? key = some seen ∧
    route.activeGaps.get? key = none ∧ seen.realtimeNs = startNs

/-- The loop may yet open a gap from this instant. -/
def Exposed (route : RouteState) (startNs : Nat) : Prop :=
  route.Unannounced startNs ∨
    ∃ stale ∈ route.pendingOpenings, stale.affectedFromNs = startNs

theorem Exposed.of_idle
    {route : RouteState} {startNs : Nat} (exposed : route.Exposed startNs)
    (idle : route.pendingOpenings = []) : route.Unannounced startNs := by
  rcases exposed with unannounced | ⟨stale, member, _⟩
  · exact unannounced
  · rw [idle] at member
    cases member

theorem pendingOpenings_of_phase
    {route : RouteState}
    (idle : ∀ current rest stale, route.phase ≠ .opening current rest stale) :
    route.pendingOpenings = [] := by
  rw [pendingOpenings]
  split
  next current rest stale isPhase =>
    exact absurd isPhase (idle current rest stale)
  next => rfl

theorem nextOpening_unopened
    {activeGaps : Dict LivenessKey ActiveGap} {rest later : List StaleKey}
    {current : StaleKey}
    (next : nextOpening activeGaps rest = some (current, later)) :
    activeGaps.get? current.key = none := by
  induction rest with
  | nil => cases next
  | cons head tail induction =>
      rw [nextOpening] at next
      split at next
      next => exact induction next
      next unopened =>
        cases next
        exact Option.not_isSome_iff_eq_none.mp unopened

theorem exposed_openNext
    {route : RouteState} {rest stale : List StaleKey} {startNs : Nat}
    (exposed : (route.openNext rest stale).Exposed startNs) :
    route.Unannounced startNs ∨
      ∃ other ∈ rest, route.activeGaps.get? other.key = none ∧
        other.affectedFromNs = startNs := by
  rcases exposed with unannounced | ⟨other, pending, isStart⟩
  · exact Or.inl unannounced
  right
  cases next : nextOpening route.activeGaps rest with
  | none => simp [pendingOpenings, openNext, next] at pending
  | some found =>
      rcases found with ⟨current, later⟩
      simp only [pendingOpenings, openNext, next, List.mem_cons,
        List.mem_filter] at pending
      rcases nextOpening_eq_some next with ⟨isCurrent, areLater⟩
      rcases pending with rfl | ⟨inLater, unopened⟩
      · exact ⟨other, isCurrent, nextOpening_unopened next, isStart⟩
      · exact ⟨other, areLater other inLater,
          Option.isNone_iff_eq_none.mp unopened, isStart⟩

theorem seen_of_mem_staleKeys
    {lastEvent : Dict LivenessKey Seen} {now timeout : Nat} {stale : StaleKey}
    (member : stale ∈ staleKeys lastEvent now timeout) :
    ∃ seen, lastEvent.get? stale.key = some seen ∧
      seen.realtimeNs = stale.affectedFromNs := by
  rcases List.mem_map.mp member with ⟨⟨key, seen⟩, filtered, rfl⟩
  exact ⟨seen, lastEvent.mem_entries_iff.mp (List.mem_of_mem_filter filtered),
    rfl⟩

/-- An iteration of the loop opens gaps since last events only. -/
theorem exposed_closeNext
    {route : RouteState} {now : Nat} {rest : List (LivenessKey × ActiveGap)}
    {startNs : Nat} (exposed : (route.closeNext now rest).Exposed startNs) :
    route.Unannounced startNs := by
  rw [closeNext] at exposed
  split at exposed
  next =>
    exact exposed.of_idle (pendingOpenings_of_phase (by rintro _ _ _ ⟨⟩))
  next =>
    split at exposed
    next =>
      exact exposed.of_idle (pendingOpenings_of_phase (by rintro _ _ _ ⟨⟩))
    next stale _ =>
      rcases exposed_openNext exposed with
        unannounced | ⟨other, member, unopened, isStart⟩
      · exact unannounced
      · rcases seen_of_mem_staleKeys member with ⟨seen, found, isSeen⟩
        exact ⟨other.key, seen, found, unopened, isSeen.trans isStart⟩

theorem exposed_settleNext
    {route : RouteState} {rest : List StaleKey} {startNs : Nat}
    (exposed : (route.settleNext rest).Exposed startNs) :
    route.Unannounced startNs := by
  refine exposed.of_idle (pendingOpenings_of_phase ?_)
  intro current later stale isPhase
  simp only [settleNext] at isPhase
  split at isPhase <;> cases isPhase

theorem exposed_watch
    {route : RouteState} {stale : List StaleKey} {after startNs : Nat}
    (exposed : (route.watch stale after).Exposed startNs) :
    route.Unannounced startNs := by
  rw [watch] at exposed
  split at exposed
  next =>
    exact exposed.of_idle (pendingOpenings_of_phase (by rintro _ _ _ ⟨⟩))
  next => exact exposed_settleNext exposed
  next =>
    exact exposed.of_idle (pendingOpenings_of_phase (by rintro _ _ _ ⟨⟩))

/-- Closing a gap exposes the last event of its stream. -/
theorem unannounced_erase
    {route : RouteState} {key : LivenessKey} {startNs : Nat}
    (unannounced : Unannounced
      { route with activeGaps := route.activeGaps.erase key } startNs) :
    route.Unannounced startNs ∨
      ∃ seen, route.lastEvent.get? key = some seen ∧
        seen.realtimeNs = startNs := by
  rcases unannounced with ⟨other, seen, found, unopened, isStart⟩
  by_cases same : other = key
  · subst same
    exact Or.inr ⟨seen, found, isStart⟩
  · rw [Dict.get?_erase, if_neg same] at unopened
    exact Or.inl ⟨other, seen, found, unopened, isStart⟩

end RouteState

/--
A step of the route exposes only the present instant, or the last event of the
stream whose gap it closes.
-/
theorem routeStep_exposed
    {state after : RouteState} {label : RouteLabel} {nowNs startNs : Nat}
    (timed : label.Timed nowNs)
    (stepped : routeStep state label = some after)
    (exposed : after.Exposed startNs) :
    state.Exposed startNs ∨ startNs = nowNs ∨
      label = .gapClosed ∧ ∃ key ∈ state.closingKey,
        ∃ seen ∈ state.lastEvent.get? key, seen.realtimeNs = startNs := by
  cases routeStep_effect stepped with
  | wakeStopping | lockRefresh | refreshedStopping | watchTimeout
  | resumable =>
      exact Or.inl (Or.inl (exposed.of_idle
        (RouteState.pendingOpenings_of_phase (by rintro _ _ _ ⟨⟩))))
  | gapMissed =>
      exact Or.inl (Or.inl (exposed.of_idle
        (RouteState.pendingOpenings_of_phase (by rintro _ _ _ ⟨⟩))))
  | wake => exact Or.inl (Or.inl (RouteState.exposed_closeNext exposed))
  | @gapClosed now key rest closing =>
      rcases RouteState.unannounced_erase
          (RouteState.exposed_closeNext exposed) with
        unannounced | ⟨seen, found, isStart⟩
      · exact Or.inl (Or.inl unannounced)
      · refine Or.inr (Or.inr ⟨rfl, key, ?_, seen, found, isStart⟩)
        simp [RouteState.closingKey, closing]
  | @gapSettled key rest settling =>
      rcases RouteState.unannounced_erase
          (RouteState.exposed_settleNext exposed) with
        unannounced | ⟨seen, found, isStart⟩
      · exact Or.inl (Or.inl unannounced)
      · refine Or.inr (Or.inr ⟨rfl, key, ?_, seen, found, isStart⟩)
        simp [RouteState.closingKey, settling]
  | @gapOpened gapId current rest stale observed opening _ =>
      have unopened : ∀ {key : LivenessKey},
          (state.activeGaps.set current.key
            ⟨gapId, observed.monotonic⟩).get? key = none →
              state.activeGaps.get? key = none := by
        intro key absent
        rw [Dict.get?_set] at absent
        split at absent
        · cases absent
        · exact absent
      rcases RouteState.exposed_openNext exposed with
        ⟨key, seen, found, absent, isStart⟩ | ⟨other, member, absent, isStart⟩
      · exact Or.inl (Or.inl ⟨key, seen, found, unopened absent, isStart⟩)
      · refine Or.inl (Or.inr ⟨other, ?_, isStart⟩)
        have isUnopened : state.activeGaps.get? other.key = none :=
          unopened absent
        simp [RouteState.pendingOpenings, opening, member, isUnopened]
  | updated =>
      rcases exposed with ⟨key, seen, found, unopened, isStart⟩ | pending
      · rcases RouteState.get?_updatedLastEvent found with earlier | isNow
        · exact Or.inl (Or.inl ⟨key, seen, earlier, unopened, isStart⟩)
        · exact Or.inr (Or.inl (isStart.symm.trans (isNow ▸ timed)))
      · exact Or.inl (Or.inr pending)
  | @refreshed _ stale now =>
      exact Or.inl (Or.inl (@RouteState.exposed_watch
        { state with request := none } stale now.monotonic startNs exposed))
  | recheck => exact Or.inl (Or.inl (RouteState.exposed_watch exposed))
  | event =>
      rcases exposed with ⟨other, heard, found, unopened, isStart⟩ | pending
      · rw [Dict.get?_set] at found
        split at found
        next =>
          cases found
          exact Or.inr (Or.inl (isStart.symm.trans timed))
        next => exact Or.inl (Or.inl ⟨other, heard, found, unopened, isStart⟩)
      · exact Or.inl (Or.inr pending)
  | @refreshGivenUp _ failure =>
      refine Or.inl (Or.inl ?_)
      cases failure with
      | timedOut =>
          exact exposed.of_idle
            (RouteState.pendingOpenings_of_phase (by rintro _ _ _ ⟨⟩))
      | overloaded =>
          exact exposed.of_idle
            (RouteState.pendingOpenings_of_phase (by rintro _ _ _ ⟨⟩))
      | cancelled =>
          exact exposed.of_idle
            (RouteState.pendingOpenings_of_phase (by rintro _ _ _ ⟨⟩))
  | _ => exact Or.inl exposed

/-! ## The invariant -/

theorem oldestSeen_cases (lastEvent : Dict LivenessKey Seen) (nowNs : Nat) :
    oldestSeen lastEvent nowNs = nowNs ∨
      ∃ key seen, lastEvent.get? key = some seen ∧
        oldestSeen lastEvent nowNs = seen.realtimeNs := by
  rw [oldestSeen]
  cases least : (lastEvent.values.map Seen.realtimeNs).min? with
  | none => exact Or.inl rfl
  | some oldest =>
      rcases List.mem_map.mp (List.min?_mem least) with ⟨seen, isValue, same⟩
      rcases lastEvent.mem_values_iff.mp isValue with ⟨key, found⟩
      exact Or.inr ⟨key, seen, found, same.symm⟩

/-- What holds between any two steps: no sealed day is ever backdated to. -/
structure SealingSound (state : RouteDay) : Prop where
  notRefused : state.refused = false
  pending : ∀ event, state.opening = some event →
    ¬ state.index.DayIsSealed event.eventDate
  /-- Only past days are sealed. -/
  past : ∀ utcDate, state.index.DayIsSealed utcDate →
    utcDate < dateOfNs state.nowNs
  heard : ∀ key seen, state.route.lastEvent.get? key = some seen →
    seen.realtimeNs ≤ state.nowNs
  fresh : state.gapId = none →
    ∀ key seen, state.route.lastEvent.get? key = some seen →
      ¬ state.index.DayIsSealed (dateOfNs seen.realtimeNs)
  opening : ∀ event, state.opening = some event → state.gapId = none
  exposed : ∀ startNs, state.route.Exposed startNs →
    startNs ≤ state.nowNs ∧ ¬ state.index.DayIsSealed (dateOfNs startNs)

namespace SealingSound

variable {config : EdgeConfig} {state : RouteDay}

theorem accepted (sound : SealingSound state) : BackdatesAccepted state where
  notRefused := sound.notRefused
  pending := sound.pending
  pendingStale stale member :=
    (sound.exposed stale.affectedFromNs (Or.inr ⟨stale, member, rfl⟩)).2

theorem not_sealed_now (sound : SealingSound state) :
    ¬ state.index.DayIsSealed (dateOfNs state.nowNs) := by
  intro isSealed
  exact Nat.lt_irrefl _ (sound.past _ isSealed)

theorem advance (sound : SealingSound state) (elapsedNs : Nat) :
    SealingSound { state with nowNs := state.nowNs + elapsedNs } where
  notRefused := sound.notRefused
  pending := sound.pending
  past utcDate isSealed := by
    apply Nat.lt_of_lt_of_le (sound.past utcDate isSealed)
    exact dateOfNs_mono (Nat.le_add_right _ _)
  heard key seen bound :=
    Nat.le_trans (sound.heard key seen bound) (Nat.le_add_right _ _)
  fresh := sound.fresh
  opening := sound.opening
  exposed startNs isExposed :=
    (sound.exposed startNs isExposed).imp_left fun earlier =>
      Nat.le_trans earlier (Nat.le_add_right _ _)

theorem route
    (sound : SealingSound state) {label : RouteLabel} {after : RouteState}
    (timed : label.Timed state.nowNs)
    (heard : SealsHeard state (.route label))
    (stepped : routeStep state.route label = some after) :
    SealingSound { state with route := after } where
  notRefused := sound.notRefused
  pending := sound.pending
  past := sound.past
  heard key seen bound := by
    rcases routeStep_lastEvent timed stepped bound with earlier | isNow
    · exact sound.heard key seen earlier
    · exact isNow.le
  fresh closed key seen bound := by
    rcases routeStep_lastEvent timed stepped bound with earlier | isNow
    · exact sound.fresh closed key seen earlier
    · rw [isNow]
      exact sound.not_sealed_now
  opening := sound.opening
  exposed startNs isExposed := by
    rcases routeStep_exposed timed stepped isExposed with
      before | rfl | ⟨rfl, key, isKey, seen, found, rfl⟩
    · exact sound.exposed startNs before
    · exact ⟨Nat.le_refl _, sound.not_sealed_now⟩
    · exact ⟨sound.heard key seen found, heard key isKey seen found⟩

/-- While no route gap is open, the oldest last event is of no sealed day. -/
theorem oldestSeen_sound
    (sound : SealingSound state) (closed : state.gapId = none) :
    oldestSeen state.route.lastEvent state.nowNs ≤ state.nowNs ∧
      ¬ state.index.DayIsSealed
        (dateOfNs (oldestSeen state.route.lastEvent state.nowNs)) := by
  rcases oldestSeen_cases state.route.lastEvent state.nowNs with
    isNow | ⟨key, seen, bound, isSeen⟩
  · rw [isNow]
    exact ⟨le_refl _, sound.not_sealed_now⟩
  · rw [isSeen]
    exact ⟨sound.heard key seen bound, sound.fresh closed key seen bound⟩

theorem openGap
    (sound : SealingSound state) {gapId : String} {reason : GapReason}
    {detail : String} {after : RouteDay}
    (stepped : routeDayStep config state (.openGap gapId reason detail) =
      some after) : SealingSound after := by
  simp only [routeDayStep] at stepped
  split at stepped
  next mayOpen =>
    rcases sound.oldestSeen_sound mayOpen.2.1 with ⟨earlier, notSealed⟩
    split at stepped
    next refused =>
      rw [openEvent, dif_pos fun affected isStart =>
        Option.some.inj isStart ▸ earlier] at refused
      cases refused
    next event built =>
      cases stepped
      exact {
        notRefused := sound.notRefused
        pending := by
          rintro _ ⟨⟩
          rw [openEvent_eventDate built]
          exact notSealed
        past := sound.past
        heard := sound.heard
        fresh := sound.fresh
        opening := fun _ _ => mayOpen.2.1
        exposed := sound.exposed }
  next => cases stepped

/-- Recording an event seals no day. -/
theorem recorded
    (sound : SealingSound state) {utcDate : Nat} {event : GapEventV1}
    {index : DayIndex GapEventV1}
    (completed : state.index.recordGenerated utcDate event = .ok index) :
    SealingSound { state with index } := by
  have same : ∀ {date}, index.DayIsSealed date → state.index.DayIsSealed date :=
    fun isSealed => (DayIndex.dayIsSealed_recordGenerated completed).mp isSealed
  exact {
    notRefused := sound.notRefused
    pending := fun event opening => mt same (sound.pending event opening)
    past := fun utcDate isSealed => sound.past utcDate (same isSealed)
    heard := sound.heard
    fresh := fun closed key seen bound =>
      mt same (sound.fresh closed key seen bound)
    opening := sound.opening
    exposed := fun startNs isExposed =>
      (sound.exposed startNs isExposed).imp_right (mt same) }

theorem record
    (sound : SealingSound state) {after : RouteDay}
    (stepped : routeDayStep config state .record = some after) :
    SealingSound after := by
  simp only [routeDayStep] at stepped
  split at stepped
  next => cases stepped
  next event opening =>
    have notSealed := sound.pending event opening
    split at stepped
    next problem refused =>
      rw [DayIndex.recordGenerated, if_neg notSealed] at refused
      split at refused <;> cases refused
    next index completed =>
      cases stepped
      have next := sound.recorded completed
      exact {
        notRefused := next.notRefused
        pending := by
          rintro _ ⟨⟩
        past := next.past
        heard := next.heard
        fresh := by
          rintro ⟨⟩
        opening := by
          rintro _ ⟨⟩
        exposed := next.exposed }

/-- The day index takes what the loop opens. -/
theorem openStale
    (sound : SealingSound state) {gapId detail : String} {after : RouteDay}
    (stepped : routeDayStep config state (.openStale gapId detail) =
      some after) : SealingSound after := by
  simp only [routeDayStep] at stepped
  split at stepped
  next current rest stale opening =>
    have isExposed : state.route.Exposed current.affectedFromNs := by
      refine Or.inr ⟨current, ?_, rfl⟩
      simp [RouteState.pendingOpenings, opening]
    rcases sound.exposed current.affectedFromNs isExposed with
      ⟨earlier, notSealed⟩
    split at stepped
    next refused =>
      rw [openEvent, dif_pos fun affected isStart =>
        Option.some.inj isStart ▸ earlier] at refused
      cases refused
    next event built =>
      have isDate : event.eventDate = dateOfNs current.affectedFromNs :=
        openEvent_eventDate built
      rw [isDate] at stepped
      split at stepped
      next problem refused =>
        rw [DayIndex.recordGenerated, if_neg notSealed] at refused
        split at refused <;> cases refused
      next index completed =>
        rcases Option.map_eq_some_iff.mp stepped with ⟨route, moved, rfl⟩
        refine (sound.recorded completed).route ?_ ?_ moved
        · trivial
        · trivial
  next => cases stepped

theorem closeGap
    (sound : SealingSound state)
    (heard : ∀ entry ∈ state.route.lastEvent.entries,
      ¬ state.index.DayIsSealed (dateOfNs entry.2.realtimeNs)) :
    SealingSound { state with gapId := none } where
  notRefused := sound.notRefused
  pending := sound.pending
  past := sound.past
  heard := sound.heard
  fresh _ key seen bound :=
    heard (key, seen) (state.route.lastEvent.mem_entries_iff.mpr bound)
  opening _ _ := rfl
  exposed := sound.exposed

theorem sealDay
    (sound : SealingSound state) {utcDate : Nat}
    (ended : midnightNs (utcDate + 1) ≤ state.nowNs)
    (safely : state.SealsSafely utcDate) :
    SealingSound { state with index := state.index.sealDay utcDate } where
  notRefused := sound.notRefused
  pending event opening isSealed := by
    rcases DayIndex.dayIsSealed_sealDay.mp isSealed with same | already
    · exact safely.opening event opening same
    · exact sound.pending event opening already
  past date isSealed := by
    rcases DayIndex.dayIsSealed_sealDay.mp isSealed with rfl | already
    · exact le_dateOfNs_iff.mpr ended
    · exact sound.past date already
  heard := sound.heard
  fresh closed key seen bound isSealed := by
    rcases DayIndex.dayIsSealed_sealDay.mp isSealed with same | already
    · have isOpen := (safely.heard (key, seen)
        (state.route.lastEvent.mem_entries_iff.mpr bound) same).1
      have isNone : state.gapId = none := closed
      rw [isNone] at isOpen
      cases isOpen
    · exact sound.fresh closed key seen bound already
  opening := sound.opening
  exposed startNs isExposed := by
    refine ⟨(sound.exposed startNs isExposed).1, fun isSealed => ?_⟩
    rcases DayIndex.dayIsSealed_sealDay.mp isSealed with same | already
    · rcases isExposed with ⟨key, seen, found, unopened, rfl⟩ |
        ⟨stale, member, rfl⟩
      · have isOpen := (safely.heard (key, seen)
          (state.route.lastEvent.mem_entries_iff.mpr found) same).2
        rw [unopened] at isOpen
        cases isOpen
      · exact safely.stale stale member same
    · exact (sound.exposed startNs isExposed).2 already

/-- The completed days are sealed one after another. -/
theorem sealDays
    (completed : List Nat) {index : DayIndex GapEventV1}
    (sound : SealingSound { state with index })
    (ended : ∀ utcDate ∈ completed,
      midnightNs (utcDate + 1) ≤ state.nowNs)
    (safely : ∀ utcDate ∈ completed, state.SealsSafely utcDate) :
    SealingSound { state with
      index := completed.foldl DayIndex.sealDay index } := by
  induction completed generalizing index with
  | nil => exact sound
  | cons utcDate rest induction =>
      apply induction
      · have now := safely utcDate List.mem_cons_self
        exact sound.sealDay (ended utcDate List.mem_cons_self)
          ⟨now.heard, now.opening, now.stale⟩
      · exact fun other inRest => ended other (List.mem_cons_of_mem _ inRest)
      · exact fun other inRest => safely other (List.mem_cons_of_mem _ inRest)

theorem lastEvent_startRoute
    {kind : RouteKind} {livenessTimeout : Nat} {instruments : List String}
    {now seen : Seen} {key : LivenessKey}
    (bound : (startRoute kind livenessTimeout instruments now).lastEvent.get?
      key = some seen) : seen = now := by
  rw [startRoute, get?_foldl_monitored fun _ => now] at bound
  split at bound
  · exact (Option.some.inj bound).symm
  · cases bound

theorem pendingOpenings_startRoute
    (kind : RouteKind) (livenessTimeout : Nat) (instruments : List String)
    (now : Seen) :
    (startRoute kind livenessTimeout instruments now).pendingOpenings = [] :=
  rfl

theorem restart
    (sound : SealingSound state) (instruments : List String)
    (monotonic : Nat) :
    SealingSound { state with
      route := startRoute state.route.kind
        (config.livenessNs state.route.kind) instruments
        ⟨monotonic, state.nowNs⟩
      booting := true
      opening := none
      gapId := none } where
  notRefused := sound.notRefused
  pending := by rintro _ ⟨⟩
  past := sound.past
  heard key seen bound := by
    rw [lastEvent_startRoute bound]
  fresh _ key seen bound := by
    rw [lastEvent_startRoute bound]
    exact sound.not_sealed_now
  opening := by
    rintro _ ⟨⟩
  exposed startNs isExposed := by
    rcases isExposed.of_idle (pendingOpenings_startRoute _ _ _ _) with
      ⟨key, seen, bound, _, rfl⟩
    rw [lastEvent_startRoute bound]
    exact ⟨Nat.le_refl _, sound.not_sealed_now⟩

theorem step
    (sound : SealingSound state) {label : RouteDayLabel} {after : RouteDay}
    (heard : SealsHeard state label)
    (stepped : routeDayStep config state label = some after) :
    SealingSound after := by
  cases label with
  | advance elapsedNs =>
      cases stepped
      exact sound.advance elapsedNs
  | route label =>
      simp only [routeDayStep] at stepped
      split at stepped
      next allowed =>
        rcases Option.map_eq_some_iff.mp stepped with ⟨route, moved, rfl⟩
        exact sound.route allowed.1 heard moved
      next => cases stepped
  | openStale gapId detail => exact sound.openStale stepped
  | openGap gapId reason detail => exact sound.openGap stepped
  | record => exact sound.record stepped
  | closeGap =>
      simp only [routeDayStep] at stepped
      split at stepped
      · cases stepped
        exact sound.closeGap heard
      · cases stepped
  | sealDay utcDate =>
      simp only [routeDayStep] at stepped
      split at stepped
      next due =>
        cases stepped
        exact sound.sealDay (Nat.le_trans (Nat.le_add_right _ _) due) heard
      next => cases stepped
  | completeBoot completed =>
      simp only [routeDayStep] at stepped
      split at stepped
      next ready =>
        cases stepped
        have areSealed := sound.sealDays completed ready.2 heard
        exact ⟨areSealed.notRefused, areSealed.pending, areSealed.past,
          areSealed.heard, areSealed.fresh, areSealed.opening,
          areSealed.exposed⟩
      next => cases stepped
  | restart instruments monotonic =>
      cases stepped
      exact sound.restart instruments monotonic

end SealingSound

theorem sealingSound_firstBoot
    (config : EdgeConfig) (kind : RouteKind) (instruments : List String)
    (now : Seen) : SealingSound (firstBoot config kind instruments now) where
  notRefused := rfl
  pending := by rintro _ ⟨⟩
  past := by
    rintro utcDate ⟨⟩
  heard key seen bound := by
    rw [SealingSound.lastEvent_startRoute bound]
    exact le_refl _
  fresh := by
    rintro _ key seen _ ⟨⟩
  opening := by
    rintro _ ⟨⟩
  exposed startNs isExposed := by
    rcases isExposed.of_idle
      (SealingSound.pendingOpenings_startRoute _ _ _ _) with
      ⟨key, seen, bound, _, rfl⟩
    rw [SealingSound.lastEvent_startRoute bound]
    exact ⟨Nat.le_refl _, by rintro ⟨⟩⟩

/--
With any accepted configuration, a run which seals no day on which a monitored
stream without open gaps was last heard of has every backdated gap accepted.
-/
theorem backdated_gaps_accepted
    (config : EdgeConfig) (kind : RouteKind) (instruments : List String)
    (now : Seen) {labels : List RouteDayLabel} {final : RouteDay}
    (heard : StepsMeet (routeDayStep config) SealsHeard
      (firstBoot config kind instruments now) labels)
    (reached : runFrom (routeDayStep config)
      (firstBoot config kind instruments now) labels = some final) :
    BackdatesAccepted final := by
  have sound : SealingSound final :=
    invariant_of_run
      (fun _ _ _ before condition stepped => before.step condition stepped)
      (sealingSound_firstBoot config kind instruments now) heard reached
  exact sound.accepted

/-! ## Runs -/

def defaultConfig : EdgeConfig := {}

/-- One symbol, a minute before the midnight which begins `day`. -/
def beforeMidnight (day : Nat) : RouteDay :=
  firstBoot defaultConfig (.publicRoute false) ["AUSDT"]
    ⟨0, midnightNs day - seconds 60⟩

/--
The depth stream falls silent ten seconds before midnight.  The loop opens its
gap and refreshes it half a minute after midnight; the snapshots of the refresh
are not there three minutes later, and the route asks for a reconnect.
`resumed` is what is heard before the day is sealed.
-/
def silentAcrossMidnight (day : Nat) (resumed : List RouteDayLabel) :
    List RouteDayLabel :=
  [.advance (seconds 50),
    .route (.event (.depth, "AUSDT")
      ⟨seconds 50, midnightNs day - seconds 10⟩),
    .advance (seconds 40),
    .route (.event (.bookTicker, "AUSDT")
      ⟨seconds 90, midnightNs day + seconds 30⟩),
    .route (.wake (seconds 90)), .openStale "liveness" "no depth event",
    .route .lockRefresh, .route .send, .route .acknowledge] ++
  resumed ++
  [.advance (seconds 60), .sealDay (day - 1), .advance (seconds 120),
    .route (.giveUp .timedOut),
    .openGap "route" .connectionLost "reconnect", .record]

/-- A depth event of the refreshed subscription. -/
def depthResumed (day : Nat) : List RouteDayLabel :=
  [.route (.event (.depth, "AUSDT")
    ⟨seconds 90, midnightNs day + seconds 30⟩)]

theorem silentAcrossMidnight_runs :
    (runFrom (routeDayStep defaultConfig) (beforeMidnight 20000)
      (silentAcrossMidnight 20000 (depthResumed 20000))).isSome := by
  decide +kernel

/-- Where the run leads when the stream resumed before the day was sealed. -/
def resumedDay : RouteDay :=
  (runFrom (routeDayStep defaultConfig) (beforeMidnight 20000)
    (silentAcrossMidnight 20000 (depthResumed 20000))).get
      silentAcrossMidnight_runs

theorem backdated_gaps_accepted_resumed : BackdatesAccepted resumedDay := by
  have heard : StepsMeet (routeDayStep defaultConfig) SealsHeard
      (beforeMidnight 20000)
      (silentAcrossMidnight 20000 (depthResumed 20000)) := by
    decide +kernel
  exact backdated_gaps_accepted defaultConfig (.publicRoute false) ["AUSDT"]
    ⟨0, midnightNs 20000 - seconds 60⟩ heard
    (Option.some_get silentAcrossMidnight_runs).symm

/--
The connection is lost and its gap is open; the loop looks for silent streams
only behind the seal of the day of their last events.
-/
def sealedWhileLost (day : Nat) : List RouteDayLabel :=
  [.advance (seconds 50), .route .connectionLost,
    .openGap "route" .connectionLost "connection closed", .record,
    .advance (seconds 100), .sealDay (day - 1), .route (.wake (seconds 150)),
    .openStale "liveness" "no depth event"]

/-- The gap which the loop opens is refused too. -/
theorem stale_gap_refused :
    ∃ final ∈ runFrom (routeDayStep defaultConfig) (beforeMidnight 20000)
        (sealedWhileLost 20000),
      ¬ BackdatesAccepted final := by
  have refuses : ∃ final ∈ runFrom (routeDayStep defaultConfig)
      (beforeMidnight 20000) (sealedWhileLost 20000),
        final.refused = true := by
    decide +kernel
  rcases refuses with ⟨final, reached, refused⟩
  refine ⟨final, reached, fun accepted => ?_⟩
  rw [accepted.notRefused] at refused
  cases refused

/-- With the default configuration a backdated route gap is refused. -/
theorem backdated_gap_refused :
    ∃ final ∈ runFrom (routeDayStep defaultConfig) (beforeMidnight 20000)
        (silentAcrossMidnight 20000 []),
      ¬ BackdatesAccepted final := by
  have refuses : ∃ final ∈ runFrom (routeDayStep defaultConfig)
      (beforeMidnight 20000) (silentAcrossMidnight 20000 []),
        final.refused = true := by
    decide +kernel
  rcases refuses with ⟨final, reached, refused⟩
  refine ⟨final, reached, fun accepted => ?_⟩
  rw [accepted.notRefused] at refused
  cases refused

end ShadowDataPlane.Edge
