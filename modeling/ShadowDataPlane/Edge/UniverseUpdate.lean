import ShadowDataPlane.Central.SelectionWellFormed
import ShadowDataPlane.Edge.SourceGroup

/-!
# A universe change touches the changed symbols only

`SourceManager.update_instruments` leads from the streams of one universe to
those of another.  The hash of a symbol and the size of the universe decide its
shard, so a symbol of both universes stays on its route, and what a route asks
of its connection is a difference of what it subscribes to before and after.

`RouteFollows` says how far a route has come.  It holds in every run of the
group in which the updates are acknowledged, whatever else the routes do
meanwhile: events, gaps, lost and rotated connections, and refreshes of
monitored streams.  A refresh which was planned before the update committed may
ask for a removed stream again; `RouteUpdates` is about that one.
-/

namespace ShadowDataPlane.Edge

open ShadowDataPlane.Central
open ShadowDataPlane.Contracts
open ShadowDataPlane.Foundation

/-! ## Streams name their symbol -/

/-- `upper()` undoes `lower()` on the letters of a symbol. -/
theorem toUpper_toLower_of_pattern
    {letter : Char} (pattern : PatternLetter letter) :
    letter.toLower.toUpper = letter := by
  have small : letter.toNat < 91 := by
    rcases pattern with ⟨-, atMost⟩ | ⟨-, atMost⟩
    · exact Nat.lt_succ_of_le atMost
    · exact Nat.lt_of_le_of_lt atMost (by decide)
  have every : ∀ code < 91, PatternLetter (Char.ofNat code) →
      (Char.ofNat code).toLower.toUpper = Char.ofNat code := by
    decide
  rw [← Char.ofNat_toNat letter] at pattern ⊢
  exact every letter.toNat small pattern

theorem toLower_ne_at
    {letter : Char} (pattern : PatternLetter letter) :
    letter.toLower ≠ '@' := by
  intro isAt
  have upper := toUpper_toLower_of_pattern pattern
  rw [isAt] at upper
  subst upper
  revert pattern
  decide

namespace RouteKind

/-- The streams of one symbol on a route, after the symbol. -/
def suffixes : RouteKind → List String
  | .publicRoute d0Enabled =>
      ["@bookTicker", "@depth@100ms"] ++
        if d0Enabled then ["@trade", "@rpiDepth@500ms"] else []
  | .marketRoute => ["@aggTrade", "@markPrice@1s", "@forceOrder"]

/-- A route subscribes to this stream for the sake of one symbol. -/
def StreamOf (kind : RouteKind) (symbol stream : String) : Prop :=
  ∃ suffix ∈ kind.suffixes, stream = lowerSymbol symbol ++ suffix

theorem mem_subscriptionsFor_iff
    {kind : RouteKind} {instruments : List String} {stream : String} :
    stream ∈ kind.subscriptionsFor instruments ↔
      (∃ symbol ∈ instruments, kind.StreamOf symbol stream) ∨
        (kind = .marketRoute ∧ stream = "!contractInfo") := by
  cases kind with
  | publicRoute d0Enabled =>
      cases d0Enabled <;>
        simp only [subscriptionsFor, publicSubscriptions, StreamOf, suffixes,
          List.mem_append, List.mem_flatMap, List.mem_cons]
      · simp
      · grind
  | marketRoute =>
      simp [subscriptionsFor, marketSubscriptions, StreamOf, suffixes,
        List.mem_flatMap]

theorem toList_suffix {kind : RouteKind} :
    ∀ suffix ∈ kind.suffixes, ∃ rest, suffix.toList = '@' :: rest := by
  have headed : ∀ suffix ∈ kind.suffixes, suffix.toList.head? = some '@' := by
    rcases kind with ⟨_ | _⟩ | _ <;> decide
  intro suffix member
  exact List.head?_eq_some_iff.mp (headed suffix member)

/-- What stands before the first at-sign of a stream is its symbol. -/
theorem StreamOf.toList_symbol
    {kind : RouteKind} {symbol stream : String}
    (isOf : kind.StreamOf symbol stream) (pattern : SymbolPattern symbol) :
    (stream.toList.takeWhile (· ≠ '@')).map Char.toUpper = symbol.toList := by
  rcases isOf with ⟨suffix, member, rfl⟩
  rcases toList_suffix suffix member with ⟨rest, isSuffix⟩
  have plain : ∀ letter ∈ symbol.toList.map Char.toLower,
      decide (letter ≠ '@') = true := by
    intro letter isLower
    rcases List.mem_map.mp isLower with ⟨upper, inSymbol, rfl⟩
    exact decide_eq_true (toLower_ne_at (pattern.2.2 upper inSymbol))
  have front : (lowerSymbol symbol ++ suffix).toList.takeWhile (· ≠ '@') =
      symbol.toList.map Char.toLower := by
    rw [String.toList_append, isSuffix, lowerSymbol, String.toList_ofList,
      List.takeWhile_append_of_pos plain, List.takeWhile_cons_of_neg (by simp),
      List.append_nil]
  rw [front, List.map_map]
  calc symbol.toList.map (Char.toUpper ∘ Char.toLower)
      = symbol.toList.map id :=
        List.map_congr_left fun letter inSymbol =>
          toUpper_toLower_of_pattern (pattern.2.2 letter inSymbol)
    _ = symbol.toList := List.map_id _

/-- A stream belongs to one symbol. -/
theorem StreamOf.unique
    {kind other : RouteKind} {left right stream : String}
    (isLeft : kind.StreamOf left stream) (isRight : other.StreamOf right stream)
    (leftPattern : SymbolPattern left) (rightPattern : SymbolPattern right) :
    left = right :=
  String.toList_inj.mp
    ((isLeft.toList_symbol leftPattern).symm.trans
      (isRight.toList_symbol rightPattern))

end RouteKind

/-! ## One route -/

/-- No update of the route is under way. -/
def RouteState.Settled (route : RouteState) : Prop :=
  route.waiting = none ∧
    ∀ request ∈ route.request, request.submitter = .refresh

/--
A step which is neither the failure of an update nor an update of another
caller, and refreshes no stream that the route has ceased to monitor.
-/
def RouteState.Undisturbed (route : RouteState) : RouteLabel → Prop
  | .lockRefresh =>
      ∀ stale ∈ route.phase.planned, (route.lastEvent.get? stale.key).isSome
  | .giveUp _ => ∀ request ∈ route.request, request.submitter = .refresh
  | .requestUpdate _ => False
  | .withdrawUpdate => False
  | _ => True

/-- The differences which an update from one list to another asks for. -/
structure SubscriptionUpdate.Asks (request : SubscriptionUpdate)
    (kind : RouteKind) (before after : List String) : Prop where
  add : request.add =
    RouteState.sortedDifference (kind.subscriptionsFor after)
      (kind.subscriptionsFor before)
  remove : request.remove =
    RouteState.sortedDifference (kind.subscriptionsFor before)
      (kind.subscriptionsFor after)
  snapshots : request.snapshotRequests =
    RouteState.snapshotRequestsFor kind
      (RouteState.sortedDifference after before)

/-- The route is sound, whatever its loop is about to look up. -/
def RouteConsistent (route : RouteState) : Prop :=
  RouteSound { route with phase := .resting }

/-- A route on its way from some instruments to others. -/
structure RouteFollows (kind : RouteKind) (before after : List String)
    (route : RouteState) : Prop where
  isKind : route.kind = kind
  consistent : RouteConsistent route
  waits : ∀ target, route.waiting = some target →
    target = after ∧ route.instruments = before
  asks : ∀ request target, route.request = some request →
    request.submitter = .update target →
      target = after ∧ route.waiting = none ∧ route.instruments = before ∧
        request.Asks kind before after
  arrived : route.Settled → route.instruments = after

/-- A route which serves its instruments, with no update under way. -/
structure RouteServes (kind : RouteKind) (instruments : List String)
    (route : RouteState) : Prop where
  isKind : route.kind = kind
  consistent : RouteConsistent route
  serves : route.instruments = instruments
  settled : route.Settled

namespace RouteState

theorem closeNext_frame (route : RouteState) (now : Nat)
    (rest : List (LivenessKey × ActiveGap)) :
    ∃ phase, route.closeNext now rest = { route with phase } := by
  rw [closeNext]
  split
  next => exact ⟨_, rfl⟩
  next => split <;> exact ⟨_, rfl⟩

theorem watch_frame (route : RouteState) (stale : List StaleKey)
    (after : Nat) :
    ∃ phase, route.watch stale after =
      { route with changed := false, phase } := by
  rw [watch]
  split <;> exact ⟨_, rfl⟩

end RouteState

/-- What the loop does without a request of its own. -/
def RouteLabel.OfLoop : RouteLabel → Prop
  | .wake _ | .gapClosed | .gapOpened _ | .recheck | .watchTimeout
  | .resumable | .stop => True
  | _ => False

/-- The loop leaves alone what the route subscribes to and watches. -/
theorem routeStep_loop
    {route next : RouteState} {label : RouteLabel} (isLoop : label.OfLoop)
    (stepped : routeStep route label = some next) :
    ∃ activeGaps changed reconnectRequested stopping phase,
      next = { route with
        activeGaps, changed, reconnectRequested, stopping, phase } := by
  cases routeStep_effect stepped with
  | @wake now =>
      rcases route.closeNext_frame now route.activeGaps.entries with
        ⟨phase, isNext⟩
      exact ⟨_, _, _, _, phase, isNext⟩
  | @gapClosed now key rest =>
      rcases RouteState.closeNext_frame
          { route with activeGaps := route.activeGaps.erase key } now rest
        with ⟨phase, isNext⟩
      exact ⟨_, _, _, _, phase, isNext⟩
  | @recheck stale after =>
      rcases route.watch_frame stale after with ⟨phase, isNext⟩
      exact ⟨_, _, _, _, phase, isNext⟩
  | wakeStopping | gapSettled | gapMissed | gapOpened | watchTimeout
  | resumable | stop => exact ⟨_, _, _, _, _, rfl⟩
  | _ => exact isLoop.elim

namespace RouteFollows

variable {kind : RouteKind} {before after : List String} {route : RouteState}

/-- Gaps, flags and the phase of the loop play no part. -/
theorem rephase
    (follows : RouteFollows kind before after route)
    (activeGaps : Dict LivenessKey ActiveGap)
    (changed reconnectRequested stopping : Bool) (phase : LoopPhase) :
    RouteFollows kind before after { route with
      activeGaps, changed, reconnectRequested, stopping, phase } where
  isKind := follows.isKind
  consistent := RouteSound.rephase follows.consistent activeGaps changed
    reconnectRequested stopping route.waiting trivial
  waits := follows.waits
  asks := follows.asks
  arrived := follows.arrived

/-- The request moves on to another stage, or the connection changes. -/
theorem restage
    (follows : RouteFollows kind before after route) {next : RouteState}
    (stageOf : SubscriptionUpdate → RequestStage)
    (consistent : RouteConsistent next) (isKind : next.kind = route.kind)
    (waiting : next.waiting = route.waiting)
    (instruments : next.instruments = route.instruments)
    (request : next.request = route.request.map fun request =>
      { request with stage := stageOf request }) :
    RouteFollows kind before after next where
  isKind := isKind.trans follows.isKind
  consistent := consistent
  waits := by
    rw [waiting, instruments]
    exact follows.waits
  asks := by
    rw [waiting, instruments, request]
    intro later target isLater isUpdate
    rcases Option.map_eq_some_iff.mp isLater with ⟨earlier, holds, rfl⟩
    rcases follows.asks earlier target holds isUpdate with
      ⟨isAfter, free, isBefore, asks⟩
    exact ⟨isAfter, free, isBefore, asks.add, asks.remove, asks.snapshots⟩
  arrived settled := by
    rw [instruments]
    apply follows.arrived
    constructor
    · rw [← waiting]
      exact settled.1
    · intro earlier holds
      apply settled.2 { earlier with stage := stageOf earlier }
      rw [request]
      exact Option.mem_map_of_mem _ holds

/-- The connection or the events change, and no request. -/
theorem keepRequest
    (follows : RouteFollows kind before after route) {next : RouteState}
    (consistent : RouteConsistent next) (isKind : next.kind = route.kind)
    (waiting : next.waiting = route.waiting)
    (instruments : next.instruments = route.instruments)
    (request : next.request = route.request) :
    RouteFollows kind before after next := by
  apply follows.restage SubscriptionUpdate.stage consistent isKind waiting
    instruments
  rw [request]
  cases route.request <;> rfl

/-- A refresh ends, one way or the other. -/
theorem release
    (follows : RouteFollows kind before after route)
    {request : SubscriptionUpdate} (holds : route.request = some request)
    (isRefresh : request.submitter = .refresh) :
    RouteFollows kind before after { route with request := none } := by
  have own : ({ route with phase := .resting } : RouteState).carried =
      route.instruments := RouteSound.carried_of_refresh holds isRefresh
  exact {
    isKind := follows.isKind
    consistent := RouteSound.release follows.consistent (by rw [own])
    waits := follows.waits
    asks := by
      rintro request target ⟨⟩
    arrived := by
      intro settled
      apply follows.arrived
      refine ⟨settled.1, fun other isOther => ?_⟩
      rw [holds] at isOther
      cases isOther
      exact isRefresh }

/-- A refresh asks for monitored streams only. -/
theorem lockRefresh
    (follows : RouteFollows kind before after route) {stale : List StaleKey}
    (free : route.request = none)
    (monitored : ∀ other ∈ stale,
      (route.lastEvent.get? other.key).isSome) :
    RouteFollows kind before after { route with
      phase := .refreshing stale
      request := some (RouteState.refreshRequest stale) } where
  isKind := follows.isKind
  consistent := RouteSound.acquire follows.consistent free rfl
    (RouteSound.refreshRequest_sound follows.consistent monitored)
  waits := follows.waits
  asks := by
    rintro request target ⟨⟩ ⟨⟩
  arrived settled := by
    apply follows.arrived
    refine ⟨settled.1, fun other isOther => ?_⟩
    rw [free] at isOther
    cases isOther

/-- The update takes the lock and queues its differences. -/
theorem lockUpdate
    (follows : RouteFollows kind before after route) {target : List String}
    (waiting : route.waiting = some target) (free : route.request = none) :
    RouteFollows kind before after { route with
      waiting := none
      request := some (route.updateRequest target) } := by
  rcases follows.waits target waiting with ⟨rfl, isBefore⟩
  have subscriptions : route.subscriptions =
      kind.subscriptionsFor before := by
    rw [← follows.isKind, ← isBefore]
    exact follows.consistent.subscriptions
  exact {
    isKind := follows.isKind
    consistent := RouteSound.lockUpdate follows.consistent target free
    waits := by
      rintro target ⟨⟩
    asks := by
      rintro request other ⟨⟩ ⟨⟩
      refine ⟨rfl, rfl, isBefore, ?_, ?_, ?_⟩
      · simp only [RouteState.updateRequest, subscriptions, follows.isKind]
      · simp only [RouteState.updateRequest, subscriptions, follows.isKind]
      · simp only [RouteState.updateRequest, isBefore, follows.isKind]
    arrived := by
      rintro ⟨-, refreshes⟩
      cases refreshes _ rfl }

/-- The acknowledged update commits. -/
theorem commit
    (follows : RouteFollows kind before after route)
    {request : SubscriptionUpdate} {target : List String} (now : Seen)
    (holds : route.request = some request)
    (isUpdate : request.submitter = .update target)
    (acknowledged : request.stage = .acknowledged) :
    RouteFollows kind before after (route.commitUpdate target now) := by
  rcases follows.asks request target holds isUpdate with
    ⟨isAfter, free, -, -⟩
  exact {
    isKind := follows.isKind
    consistent := RouteSound.commitUpdate follows.consistent now holds isUpdate
      acknowledged fun stale member => absurd member List.not_mem_nil
    waits := by
      intro other waiting
      rw [RouteState.commitUpdate, free] at waiting
      cases waiting
    asks := by
      rintro request other ⟨⟩
    arrived := fun _ => isAfter }

/-- Every undisturbed step leaves the route on its way. -/
theorem step
    (follows : RouteFollows kind before after route) {label : RouteLabel}
    {next : RouteState} (undisturbed : route.Undisturbed label)
    (stepped : routeStep route label = some next) :
    RouteFollows kind before after next := by
  by_cases isLoop : label.OfLoop
  · rcases routeStep_loop isLoop stepped with ⟨_, _, _, _, _, rfl⟩
    exact follows.rephase _ _ _ _ _
  cases routeStep_effect stepped with
  | lockRefresh locking free =>
      apply follows.lockRefresh free
      simp only [RouteState.Undisturbed, locking] at undisturbed
      exact undisturbed
  | requestUpdate => exact undisturbed.elim
  | withdrawUpdate => exact undisturbed.elim
  | lockUpdate waiting free => exact follows.lockUpdate waiting free
  | send holds up queued =>
      exact follows.restage (fun _ => .sent)
        (RouteSound.send follows.consistent holds up queued) rfl rfl rfl
        (by rw [holds]; rfl)
  | acknowledge holds sent =>
      exact follows.restage (fun _ => .acknowledged)
        (RouteSound.acknowledge follows.consistent holds sent) rfl rfl rfl
        (by rw [holds]; rfl)
  | updated holds acknowledged isUpdate =>
      exact follows.commit _ holds isUpdate acknowledged
  | refreshedStopping holds _ isRefresh =>
      exact (follows.release holds isRefresh).rephase _ _ _ _ _
  | @refreshed _ stale now holds _ isRefresh =>
      rcases RouteState.watch_frame { route with request := none } stale
          now.monotonic with ⟨phase, isNext⟩
      rw [isNext]
      exact (follows.release holds isRefresh).rephase _ _ _ _ _
  | updateGivenUp holds isUpdate =>
      have isRefresh := undisturbed _ holds
      rw [isUpdate] at isRefresh
      cases isRefresh
  | @refreshGivenUp _ failure holds isRefresh =>
      have released := follows.release holds isRefresh
      cases failure with
      | timedOut => exact released.rephase _ _ _ _ _
      | overloaded => exact released.rephase _ _ _ _ _
      | cancelled => exact released.rephase _ _ _ _ _
  | event monitored =>
      exact follows.keepRequest
        (RouteSound.event follows.consistent _ monitored) rfl rfl rfl rfl
  | eventUnmonitored => exact follows
  | connectionLost =>
      refine follows.restage
        (fun request => if request.stage = .queued then .queued else .broken)
        (RouteSound.connectionLost follows.consistent) rfl rfl rfl ?_
      apply congrArg (fun restage => route.request.map restage)
      funext request
      split
      next queued => rw [← queued]
      next => rfl
  | connect down =>
      exact follows.keepRequest
        (RouteSound.connect follows.consistent false
          (follows.consistent.offline down)) rfl rfl rfl rfl
  | rotate free =>
      exact follows.keepRequest
        (RouteSound.connect follows.consistent route.reconnectRequested
          (RouteSound.carried_of_free free)) rfl rfl rfl rfl
  | _ => exact absurd trivial isLoop

/-- Until it has arrived, a route keeps the instruments it had. -/
theorem before_or_after
    (follows : RouteFollows kind before after route) :
    route.instruments = before ∨ route.instruments = after := by
  cases waiting : route.waiting with
  | some target => exact Or.inl (follows.waits target waiting).2
  | none =>
      cases holds : route.request with
      | none =>
          right
          apply follows.arrived
          refine ⟨waiting, fun request isRequest => ?_⟩
          rw [holds] at isRequest
          cases isRequest
      | some request =>
          cases submitted : request.submitter with
          | update target =>
              exact Or.inl
                (follows.asks request target holds submitted).2.2.1
          | refresh =>
              right
              apply follows.arrived
              refine ⟨waiting, fun other isOther => ?_⟩
              rw [holds] at isOther
              cases isOther
              exact submitted

/-- A commit keeps what it knows of the symbols which it keeps. -/
theorem get?_commitUpdate
    (follows : RouteFollows kind before after route) {key : LivenessKey}
    (common : key.2 ∈ before ↔ key.2 ∈ after)
    (isBefore : route.instruments = before) (now : Seen) :
    (route.commitUpdate after now).lastEvent.get? key =
      route.lastEvent.get? key := by
  have bound : (route.lastEvent.get? key).isSome ↔
      key.1 ∈ route.kind.livenessTypes ∧ key.2 ∈ after := by
    rw [← common, ← isBefore]
    exact follows.consistent.keys key
  rw [RouteState.commitUpdate, RouteState.updatedLastEvent,
    get?_foldl_monitored fun key => (route.lastEvent.get? key).getD now]
  split
  next monitored =>
    rcases Option.isSome_iff_exists.mp
      (bound.mpr (mem_monitored_iff.mp monitored)) with ⟨seen, found⟩
    rw [found, Option.getD_some]
  next absent =>
    have missing : ¬ (route.lastEvent.get? key).isSome := fun isSome =>
      absent (mem_monitored_iff.mpr (bound.mp isSome))
    exact (Option.not_isSome_iff_eq_none.mp missing).symm

/-- Nothing but its own event moves a symbol which stays. -/
theorem get?_lastEvent
    (follows : RouteFollows kind before after route) {label : RouteLabel}
    {next : RouteState} (undisturbed : route.Undisturbed label)
    (stepped : routeStep route label = some next) {key : LivenessKey}
    (common : key.2 ∈ before ↔ key.2 ∈ after)
    (unheard : ∀ seen, label ≠ .event key seen) :
    next.lastEvent.get? key = route.lastEvent.get? key := by
  by_cases isLoop : label.OfLoop
  · rcases routeStep_loop isLoop stepped with ⟨_, _, _, _, _, rfl⟩
    rfl
  cases routeStep_effect stepped with
  | updated holds _ isUpdate =>
      rcases follows.asks _ _ holds isUpdate with ⟨rfl, -, isBefore, -⟩
      exact follows.get?_commitUpdate common isBefore _
  | @refreshed _ stale now =>
      rcases RouteState.watch_frame { route with request := none } stale
          now.monotonic with ⟨phase, isNext⟩
      rw [isNext]
  | @refreshGivenUp _ failure =>
      cases failure with
      | timedOut => rfl
      | overloaded => rfl
      | cancelled => rfl
  | @event other seen =>
      rw [Dict.get?_set]
      split
      next same => exact absurd (same ▸ rfl) (unheard seen)
      next => rfl
  | lockRefresh | requestUpdate | withdrawUpdate | lockUpdate | send
  | acknowledge | refreshedStopping | updateGivenUp | eventUnmonitored
  | connectionLost | connect | rotate => rfl
  | _ => exact absurd trivial isLoop

end RouteFollows

namespace RouteServes

variable {kind : RouteKind} {instruments : List String} {route : RouteState}

/-- The update of a settled route waits for the route's lock. -/
theorem requestUpdate
    (serves : RouteServes kind instruments route) (target : List String) :
    routeStep route (.requestUpdate target) =
      some { route with waiting := some target } := by
  rcases serves.settled with ⟨waiting, refreshes⟩
  simp only [routeStep, waiting]
  split
  next updating =>
    cases refreshes _ updating
  next => rfl
  next => contradiction

/-- Another list of instruments is asked for. -/
theorem requested
    (serves : RouteServes kind instruments route) (after : List String) :
    RouteFollows kind instruments after
      { route with waiting := some after } where
  isKind := serves.isKind
  consistent := RouteSound.rephase serves.consistent route.activeGaps
    route.changed route.reconnectRequested route.stopping (some after) trivial
  waits := by
    rintro target ⟨⟩
    exact ⟨rfl, serves.serves⟩
  asks request target holds isUpdate := by
    have isRefresh := serves.settled.2 request holds
    rw [isUpdate] at isRefresh
    cases isRefresh
  arrived := by
    rintro ⟨⟨⟩, -⟩

theorem of_follows
    {before after : List String}
    (follows : RouteFollows kind before after route)
    (settled : route.Settled) : RouteServes kind after route :=
  ⟨follows.isKind, follows.consistent, follows.arrived settled, settled⟩

/-- A connection which is up is subscribed to the streams of the instruments. -/
theorem subscribed
    (serves : RouteServes kind instruments route) {streams : Finset String}
    (up : route.subscribed = some streams) :
    streams = (kind.subscriptionsFor instruments).toFinset := by
  have own : ({ route with phase := .resting } : RouteState).carried =
      route.instruments := by
    cases holds : route.request with
    | none => rfl
    | some request =>
        exact RouteSound.carried_of_refresh rfl
          (serves.settled.2 request holds)
  rw [serves.consistent.subscribed streams up, own, serves.serves]
  exact congrArg (fun kind => (RouteKind.subscriptionsFor kind
    instruments).toFinset) serves.isKind

end RouteServes

theorem startRoute_serves
    (kind : RouteKind) (livenessTimeout : Nat) (instruments : List String)
    (now : Seen) :
    RouteServes kind instruments
      (startRoute kind livenessTimeout instruments now) where
  isKind := rfl
  consistent := routeSound_start kind livenessTimeout instruments now
  serves := rfl
  settled := ⟨rfl, by rintro request ⟨⟩⟩

/-! ## The requests -/

namespace SubscriptionUpdate.Asks

variable {request : SubscriptionUpdate} {kind : RouteKind}
variable {before after : List String}

/-- A stream of one list only is a stream of a symbol of that list only. -/
theorem streamOf_difference
    {left right : List String} {stream : String}
    (differs : stream ∈ RouteState.sortedDifference
      (kind.subscriptionsFor left) (kind.subscriptionsFor right)) :
    ∃ symbol, kind.StreamOf symbol stream ∧ symbol ∈ left ∧ symbol ∉ right := by
  rcases mem_sortedDifference.mp differs with ⟨inLeft, notRight⟩
  rcases RouteKind.mem_subscriptionsFor_iff.mp inLeft with
    ⟨symbol, isLeft, isOf⟩ | unchanged
  · refine ⟨symbol, isOf, isLeft, fun isRight => notRight ?_⟩
    exact RouteKind.mem_subscriptionsFor_iff.mpr
      (Or.inl ⟨symbol, isRight, isOf⟩)
  · exact absurd (RouteKind.mem_subscriptionsFor_iff.mpr (Or.inr unchanged))
      notRight

theorem streamOf_changed
    (asks : request.Asks kind before after) {stream : String}
    (asked : stream ∈ request.add ++ request.remove) :
    ∃ symbol, kind.StreamOf symbol stream ∧
      ((symbol ∈ after ∧ symbol ∉ before) ∨
        (symbol ∈ before ∧ symbol ∉ after)) := by
  rcases List.mem_append.mp asked with added | removed
  · rw [asks.add] at added
    rcases streamOf_difference added with ⟨symbol, isOf, isNew⟩
    exact ⟨symbol, isOf, Or.inl isNew⟩
  · rw [asks.remove] at removed
    rcases streamOf_difference removed with ⟨symbol, isOf, isOld⟩
    exact ⟨symbol, isOf, Or.inr isOld⟩

theorem snapshot_added
    (asks : request.Asks kind before after) {snapshot : String × StreamType}
    (asked : snapshot ∈ request.snapshotRequests) :
    snapshot.1 ∈ after ∧ snapshot.1 ∉ before := by
  have among : ∀ symbols : List String,
      snapshot ∈ RouteState.snapshotRequestsFor kind symbols →
        snapshot.1 ∈ symbols := by
    intro symbols member
    cases kind with
    | publicRoute d0Enabled =>
        cases d0Enabled <;>
          simp [RouteState.snapshotRequestsFor] at member <;>
          grind
    | marketRoute => exact absurd member List.not_mem_nil
  rw [asks.snapshots] at asked
  exact mem_sortedDifference.mp (among _ asked)

end SubscriptionUpdate.Asks

/-! ## The group -/

/-- Every route serves the instruments it is assigned. -/
structure SourcesServe (digest : String → Nat) (config : SourceConfig)
    (instruments : List String) (sources : Sources) : Prop where
  shards : sources.publicRoutes.length =
    min config.publicConnectionShards instruments.length
  serves : ∀ name route, sources.route? name = some route →
    RouteServes (config.kindOf name) (assigned digest config instruments name)
      route

/-- Every route is on its way between the instruments it is assigned. -/
structure SourcesFollow (digest : String → Nat) (config : SourceConfig)
    (before after : List String) (sources : Sources) : Prop where
  shards : sources.publicRoutes.length =
    min config.publicConnectionShards before.length
  follows : ∀ name route, sources.route? name = some route →
    RouteFollows (config.kindOf name) (assigned digest config before name)
      (assigned digest config after name) route

/-- The route which takes the step is not disturbed by it. -/
def Sources.Undisturbed (sources : Sources) (label : RouteName × RouteLabel) :
    Prop :=
  ∀ route ∈ sources.route? label.1, route.Undisturbed label.2

/-- A connection of the public route at an index is subscribed to a stream. -/
def Sources.SubscribedOn (sources : Sources) (index : Nat) (stream : String) :
    Prop :=
  ∃ route ∈ sources.route? (.publicShard index),
    ∃ streams ∈ route.subscribed, stream ∈ streams

section group

variable {digest : String → Nat} {config : SourceConfig}
variable {before after : List String} {sources : Sources}

theorem SourcesFollow.step
    (follows : SourcesFollow digest config before after sources)
    {label : RouteName × RouteLabel} {next : Sources}
    (undisturbed : sources.Undisturbed label)
    (stepped : sourcesStep sources label = some next) :
    SourcesFollow digest config before after next := by
  rcases label with ⟨name, label⟩
  rcases sourcesStep_eq_some stepped with
    ⟨route, routeAfter, found, isStep, rfl⟩
  have isNext := (follows.follows name route found).step
    (undisturbed route found) isStep
  constructor
  · rw [Sources.length_publicRoutes_setRoute]
    exact follows.shards
  · intro other otherRoute isOther
    rw [Sources.route?_setRoute (by rw [found]; rfl)] at isOther
    split at isOther
    next same =>
      subst same
      cases isOther
      exact isNext
    next => exact follows.follows other otherRoute isOther

/-- Every shard finds its route, and every route waits with its update. -/
theorem requestUpdates_eq_zipWith
    {routes : List RouteState} {shards : List (List String)}
    (requests : ∀ route ∈ routes, ∀ target,
      routeStep route (.requestUpdate target) =
        some { route with waiting := some target })
    (sameLength : routes.length = shards.length) :
    requestUpdates routes shards =
      some (List.zipWith (fun route shard =>
        { route with waiting := some shard }) routes shards) := by
  induction shards generalizing routes with
  | nil =>
      rw [List.length_eq_zero_iff.mp sameLength]
      rfl
  | cons shard shards induction =>
      cases routes with
      | nil => cases sameLength
      | cons route routes =>
          rw [requestUpdates, requests route List.mem_cons_self,
            induction (fun other inRest =>
              requests other (List.mem_cons_of_mem _ inRest))
              (Nat.succ.inj sameLength)]
          rfl

/-- The manager's call reaches every route. -/
theorem SourcesServe.updateInstruments
    (serves : SourcesServe digest config before sources)
    (sameLength : before.length = after.length) :
    ∃ updating,
      sources.updateInstruments digest config after = some updating ∧
        SourcesFollow digest config before after updating := by
  have asked : ∀ route ∈ sources.publicRoutes, ∀ target,
      routeStep route (.requestUpdate target) =
        some { route with waiting := some target } := by
    intro route member target
    rcases List.getElem?_of_mem member with ⟨index, found⟩
    exact (serves.serves (.publicShard index) route found).requestUpdate target
  have shardsFound : sources.publicRoutes.length =
      (shardInstruments digest after config.publicConnectionShards).length := by
    rw [length_shardInstruments, ← sameLength]
    exact serves.shards
  have onMarket := serves.serves .market sources.marketRoute rfl
  have requested := requestUpdates_eq_zipWith asked shardsFound
  have started := onMarket.requestUpdate after
  rw [Sources.updateInstruments, requested, started]
  refine ⟨_, rfl, ?_, ?_⟩
  · rw [List.length_zipWith, ← shardsFound, Nat.min_self]
    exact serves.shards
  · intro name route found
    cases name with
    | publicShard index =>
        rcases List.getElem?_zipWith_eq_some.mp found with
          ⟨earlier, shard, isEarlier, isShard, rfl⟩
        have assignedShard :
            assigned digest config after (.publicShard index) = shard := by
          rw [assigned, isShard, Option.getD_some]
        rw [assignedShard]
        exact (serves.serves (.publicShard index) earlier isEarlier).requested
          shard
    | market =>
        cases found
        exact onMarket.requested after

theorem SourcesServe.of_follows
    (follows : SourcesFollow digest config before after sources)
    (sameLength : before.length = after.length)
    (settled : ∀ name route, sources.route? name = some route →
      route.Settled) :
    SourcesServe digest config after sources where
  shards := sameLength ▸ follows.shards
  serves name route found :=
    .of_follows (follows.follows name route found) (settled name route found)

theorem startSources_serve
    (digest : String → Nat) (config : SourceConfig) (instruments : List String)
    (now : Seen) :
    SourcesServe digest config instruments
      (startSources digest config instruments now) where
  shards := by
    rw [startSources, List.length_map, length_shardInstruments]
  serves name route found := by
    cases name with
    | publicShard index =>
        rw [Sources.route?, startSources, List.getElem?_map] at found
        rcases Option.map_eq_some_iff.mp found with ⟨shard, isShard, rfl⟩
        have assignedShard :
            assigned digest config instruments (.publicShard index) = shard := by
          rw [assigned, isShard, Option.getD_some]
        rw [assignedShard]
        exact startRoute_serves _ _ _ _
    | market =>
        cases found
        exact startRoute_serves _ _ _ _

end group

/-! ## The property -/

/-- The connections carry the streams of the instruments, one shard a symbol. -/
structure CarriesStreams (digest : String → Nat) (config : SourceConfig)
    (instruments : List String) (sources : Sources) : Prop where
  publicStreams : ∀ stream,
    (∃ index, sources.SubscribedOn index stream) ↔
      stream ∈ publicSubscriptions instruments config.d0Enabled
  oneShard : ∀ symbol ∈ instruments, ∃ index,
    symbol ∈ assigned digest config instruments (.publicShard index) ∧
      ∀ stream, (RouteKind.publicRoute config.d0Enabled).StreamOf symbol stream →
        ∀ other, sources.SubscribedOn other stream ↔ other = index
  marketStreams : sources.marketRoute.subscribed =
    some (marketSubscriptions instruments).toFinset

/-- What an update has asked for, left alone and brought about so far. -/
structure TouchesOnlyChanges (digest : String → Nat) (config : SourceConfig)
    (before after : List String) (sources : Sources) : Prop where
  streams : ∀ name route request target,
    sources.route? name = some route → route.request = some request →
      request.submitter = .update target →
        ∀ stream ∈ request.add ++ request.remove,
          (∃ symbol, (config.kindOf name).StreamOf symbol stream ∧
            ((symbol ∈ after ∧ symbol ∉ before) ∨
              (symbol ∈ before ∧ symbol ∉ after))) ∧
          ∀ symbol ∈ before, symbol ∈ after →
            ¬ (config.kindOf name).StreamOf symbol stream
  snapshots : ∀ name route request target,
    sources.route? name = some route → route.request = some request →
      request.submitter = .update target →
        ∀ snapshot ∈ request.snapshotRequests,
          snapshot.1 ∈ after ∧ snapshot.1 ∉ before
  stays : ∀ symbol ∈ before, symbol ∈ after →
    ∀ name route, sources.route? name = some route →
      (symbol ∈ route.instruments ↔
        symbol ∈ assigned digest config before name)
  liveness : ∀ label next, sources.Undisturbed label →
    sourcesStep sources label = some next →
      ∀ name route later, sources.route? name = some route →
        next.route? name = some later →
          ∀ key : LivenessKey, key.2 ∈ before → key.2 ∈ after →
            (∀ seen, label ≠ (name, .event key seen)) →
              later.lastEvent.get? key = route.lastEvent.get? key
  settles : (∀ name route, sources.route? name = some route →
      route.Settled) →
    SourcesServe digest config after sources ∧
      ((∀ name route, sources.route? name = some route →
          route.subscribed.isSome) →
        CarriesStreams digest config after sources)

section property

variable {digest : String → Nat} {config : SourceConfig}
variable {before after instruments : List String} {sources : Sources}

/-- A route of the group carries the streams of the symbols it is assigned. -/
theorem SourcesServe.subscribedOn_iff
    (serves : SourcesServe digest config instruments sources)
    (up : ∀ name route, sources.route? name = some route →
      route.subscribed.isSome) {index : Nat} {stream : String} :
    sources.SubscribedOn index stream ↔
      ∃ symbol ∈ assigned digest config instruments (.publicShard index),
        (RouteKind.publicRoute config.d0Enabled).StreamOf symbol stream := by
  constructor
  · rintro ⟨route, found, streams, isUp, carried⟩
    rw [(serves.serves _ route found).subscribed isUp, List.mem_toFinset]
      at carried
    rcases RouteKind.mem_subscriptionsFor_iff.mp carried with
      isOf | ⟨⟨⟩, -⟩
    exact isOf
  · rintro ⟨symbol, onShard, isOf⟩
    rcases mem_shard_iff.mp onShard with ⟨member, rfl⟩
    have inRange : digest symbol %
        min config.publicConnectionShards instruments.length <
          sources.publicRoutes.length := by
      rw [serves.shards]
      apply Nat.mod_lt
      exact Nat.lt_min.mpr ⟨config.atLeastOne, List.length_pos_of_mem member⟩
    have found := List.getElem?_eq_getElem inRange
    rcases Option.isSome_iff_exists.mp (up (.publicShard _) _ found) with
      ⟨streams, isUp⟩
    refine ⟨_, found, streams, isUp, ?_⟩
    rw [(serves.serves (.publicShard _) _ found).subscribed isUp,
      List.mem_toFinset]
    exact RouteKind.mem_subscriptionsFor_iff.mpr
      (Or.inl ⟨symbol, onShard, isOf⟩)

theorem SourcesServe.carries
    (serves : SourcesServe digest config instruments sources)
    (patterns : ∀ symbol ∈ instruments, SymbolPattern symbol)
    (up : ∀ name route, sources.route? name = some route →
      route.subscribed.isSome) :
    CarriesStreams digest config instruments sources where
  publicStreams stream := by
    simp only [serves.subscribedOn_iff up]
    have isPublic : publicSubscriptions instruments config.d0Enabled =
      (RouteKind.publicRoute config.d0Enabled).subscriptionsFor instruments :=
        rfl
    rw [isPublic, RouteKind.mem_subscriptionsFor_iff]
    constructor
    · rintro ⟨index, symbol, onShard, isOf⟩
      exact Or.inl ⟨symbol, mem_of_mem_assigned onShard, isOf⟩
    · rintro (⟨symbol, member, isOf⟩ | ⟨⟨⟩, -⟩)
      have unique : ∃! index,
          symbol ∈ assigned digest config instruments (.publicShard index) :=
        existsUnique_shard member
      rcases unique.exists with ⟨index, onShard⟩
      exact ⟨index, symbol, onShard, isOf⟩
  oneShard symbol member := by
    have unique : ∃! index,
        symbol ∈ assigned digest config instruments (.publicShard index) :=
      existsUnique_shard member
    rcases unique with ⟨index, onShard, only⟩
    refine ⟨index, onShard, fun stream isOf other => ?_⟩
    rw [serves.subscribedOn_iff up]
    constructor
    · rintro ⟨owner, onOther, ownerOf⟩
      apply only other
      rw [isOf.unique ownerOf (patterns symbol member)
        (patterns owner (mem_of_mem_assigned onOther))]
      exact onOther
    · rintro rfl
      exact ⟨symbol, onShard, isOf⟩
  marketStreams := by
    rcases Option.isSome_iff_exists.mp (up .market _ rfl) with
      ⟨streams, isUp⟩
    rw [isUp, (serves.serves .market _ rfl).subscribed isUp]
    rfl

/-- A common symbol is assigned to a route before as it is after. -/
theorem mem_assigned_iff_of_common
    (sameLength : before.length = after.length) {symbol : String}
    (inBefore : symbol ∈ before) (inAfter : symbol ∈ after)
    (name : RouteName) :
    symbol ∈ assigned digest config before name ↔
      symbol ∈ assigned digest config after name :=
  ⟨fun served => mem_assigned_of_common sameLength served inAfter,
    fun served => mem_assigned_of_common sameLength.symm served inBefore⟩

theorem SourcesFollow.touchesOnlyChanges
    (follows : SourcesFollow digest config before after sources)
    (sameLength : before.length = after.length)
    (beforePatterns : ∀ symbol ∈ before, SymbolPattern symbol)
    (afterPatterns : ∀ symbol ∈ after, SymbolPattern symbol) :
    TouchesOnlyChanges digest config before after sources where
  streams name route request target found holds isUpdate stream asked := by
    rcases (follows.follows name route found).asks request target holds
      isUpdate with ⟨-, -, -, asks⟩
    rcases asks.streamOf_changed asked with ⟨symbol, isOf, changed⟩
    have differs : (symbol ∈ after ∧ symbol ∉ before) ∨
        (symbol ∈ before ∧ symbol ∉ after) := by
      rcases changed with ⟨isNew, notOld⟩ | ⟨isOld, notNew⟩
      · exact Or.inl ⟨mem_of_mem_assigned isNew, fun inBefore => notOld
          (mem_assigned_of_common sameLength.symm isNew inBefore)⟩
      · exact Or.inr ⟨mem_of_mem_assigned isOld, fun inAfter => notNew
          (mem_assigned_of_common sameLength isOld inAfter)⟩
    refine ⟨⟨symbol, isOf, differs⟩, fun common inBefore inAfter commonOf => ?_⟩
    have pattern : SymbolPattern symbol := by
      rcases differs with ⟨member, -⟩ | ⟨member, -⟩
      · exact afterPatterns symbol member
      · exact beforePatterns symbol member
    have same := isOf.unique commonOf pattern (beforePatterns common inBefore)
    subst same
    rcases differs with ⟨-, notBefore⟩ | ⟨-, notAfter⟩
    · exact notBefore inBefore
    · exact notAfter inAfter
  snapshots name route request target found holds isUpdate snapshot asked := by
    rcases (follows.follows name route found).asks request target holds
      isUpdate with ⟨-, -, -, asks⟩
    rcases asks.snapshot_added asked with ⟨isNew, notOld⟩
    exact ⟨mem_of_mem_assigned isNew, fun inBefore => notOld
      (mem_assigned_of_common sameLength.symm isNew inBefore)⟩
  stays symbol inBefore inAfter name route found := by
    rcases (follows.follows name route found).before_or_after with
      isBefore | isAfter
    · rw [isBefore]
    · rw [isAfter]
      exact (mem_assigned_iff_of_common sameLength inBefore inAfter name).symm
  liveness label next undisturbed stepped name route later found isLater key
      inBefore inAfter unheard := by
    rcases label with ⟨stepName, label⟩
    rcases sourcesStep_eq_some stepped with
      ⟨stepRoute, stepAfter, isRoute, isStep, rfl⟩
    rw [Sources.route?_setRoute (by rw [isRoute]; rfl)] at isLater
    split at isLater
    next same =>
      subst same
      cases isLater
      rw [isRoute] at found
      cases found
      exact (follows.follows stepName route isRoute).get?_lastEvent
        (undisturbed route isRoute) isStep
        (mem_assigned_iff_of_common sameLength inBefore inAfter stepName)
        fun seen isEvent => unheard seen (congrArg (Prod.mk stepName) isEvent)
    next =>
      rw [found] at isLater
      cases isLater
      rfl
  settles settled := by
    have serves := SourcesServe.of_follows follows sameLength settled
    exact ⟨serves, serves.carries afterPatterns⟩

end property

/--
An update from one universe to another, in every order of the routes' steps:
the requests name changed symbols only, a common symbol stays on its shard and
keeps its timestamps, and once every update is acknowledged the routes carry
exactly the streams of the new universe.
-/
theorem universe_change_touches_only_changed
    (digest : String → Nat) (config : SourceConfig)
    (before after : UniverseDecision) {sources : Sources}
    (serves : SourcesServe digest config before.members sources) :
    ∃ updating,
      sources.updateInstruments digest config after.members = some updating ∧
        ∀ labels final,
          StepsMeet sourcesStep Sources.Undisturbed updating labels →
            runFrom sourcesStep updating labels = some final →
              TouchesOnlyChanges digest config before.members after.members
                final := by
  have sameLength : before.members.length = after.members.length := by
    rw [before.length_members, after.length_members]
  rcases serves.updateInstruments sameLength with
    ⟨updating, started, follows⟩
  refine ⟨updating, started, fun labels final undisturbed reached => ?_⟩
  have followsFinal :
      SourcesFollow digest config before.members after.members final :=
    invariant_of_run
      (fun _ _ _ earlier condition stepped => earlier.step condition stepped)
      follows undisturbed reached
  exact followsFinal.touchesOnlyChanges sameLength before.pattern_of_mem_members
    after.pattern_of_mem_members

/-! ## A probe member is replaced -/

def sampleConfig : SourceConfig where
  publicConnectionShards := 2
  d0Enabled := false
  publicStreamLiveness := 30
  markPriceLiveness := 5
  atLeastOne := by decide
  atMostFour := by decide

/-- The parity of the hash of the sample symbols, which decides their shard. -/
def sampleDigest (symbol : String) : Nat :=
  if symbol ∈ ["S11", "S12", "S14", "S15", "S19", "S20", "S21", "S22", "S24",
      "S25", "S26", "S33", "S35", "S36", "S37", "S39", "S45", "S47", "S50",
      "S51", "S52", "S53", "S54", "S59", "S60", "S63", "S65", "S66", "S67",
      "S68", "S70"] then 1 else 0

/-- `S69` is replaced by `S70`. -/
def sampleSuccessor : UniverseDecision where
  toDecisionDraft :=
    { sampleActive.toDecisionDraft with probe := sampleSymbols 65 4 ++ ["S70"] }
  valid := by decide +kernel

def servingRoutes : Sources :=
  startSources sampleDigest sampleConfig sampleActive.members ⟨0, 0⟩

/-- Every step of the update of every route, all routes side by side. -/
def acknowledgedUpdates : List (RouteName × RouteLabel) :=
  [RouteLabel.lockUpdate, .send, .acknowledge, .complete ⟨9, 9⟩].flatMap
    fun label =>
      [(.market, label), (.publicShard 1, label), (.publicShard 0, label)]

def updatedRoutes : Option Sources :=
  (servingRoutes.updateInstruments sampleDigest sampleConfig
    sampleSuccessor.members).bind fun updating =>
      runFrom sourcesStep updating acknowledgedUpdates

theorem updatedRoutes_isSome : updatedRoutes.isSome := by
  decide +kernel

theorem universe_change_touches_only_changed_probe :
    TouchesOnlyChanges sampleDigest sampleConfig sampleActive.members
      sampleSuccessor.members (updatedRoutes.get updatedRoutes_isSome) := by
  rcases universe_change_touches_only_changed sampleDigest sampleConfig
      sampleActive sampleSuccessor
      (startSources_serve sampleDigest sampleConfig sampleActive.members
        ⟨0, 0⟩) with ⟨updating, started, touches⟩
  apply touches acknowledgedUpdates
  · apply stepsMeet_of_forall
    intro label member sources route _
    rcases List.mem_flatMap.mp member with ⟨kind, isKind, named⟩
    simp only [List.mem_cons, List.not_mem_nil, or_false] at isKind named
    rcases isKind with rfl | rfl | rfl | rfl <;>
      rcases named with rfl | rfl | rfl <;> trivial
  · have isRun :
        updatedRoutes = runFrom sourcesStep updating acknowledgedUpdates := by
      rw [updatedRoutes, servingRoutes, started]
      rfl
    rw [← isRun]
    exact (Option.some_get updatedRoutes_isSome).symm

end ShadowDataPlane.Edge
