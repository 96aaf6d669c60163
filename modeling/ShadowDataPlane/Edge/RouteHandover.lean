import ShadowDataPlane.Edge.RouteGaps

/-!
# From one connection of a route to the next

The gap which `RouteRunner.run` opens for a lost connection starts where an
error says so, and else with the earliest of the last events of the monitored
streams.  These times belong to the route, not to one of its connections.

Here the supervisor gets a clock, which does not go back, and for each
connection the time of its last event.  A connection which the route leaves is remembered with the gap that was
opened for it.  It should have one unless its replacement was live in time,
and the gap should start no later than its last event.  The first fails
when the connection ends early in a rotation which succeeds; the second one
when all streams were heard of on another connection before the end of the
current one is noticed (`left_covered_iff`).
-/

namespace ShadowDataPlane.Edge

open ShadowDataPlane.Contracts
open ShadowDataPlane.Foundation

/-! ## The route with a clock -/

/-- What a connection has delivered. -/
structure Delivery where
  lastEvent : Option Int := none
  /-- `subscription_proven_realtime_ns`. -/
  provenNs : Option Int := none
deriving DecidableEq

/-- An event arrives, which may prove the subscriptions. -/
def Delivery.hear (delivery : Delivery) (now : Int) (proves : Bool) :
    Delivery where
  lastEvent := some now
  provenNs := if proves then some now else delivery.provenNs

/-- What `_open_gap` tells the journal. -/
structure OpenedGap where
  gapId : String
  affectedFromNs : Int
  exchangeSymbols : List String
  streamTypes : List StreamType
deriving DecidableEq

/-- A connection which the route has left. -/
structure LeftConnection where
  lastEvent : Option Int
  instruments : List String
  /-- It ended before the subscriptions of its replacement were live. -/
  early : Bool
  gap : Option OpenedGap
deriving DecidableEq

/-- The supervisor of a route, its clock and what it has left behind. -/
structure RouteHandover where
  run : RouteRun := {}
  now : Int
  instruments : List String
  streamTypes : List StreamType
  livenessTypes : List StreamType
  /-- `_last_event`, of which only the realtime matters. -/
  lastEvent : Dict LivenessKey Int
  current : Delivery := {}
  candidate : Delivery := {}
  /-- The current connection ended before its replacement was live. -/
  endedEarly : Bool := false
  left : List LeftConnection := []

/-- The clock, the events and the steps of the supervisor. -/
inductive HandoverLabel where
  | passes (elapsed : Nat)
  /-- An event of the current connection, which may answer an audit. -/
  | delivers (key : LivenessKey) (proves : Bool)
  /-- An event of the replacement during the overlap. -/
  | replacementDelivers (key : LivenessKey) (proves : Bool)
  /-- The end of `update_instruments`. -/
  | updates (instruments : List String)
  /-- A step of `run`; its message or its error comes from an audit. -/
  | runs (label : RunLabel) (audited : Bool)
deriving DecidableEq

namespace RunPhase

/-- The current connection is there and delivers. -/
def delivering : RunPhase → Bool
  | .watching alive | .locking alive | .replacing alive _
  | .overlapping alive _ | .pausing alive => alive
  | .down | .starting _ _ | .ended => false

/-- The connection on its way to be ready. -/
def candidate? : RunPhase → Option Transport
  | .starting candidate _ | .replacing _ candidate => some candidate
  | .down | .watching _ | .locking _ | .overlapping _ _ | .pausing _
  | .ended => none

/-- The subscriptions of a replacement have become live. -/
def replacementLive : RunPhase → Bool
  | .replacing _ candidate => candidate.transportReady
  | .overlapping _ _ => true
  | .down | .starting _ _ | .watching _ | .locking _ | .pausing _
  | .ended => false

/-- `_update_lock` is free for an update. -/
def unlocked : RunPhase → Bool
  | .replacing _ _ | .overlapping _ _ => false
  | .down | .starting _ _ | .watching _ | .locking _ | .pausing _
  | .ended => true

end RunPhase

/-- The message acknowledges the subscription. -/
def WebsocketMessage.acks (subscriptionId : Nat) : WebsocketMessage → Bool
  | .control message => isSubscriptionAck message subscriptionId
  | .data _ => false

namespace RouteHandover

/-- `transport_ready_keys`. -/
def livenessKeys (state : RouteHandover) (instruments : List String) :
    List LivenessKey :=
  state.livenessTypes.flatMap fun streamType =>
    instruments.map fun symbol => (streamType, symbol)

/-- `_mark_event`. -/
def markEvent (state : RouteHandover) (key : LivenessKey) :
    Dict LivenessKey Int :=
  if (state.lastEvent.get? key).isSome then
    state.lastEvent.set key state.now
  else state.lastEvent

/-- `_last_event` after an update: new keys start now, removed ones go. -/
def updatedLastEvent (state : RouteHandover) (instruments : List String) :
    Dict LivenessKey Int :=
  (state.livenessKeys instruments).foldl (fun lastEvent key =>
    lastEvent.set key ((state.lastEvent.get? key).getD state.now)) Dict.empty

/-- `_error_affected_from`. -/
def errorAffectedFrom (state : RouteHandover) (delivery : Delivery)
    (error : ConnectionError) (audited : Bool) : Option Int :=
  if error = .lost ∧ audited then
    some (delivery.provenNs.getD state.now)
  else none

/-- The gap of `_open_gap` for the end of a connection. -/
def openedGap (state : RouteHandover) (affectedFrom : Option Int)
    (gapId : String) : OpenedGap where
  gapId := gapId
  affectedFromNs :=
    affectedFrom.getD (state.lastEvent.values.min?.getD state.now)
  exchangeSymbols := state.instruments
  streamTypes := state.streamTypes

/-- A connection which is left now. -/
def leftConnection (state : RouteHandover) (delivery : Delivery)
    (early : Bool) (gap : Option OpenedGap) : LeftConnection where
  lastEvent := delivery.lastEvent
  instruments := state.instruments
  early := early
  gap := gap

/-- The connection which a step of `run` leaves. -/
def leaving (state : RouteHandover) (audited : Bool) :
    RunLabel → Option LeftConnection
  | .startFails error gapId =>
      match state.run.phase with
      | .starting candidate _ =>
          if state.run.gapId.isNone ∧ candidate.transportReady then
            some (state.leftConnection state.candidate true
              (some (state.openedGap (state.errorAffectedFrom state.candidate
                error audited) gapId)))
          else none
      | _ => none
  | .failed error gapId =>
      some (state.leftConnection state.current true
        (some (state.openedGap (state.errorAffectedFrom state.current error
          audited) gapId)))
  | .reconnect gapId =>
      some (state.leftConnection state.current true
        (some (state.openedGap none gapId)))
  | .overlapped =>
      some (state.leftConnection state.current state.endedEarly none)
  | .start _ _ | .receive _ | .report | .ready | .startRaises | .dies
  | .replacementDies | .rotate | .lock _ _ | .wake | .stop => none

/-- What a step of `run` means for its connections. -/
def follow (state : RouteHandover) (audited : Bool) :
    RunLabel → RouteHandover
  | .start _ _ | .lock _ _ => { state with candidate := {} }
  | .receive message =>
      let acked := state.run.phase.candidate?.any fun candidate =>
        message.acks candidate.subscriptionId
      { state with
        lastEvent := state.markEvent message.key
        candidate := state.candidate.hear state.now (acked || audited) }
  | .ready =>
      match state.run.phase with
      | .starting _ _ =>
          { state with
            current := state.candidate
            endedEarly := false }
      | _ => state
  | .dies => { state with endedEarly := !state.run.phase.replacementLive }
  | .overlapped =>
      { state with
        current := state.candidate
        endedEarly := false }
  | .report | .startFails _ _ | .startRaises | .failed _ _ | .reconnect _
  | .replacementDies | .rotate | .wake | .stop => state

/-- An attempt monitors the streams of the route. -/
def admits (state : RouteHandover) : RunLabel → Bool
  | .start _ keys | .lock _ keys =>
      keys = state.livenessKeys state.instruments
  | _ => true

def step (state : RouteHandover) : HandoverLabel → Option RouteHandover
  | .passes elapsed => some { state with now := state.now + elapsed }
  | .delivers key proves =>
      if state.run.phase.delivering then
        some { state with
          lastEvent := state.markEvent key
          current := state.current.hear state.now proves }
      else none
  | .replacementDelivers key proves =>
      match state.run.phase with
      | .overlapping _ true =>
          some { state with
            lastEvent := state.markEvent key
            candidate := state.candidate.hear state.now proves }
      | _ => none
  | .updates instruments =>
      if state.run.phase.unlocked then
        some { state with
          instruments
          lastEvent := state.updatedLastEvent instruments }
      else none
  | .runs label audited =>
      if state.admits label then
        (state.run.step label).map fun run =>
          { state.follow audited label with
            run
            left := state.left ++ (state.leaving audited label).toList }
      else none

/-- A route which starts. -/
def started (now : Int) (instruments : List String)
    (streamTypes livenessTypes : List StreamType) : RouteHandover where
  now := now
  instruments := instruments
  streamTypes := streamTypes
  livenessTypes := livenessTypes
  lastEvent := (livenessTypes.flatMap fun streamType =>
    instruments.map fun symbol => (streamType, symbol)).foldl
      (fun lastEvent key => lastEvent.set key now) Dict.empty

/-! ## What the gaps should cover -/

/-- A gap of the whole route was opened, and it starts early enough. -/
def Explained (state : RouteHandover) (left : LeftConnection) : Prop :=
  ∃ gap last, left.gap = some gap ∧ left.lastEvent = some last ∧
    gap.affectedFromNs ≤ last ∧
    gap.exchangeSymbols = left.instruments ∧
    gap.streamTypes = state.streamTypes ∧
    ∃ reason, .opened gap.gapId reason ∈ state.run.calls

/--
Every connection which ended before its replacement was live has its gap, and
the gaps are closed for connections which are live only.
-/
structure Covered (state : RouteHandover) : Prop where
  explained : ∀ left ∈ state.left, left.early → state.Explained left
  closed : ∀ gapId reason transport,
    .closed gapId reason transport ∈ state.run.calls →
      transport.transportReady

/--
Some monitored stream was heard of no later than the last event of the
connection; or none is monitored, and no time has passed.
-/
def Unheard (state : RouteHandover) (delivery : Delivery) : Prop :=
  match delivery.lastEvent with
  | some last =>
      (∃ heard ∈ state.lastEvent.values, heard ≤ last) ∨
        state.lastEvent.values = [] ∧ state.now ≤ last
  | none => False

instance (state : RouteHandover) (delivery : Delivery) :
    Decidable (state.Unheard delivery) :=
  match equation : delivery.lastEvent with
  | some _ => decidable_of_iff (_ ∨ _) (by rw [Unheard, equation])
  | none => .isFalse (by rw [Unheard, equation]; exact id)

/--
No rotation is completed whose old connection ended before its replacement was
live; and a gap for a connection which was live either starts where an audit
says so, or is opened while some monitored stream is unheard.
-/
def Meets (state : RouteHandover) : HandoverLabel → Prop
  | .runs (.startFails error _) audited =>
      match state.run.phase with
      | .starting candidate _ =>
          state.run.gapId.isNone ∧ candidate.transportReady →
            (error = .lost ∧ audited) ∨ state.Unheard state.candidate
      | _ => True
  | .runs (.failed error _) audited =>
      (error = .lost ∧ audited) ∨ state.Unheard state.current
  | .runs (.reconnect _) _ => state.Unheard state.current
  | .runs .overlapped _ => state.endedEarly = false
  | _ => True

instance (state : RouteHandover) (label : HandoverLabel) :
    Decidable (state.Meets label) :=
  match label with
  | .runs (.startFails error _) audited =>
      match equation : state.run.phase with
      | .starting candidate _ =>
          decidable_of_iff
            (state.run.gapId.isNone ∧ candidate.transportReady →
              (error = .lost ∧ audited) ∨ state.Unheard state.candidate)
            (by simp only [Meets, equation])
      | .down | .watching _ | .locking _ | .replacing _ _
      | .overlapping _ _ | .pausing _ | .ended =>
          .isTrue (by simp only [Meets, equation])
  | .runs (.failed error _) audited =>
      inferInstanceAs (Decidable ((error = .lost ∧ audited = true) ∨ _))
  | .runs (.reconnect _) _ =>
      inferInstanceAs (Decidable (state.Unheard state.current))
  | .runs .overlapped _ =>
      inferInstanceAs (Decidable (state.endedEarly = false))
  | .runs (.start _ _) _ | .runs (.receive _) _ | .runs .report _
  | .runs .ready _ | .runs .startRaises _ | .runs .dies _
  | .runs .replacementDies _ | .runs .rotate _ | .runs (.lock _ _) _
  | .runs .wake _ | .runs .stop _ | .passes _ | .delivers _ _
  | .replacementDelivers _ _ | .updates _ => .isTrue trivial

end RouteHandover

/-! ## What a connection has delivered -/

/-- The events lie in the past, and an event proves the subscriptions. -/
structure Delivery.Sound (delivery : Delivery) (now : Int) : Prop where
  past : ∀ last, delivery.lastEvent = some last → last ≤ now
  proven : ∀ proven, delivery.provenNs = some proven →
    ∃ last, delivery.lastEvent = some last ∧ proven ≤ last

namespace Delivery

variable {delivery : Delivery} {now : Int}

theorem sound_nothing (now : Int) : ({} : Delivery).Sound now where
  past := by
    rintro last ⟨⟩
  proven := by
    rintro proven ⟨⟩

theorem Sound.later (sound : delivery.Sound now) {later : Int}
    (passed : now ≤ later) : delivery.Sound later where
  past last isLast := (sound.past last isLast).trans passed
  proven := sound.proven

theorem Sound.hear (sound : delivery.Sound now) (proves : Bool) :
    (delivery.hear now proves).Sound now where
  past := by
    rintro last ⟨⟩
    exact le_rfl
  proven proven isProven := by
    refine ⟨now, rfl, ?_⟩
    simp only [Delivery.hear] at isProven
    split at isProven
    next =>
      cases isProven
      exact le_rfl
    next =>
      rcases sound.proven proven isProven with ⟨last, isLast, before⟩
      exact before.trans (sound.past last isLast)

/-- A connection whose subscriptions were proven keeps its proof. -/
theorem isSome_provenNs_hear (live : delivery.provenNs.isSome)
    (proves : Bool) : (delivery.hear now proves).provenNs.isSome := by
  simp only [Delivery.hear]
  split
  next => rfl
  next => exact live

end Delivery

/-! ## Where a gap starts -/

theorem earliest_le_iff
    {heard : List Int} {now last : Int} :
    heard.min?.getD now ≤ last ↔
      (∃ time ∈ heard, time ≤ last) ∨ heard = [] ∧ now ≤ last := by
  cases least : heard.min? with
  | none =>
      rw [List.min?_eq_none_iff] at least
      rw [least]
      simp
  | some first =>
      rcases List.min?_eq_some_iff.mp least with ⟨member, lower⟩
      rw [Option.getD_some]
      constructor
      · exact fun early => Or.inl ⟨first, member, early⟩
      · rintro (⟨time, isHeard, early⟩ | ⟨rfl, _⟩)
        · exact (lower time isHeard).trans early
        · cases member

namespace RouteHandover

variable {state : RouteHandover} {delivery : Delivery}

theorem openedGap_le_iff
    {last : Int} (isLast : delivery.lastEvent = some last) (gapId : String) :
    (state.openedGap none gapId).affectedFromNs ≤ last ↔
      state.Unheard delivery := by
  rw [Unheard, isLast]
  exact earliest_le_iff

/-- The gap for a connection which was live starts early enough. -/
theorem openedGap_error_le_iff
    {last : Int} (sound : delivery.Sound state.now)
    (live : delivery.provenNs.isSome)
    (isLast : delivery.lastEvent = some last) (error : ConnectionError)
    (audited : Bool) (gapId : String) :
    (state.openedGap (state.errorAffectedFrom delivery error audited)
        gapId).affectedFromNs ≤ last ↔
      (error = .lost ∧ audited) ∨ state.Unheard delivery := by
  by_cases fromAudit : error = .lost ∧ audited
  · rcases Option.isSome_iff_exists.mp live with ⟨proven, isProven⟩
    rcases sound.proven proven isProven with ⟨other, isOther, before⟩
    cases isOther.symm.trans isLast
    rw [errorAffectedFrom, if_pos fromAudit, isProven]
    exact iff_of_true before (Or.inl fromAudit)
  · rw [errorAffectedFrom, if_neg fromAudit, openedGap_le_iff isLast,
      or_iff_right fromAudit]

end RouteHandover

/-! ## What a step of `run` does -/

/-- A step tells the journal more, and closes a gap for a live connection. -/
theorem RouteRun.calls_of_step
    {state after : RouteRun} {label : RunLabel}
    (stepped : state.step label = some after) :
    ∃ added, after.calls = state.calls ++ added ∧
      ∀ gapId reason transport, .closed gapId reason transport ∈ added →
        transport.transportReady := by
  have same (unchanged : after.calls = state.calls) :
      ∃ added, after.calls = state.calls ++ added ∧
        ∀ gapId reason transport, .closed gapId reason transport ∈ added →
          transport.transportReady :=
    ⟨[], by rw [unchanged, List.append_nil], by rintro _ _ _ ⟨⟩⟩
  have opening {reason : GapReason} {gapId : String}
      (opened : after.calls = state.calls ++ [.opened gapId reason]) :
      ∃ added, after.calls = state.calls ++ added ∧
        ∀ gapId reason transport, .closed gapId reason transport ∈ added →
          transport.transportReady := by
    refine ⟨_, opened, ?_⟩
    intro _ _ _ member
    cases List.mem_singleton.mp member
  cases label with
  | report =>
      simp only [RouteRun.step] at stepped
      split at stepped
      next candidate callback isPhase =>
        split at stepped
        next marks =>
          cases stepped
          rw [Bool.and_eq_true] at marks
          cases callback with
          | none => exact same rfl
          | some recoveryReason =>
              cases isGap : state.gapId with
              | none =>
                  apply same
                  simp only [reportTransportReady, isGap]
              | some gapId =>
                  refine ⟨[.closed gapId recoveryReason candidate], ?_, ?_⟩
                  · simp only [reportTransportReady, isGap]
                  · intro _ _ _ member
                    cases List.mem_singleton.mp member
                    exact marks.1
        next => cases stepped
      next =>
        split at stepped
        next =>
          cases stepped
          exact same rfl
        next => cases stepped
      next => cases stepped
  | startFails error gapId =>
      simp only [RouteRun.step] at stepped
      split at stepped
      next =>
        split at stepped
        next =>
          cases stepped
          exact opening rfl
        next =>
          cases stepped
          exact same rfl
      next =>
        cases stepped
        exact same rfl
      next => cases stepped
  | failed error gapId =>
      simp only [RouteRun.step] at stepped
      split at stepped
      next =>
        cases stepped
        exact opening rfl
      next => cases stepped
  | reconnect gapId =>
      simp only [RouteRun.step] at stepped
      split at stepped
      next =>
        cases stepped
        exact opening rfl
      next => cases stepped
  | start _ _ | ready | startRaises | dies | replacementDies | rotate
  | lock _ _ | overlapped | wake | receive _ =>
      apply same
      simp only [RouteRun.step] at stepped
      split at stepped <;> (try split at stepped) <;> cases stepped <;> rfl
  | stop =>
      cases stepped
      exact same rfl

/-- The acknowledgement of a connection has proven its subscriptions. -/
structure Transport.Proven (transport : Transport) (delivery : Delivery) :
    Prop where
  acknowledged : transport.acknowledged → delivery.provenNs.isSome
  ready : transport.transportReady → transport.acknowledged
  reported : transport.reported → transport.transportReady

namespace Transport

variable {transport : Transport} {delivery : Delivery}

theorem proven_started (subscriptionId : Nat) (keys : List LivenessKey) :
    (started subscriptionId keys).Proven delivery where
  acknowledged := by
    rintro ⟨⟩
  ready := by
    rintro ⟨⟩
  reported := by
    rintro ⟨⟩

theorem Proven.live (proven : transport.Proven delivery)
    (isReady : transport.transportReady) : delivery.provenNs.isSome :=
  proven.acknowledged (proven.ready isReady)

theorem Proven.maybeMark (proven : transport.Proven delivery) :
    transport.maybeMarkTransportReady.Proven delivery := by
  unfold maybeMarkTransportReady
  split
  next marks =>
    rw [Bool.and_eq_true] at marks
    exact ⟨proven.acknowledged, fun _ => marks.1, fun _ => rfl⟩
  next => exact proven

theorem Proven.acknowledge (proven : transport.Proven delivery)
    (live : delivery.provenNs.isSome) :
    { transport with acknowledged := true }.Proven delivery where
  acknowledged _ := live
  ready _ := rfl
  reported := proven.reported

theorem Proven.receive (proven : transport.Proven delivery)
    (message : WebsocketMessage) (now : Int) (audited : Bool) :
    (transport.receive message).Proven
      (delivery.hear now
        (message.acks transport.subscriptionId || audited)) := by
  have heard (proves : Bool) :
      ({ transport with
        received := transport.received ++ [message] }.discard
          message.key).Proven (delivery.hear now proves) :=
    ⟨fun acknowledged => Delivery.isSome_provenNs_hear
        (proven.acknowledged acknowledged) proves,
      proven.ready, proven.reported⟩
  have discarded (proves : Bool) := (heard proves).maybeMark
  unfold Transport.receive
  cases message with
  | data key => exact discarded _
  | control control =>
      simp only [WebsocketMessage.acks]
      split
      next acks =>
        rw [acks, Bool.true_or]
        have answered := ((discarded true).acknowledge rfl).maybeMark
        exact ⟨answered.acknowledged, answered.ready, answered.reported⟩
      next =>
        have still := discarded (isSubscriptionAck control
          transport.subscriptionId || audited)
        exact ⟨still.acknowledged, still.ready, still.reported⟩

end Transport

namespace RouteHandover

/-! ## The invariant -/

/-- The connections of each phase have been live, or prove it when they are. -/
def PhaseLive (state : RouteHandover) : Prop :=
  match state.run.phase with
  | .down | .ended => True
  | .starting candidate _ => candidate.Proven state.candidate
  | .watching _ | .locking _ | .pausing _ => state.current.provenNs.isSome
  | .replacing _ candidate =>
      state.current.provenNs.isSome ∧ candidate.Proven state.candidate
  | .overlapping _ _ =>
      state.current.provenNs.isSome ∧ state.candidate.provenNs.isSome

/-- What holds between any two steps. -/
structure HandoverSound (state : RouteHandover) : Prop where
  current : state.current.Sound state.now
  candidate : state.candidate.Sound state.now
  phase : state.PhaseLive

variable {state after : RouteHandover}

/-- The state after a step of `run`. -/
def afterRun (state : RouteHandover) (audited : Bool) (label : RunLabel)
    (run : RouteRun) : RouteHandover :=
  { state.follow audited label with
    run
    left := state.left ++ (state.leaving audited label).toList }

theorem step_runs_cases
    {label : RunLabel} {audited : Bool}
    (stepped : state.step (.runs label audited) = some after) :
    ∃ run, state.run.step label = some run ∧
      after = state.afterRun audited label run := by
  simp only [step] at stepped
  split at stepped
  next =>
    rcases Option.map_eq_some_iff.mp stepped with ⟨run, ran, rfl⟩
    exact ⟨run, ran, rfl⟩
  next => cases stepped

theorem PhaseLive.afterRun
    (live : state.PhaseLive) {label : RunLabel} {audited : Bool}
    {run : RouteRun} (ran : state.run.step label = some run) :
    (state.afterRun audited label run).PhaseLive := by
  unfold PhaseLive at live
  unfold PhaseLive RouteHandover.afterRun
  cases label with
  | start subscriptionId keys =>
      simp only [RouteRun.step] at ran
      split at ran
      next =>
        cases ran
        exact Transport.proven_started subscriptionId keys
      next => cases ran
  | receive message =>
      simp only [RouteRun.step] at ran
      split at ran
      next candidate callback isPhase =>
        split at ran
        next => cases ran
        next =>
          cases ran
          rw [isPhase] at live
          simp only [follow, isPhase, RunPhase.candidate?, Option.any_some]
          exact live.receive message state.now audited
      next alive candidate isPhase =>
        split at ran
        next => cases ran
        next =>
          cases ran
          rw [isPhase] at live
          simp only [follow, isPhase, RunPhase.candidate?, Option.any_some]
          exact ⟨live.1, live.2.receive message state.now audited⟩
      next => cases ran
  | report =>
      simp only [RouteRun.step] at ran
      split at ran
      next candidate callback isPhase =>
        split at ran
        next marks =>
          cases ran
          rw [isPhase] at live
          rw [Bool.and_eq_true] at marks
          exact ⟨live.acknowledged, live.ready, fun _ => marks.1⟩
        next => cases ran
      next alive candidate isPhase =>
        split at ran
        next marks =>
          cases ran
          rw [isPhase] at live
          rw [Bool.and_eq_true] at marks
          exact ⟨live.1, live.2.acknowledged, live.2.ready, fun _ => marks.1⟩
        next => cases ran
      next => cases ran
  | ready =>
      simp only [RouteRun.step] at ran
      split at ran
      next candidate callback isPhase =>
        split at ran
        next isReported =>
          cases ran
          rw [isPhase] at live
          simp only [follow, isPhase]
          exact live.live (live.reported isReported)
        next => cases ran
      next alive candidate isPhase =>
        split at ran
        next isReported =>
          cases ran
          rw [isPhase] at live
          simp only [follow, isPhase]
          exact ⟨live.1, live.2.live (live.2.reported isReported)⟩
        next => cases ran
      next => cases ran
  | startFails error gapId =>
      simp only [RouteRun.step] at ran
      split at ran
      next =>
        split at ran
        next =>
          cases ran
          trivial
        next =>
          cases ran
          trivial
      next alive candidate isPhase =>
        cases ran
        rw [isPhase] at live
        exact live.1
      next => cases ran
  | startRaises =>
      simp only [RouteRun.step] at ran
      split at ran
      next =>
        cases ran
        trivial
      next =>
        cases ran
        trivial
      next => cases ran
  | dies =>
      simp only [RouteRun.step] at ran
      split at ran
      next isPhase =>
        cases ran
        rw [isPhase] at live
        exact live
      next isPhase =>
        cases ran
        rw [isPhase] at live
        exact live
      next isPhase =>
        cases ran
        rw [isPhase] at live
        exact live
      next isPhase =>
        cases ran
        rw [isPhase] at live
        exact live
      next isPhase =>
        cases ran
        rw [isPhase] at live
        exact live
      next => cases ran
  | replacementDies =>
      simp only [RouteRun.step] at ran
      split at ran
      next isPhase =>
        cases ran
        rw [isPhase] at live
        exact live
      next => cases ran
  | failed error gapId =>
      simp only [RouteRun.step] at ran
      split at ran
      next =>
        cases ran
        trivial
      next => cases ran
  | reconnect gapId =>
      simp only [RouteRun.step] at ran
      split at ran
      next =>
        cases ran
        trivial
      next => cases ran
  | rotate =>
      simp only [RouteRun.step] at ran
      split at ran
      next isPhase =>
        cases ran
        rw [isPhase] at live
        exact live
      next => cases ran
  | lock subscriptionId keys =>
      simp only [RouteRun.step] at ran
      split at ran
      next isPhase =>
        cases ran
        rw [isPhase] at live
        exact ⟨live, Transport.proven_started subscriptionId keys⟩
      next => cases ran
  | overlapped =>
      simp only [RouteRun.step] at ran
      split at ran
      next isPhase =>
        cases ran
        rw [isPhase] at live
        exact live.2
      next => cases ran
  | wake =>
      simp only [RouteRun.step] at ran
      split at ran
      next isPhase =>
        cases ran
        rw [isPhase] at live
        exact live
      next => cases ran
  | stop =>
      cases ran
      trivial

theorem now_follow (audited : Bool) (label : RunLabel) :
    (state.follow audited label).now = state.now := by
  cases label with
  | ready =>
      simp only [follow]
      split <;> rfl
  | _ => rfl

theorem streamTypes_afterRun
    (audited : Bool) (label : RunLabel) (run : RouteRun) :
    (state.afterRun audited label run).streamTypes = state.streamTypes := by
  cases label with
  | ready =>
      simp only [afterRun, follow]
      split <;> rfl
  | _ => rfl

theorem HandoverSound.follow
    (sound : state.HandoverSound) (audited : Bool) (label : RunLabel) :
    (state.follow audited label).current.Sound state.now ∧
      (state.follow audited label).candidate.Sound state.now := by
  cases label with
  | start _ _ | lock _ _ =>
      exact ⟨sound.current, Delivery.sound_nothing state.now⟩
  | receive message => exact ⟨sound.current, sound.candidate.hear _⟩
  | ready =>
      simp only [RouteHandover.follow]
      split
      next => exact ⟨sound.candidate, sound.candidate⟩
      next => exact ⟨sound.current, sound.candidate⟩
  | overlapped => exact ⟨sound.candidate, sound.candidate⟩
  | report | startFails _ _ | startRaises | dies | replacementDies
  | failed _ _ | reconnect _ | rotate | wake | stop =>
      exact ⟨sound.current, sound.candidate⟩

theorem HandoverSound.step
    (sound : state.HandoverSound) {label : HandoverLabel}
    (stepped : state.step label = some after) : after.HandoverSound := by
  cases label with
  | passes elapsed =>
      cases stepped
      have passed : state.now ≤ state.now + elapsed := by omega
      exact ⟨sound.current.later passed, sound.candidate.later passed,
        sound.phase⟩
  | delivers key proves =>
      simp only [RouteHandover.step] at stepped
      split at stepped
      next =>
        cases stepped
        refine ⟨sound.current.hear proves, sound.candidate, ?_⟩
        have live := sound.phase
        unfold PhaseLive at live ⊢
        cases isPhase : state.run.phase with
        | down | ended => trivial
        | starting _ _ =>
            simp only [isPhase] at live ⊢
            exact live
        | watching _ | locking _ | pausing _ =>
            simp only [isPhase] at live ⊢
            exact Delivery.isSome_provenNs_hear live proves
        | replacing _ _ | overlapping _ _ =>
            simp only [isPhase] at live ⊢
            exact ⟨Delivery.isSome_provenNs_hear live.1 proves, live.2⟩
      next => cases stepped
  | replacementDelivers key proves =>
      simp only [RouteHandover.step] at stepped
      split at stepped
      next isPhase =>
        cases stepped
        refine ⟨sound.current, sound.candidate.hear proves, ?_⟩
        have live := sound.phase
        unfold PhaseLive at live ⊢
        rw [isPhase] at live ⊢
        exact ⟨live.1, Delivery.isSome_provenNs_hear live.2 proves⟩
      next => cases stepped
  | updates instruments =>
      simp only [RouteHandover.step] at stepped
      split at stepped
      next =>
        cases stepped
        exact ⟨sound.current, sound.candidate, sound.phase⟩
      next => cases stepped
  | runs label audited =>
      rcases step_runs_cases stepped with ⟨run, ran, rfl⟩
      rcases sound.follow audited label with ⟨current, candidate⟩
      rw [← now_follow audited label] at current candidate
      exact ⟨current, candidate, sound.phase.afterRun ran⟩

/-! ## What is explained -/

theorem Explained.mono
    {left : LeftConnection} (explained : state.Explained left)
    (streams : after.streamTypes = state.streamTypes)
    (calls : state.run.calls ⊆ after.run.calls) : after.Explained left := by
  rcases explained with ⟨gap, last, isGap, isLast, early, symbols, types,
    reason, opened⟩
  exact ⟨gap, last, isGap, isLast, early, symbols, types.trans streams.symm,
    reason, calls opened⟩

/-- A connection which was live is explained if its gap starts in time. -/
theorem explained_leftConnection_iff
    {delivery : Delivery} {start : Option Int} {gapId : String}
    {inTime : Prop} {reason : GapReason}
    (sound : delivery.Sound state.now) (live : delivery.provenNs.isSome)
    (starts : ∀ last, delivery.lastEvent = some last →
      ((state.openedGap start gapId).affectedFromNs ≤ last ↔ inTime))
    (streams : after.streamTypes = state.streamTypes)
    (opened : .opened gapId reason ∈ after.run.calls) :
    after.Explained (state.leftConnection delivery true
      (some (state.openedGap start gapId))) ↔ inTime := by
  rcases Option.isSome_iff_exists.mp live with ⟨proven, isProven⟩
  rcases sound.proven proven isProven with ⟨last, isLast, _⟩
  constructor
  · rintro ⟨gap, other, isGap, isOther, early, _⟩
    cases isGap
    exact (starts other isOther).mp early
  · intro holds
    exact ⟨_, last, rfl, isLast, (starts last isLast).mpr holds, rfl,
      streams.symm, reason, opened⟩

theorem forall_early_iff
    {left : LeftConnection} {property : LeftConnection → Prop}
    (early : left.early) :
    (∀ other ∈ some left, other.early → property other) ↔ property left := by
  constructor
  · exact fun all => all left rfl early
  · rintro holds other ⟨⟩ _
    exact holds

/-- The connection which a step leaves is explained as the condition says. -/
theorem leaving_explained_iff
    (sound : state.HandoverSound) {label : RunLabel} {audited : Bool}
    {run : RouteRun} (ran : state.run.step label = some run) :
    (∀ left ∈ state.leaving audited label, left.early →
      (state.afterRun audited label run).Explained left) ↔
        state.Meets (.runs label audited) := by
  have live := sound.phase
  have streams := @streamTypes_afterRun state audited label run
  unfold PhaseLive at live
  cases label with
  | startFails error gapId =>
      simp only [RouteRun.step] at ran
      simp only [leaving, Meets]
      split at ran
      next candidate callback isPhase =>
        simp only [isPhase] at live ⊢
        split
        next wasLive =>
          rw [if_pos wasLive.1] at ran
          cases ran
          have isLive := live.live wasLive.2
          rw [forall_early_iff rfl]
          have explained := explained_leftConnection_iff sound.candidate isLive
            (fun last isLast => openedGap_error_le_iff sound.candidate isLive
              isLast error audited gapId) streams
            (List.mem_append_right state.run.calls List.mem_cons_self)
          exact explained.trans ⟨fun inTime _ => inTime, fun all => all wasLive⟩
        next notLive =>
          refine iff_of_true ?_ fun wasLive => absurd wasLive notLive
          rintro left ⟨⟩
      next isPhase =>
        simp only [isPhase]
        refine iff_of_true ?_ trivial
        rintro left ⟨⟩
      next => cases ran
  | failed error gapId =>
      simp only [RouteRun.step] at ran
      simp only [leaving, Meets]
      split at ran
      next isPhase =>
        cases ran
        simp only [isPhase] at live
        rw [forall_early_iff rfl]
        exact explained_leftConnection_iff sound.current live
          (fun last isLast => openedGap_error_le_iff sound.current live
            isLast error audited gapId) streams
          (List.mem_append_right state.run.calls List.mem_cons_self)
      next => cases ran
  | reconnect gapId =>
      simp only [RouteRun.step] at ran
      simp only [leaving, Meets]
      split at ran
      next isPhase =>
        cases ran
        simp only [isPhase] at live
        rw [forall_early_iff rfl]
        exact explained_leftConnection_iff sound.current live
          (fun last isLast => openedGap_le_iff isLast gapId) streams
          (List.mem_append_right state.run.calls List.mem_cons_self)
      next => cases ran
  | overlapped =>
      simp only [leaving, Meets]
      constructor
      · intro all
        by_contra ended
        rcases all _ rfl (Bool.of_not_eq_false ended) with ⟨gap, _, none, _⟩
        cases none
      · rintro inTime left ⟨⟩ early
        exact absurd (inTime.symm.trans early) Bool.false_ne_true
  | start _ _ | receive _ | report | ready | startRaises | dies
  | replacementDies | rotate | lock _ _ | wake | stop =>
      refine iff_of_true ?_ trivial
      rintro left ⟨⟩

/-- After a step of `run` all is covered exactly if it met the condition. -/
theorem Covered.afterRun_iff
    (covered : state.Covered) (sound : state.HandoverSound)
    {label : RunLabel} {audited : Bool} {run : RouteRun}
    (ran : state.run.step label = some run) :
    (state.afterRun audited label run).Covered ↔
      state.Meets (.runs label audited) := by
  rw [← leaving_explained_iff sound ran]
  rcases RouteRun.calls_of_step ran with ⟨added, calls, closesLive⟩
  constructor
  · intro after left member early
    refine after.explained left (List.mem_append_right state.left ?_) early
    exact Option.mem_toList.mpr member
  · intro explained
    constructor
    · intro left member early
      rcases List.mem_append.mp member with old | new
      · apply (covered.explained left old early).mono
          (streamTypes_afterRun audited label run)
        show state.run.calls ⊆ run.calls
        rw [calls]
        exact List.subset_append_left _ _
      · exact explained left (Option.mem_toList.mp new) early
    · intro gapId reason transport member
      have told : .closed gapId reason transport ∈ run.calls := member
      rw [calls] at told
      rcases List.mem_append.mp told with old | new
      · exact covered.closed gapId reason transport old
      · exact closesLive gapId reason transport new

theorem Covered.step_iff
    (covered : state.Covered) (sound : state.HandoverSound)
    {label : HandoverLabel} (stepped : state.step label = some after) :
    after.Covered ↔ state.Meets label := by
  cases label with
  | passes elapsed =>
      cases stepped
      exact iff_of_true ⟨covered.explained, covered.closed⟩ trivial
  | delivers key proves =>
      simp only [step] at stepped
      split at stepped
      next =>
        cases stepped
        exact iff_of_true ⟨covered.explained, covered.closed⟩ trivial
      next => cases stepped
  | replacementDelivers key proves =>
      simp only [step] at stepped
      split at stepped
      next =>
        cases stepped
        exact iff_of_true ⟨covered.explained, covered.closed⟩ trivial
      next => cases stepped
  | updates instruments =>
      simp only [step] at stepped
      split at stepped
      next =>
        cases stepped
        exact iff_of_true ⟨covered.explained, covered.closed⟩ trivial
      next => cases stepped
  | runs label audited =>
      rcases step_runs_cases stepped with ⟨run, ran, rfl⟩
      exact covered.afterRun_iff sound ran

theorem covered_started
    (now : Int) (instruments : List String)
    (streamTypes livenessTypes : List StreamType) :
    (started now instruments streamTypes livenessTypes).Covered where
  explained := by
    rintro left ⟨⟩
  closed := by
    rintro gapId reason transport ⟨⟩

theorem sound_started
    (now : Int) (instruments : List String)
    (streamTypes livenessTypes : List StreamType) :
    (started now instruments streamTypes livenessTypes).HandoverSound :=
  ⟨Delivery.sound_nothing now, Delivery.sound_nothing now, trivial⟩

/--
In every run of a route, each connection which ended before its replacement
was live has a gap of the whole route, which starts no later than its last
event and is closed for a live connection only, exactly if no rotation is
completed whose old connection ended early, and each gap starts where an audit
says so or while some monitored stream is unheard since the last event.
-/
theorem left_covered_iff
    {now : Int} {instruments : List String}
    {streamTypes livenessTypes : List StreamType}
    {labels : List HandoverLabel} {final : RouteHandover}
    (reached : runFrom step (started now instruments streamTypes livenessTypes)
      labels = some final) :
    Throughout step Covered
        (started now instruments streamTypes livenessTypes) labels ↔
      StepsMeet step Meets
        (started now instruments streamTypes livenessTypes) labels := by
  have preserved (before : RouteHandover) (label : HandoverLabel)
      (after : RouteHandover) (both : before.Covered ∧ before.HandoverSound)
      (meets : before.Meets label) (stepped : before.step label = some after) :
      after.Covered ∧ after.HandoverSound :=
    ⟨(both.1.step_iff both.2 stepped).mpr meets, both.2.step stepped⟩
  exact throughout_iff_stepsMeet preserved (fun _ both => both.1)
    (fun _ _ _ both stepped covered =>
      (both.1.step_iff both.2 stepped).mp covered)
    ⟨covered_started _ _ _ _, sound_started _ _ _ _⟩ reached

/-! ## Two rotations -/

def sampleRoute : RouteHandover :=
  started 0 ["BTCUSDT"] [.bookTicker, .depth] [.bookTicker]

def sampleKeys : List LivenessKey := [(.bookTicker, "BTCUSDT")]

/-- Steps of `run` without an audit. -/
def plainly (labels : List RunLabel) : List HandoverLabel :=
  labels.map fun label => .runs label false

/--
A connection ends in a rotation which fails before its replacement delivers;
its gap is closed for the next one, which ends late in another rotation.
-/
def explainedRun : List HandoverLabel :=
  plainly (.start 1 sampleKeys :: RouteRun.becomingReady) ++
    [.passes 10, .delivers (.bookTicker, "BTCUSDT") false] ++
    plainly [.rotate, .lock 1 sampleKeys, .receive RouteRun.subscribed, .dies,
      .startFails .lost "gap-0000", .wake, .failed .lost "gap-0001",
      .start 1 sampleKeys] ++
    .passes 10 :: plainly (RouteRun.becomingReady ++
      .rotate :: .lock 1 sampleKeys :: RouteRun.becomingReady ++
        [.dies, .overlapped])

theorem explainedRun_runs :
    (runFrom step sampleRoute explainedRun).isSome := by
  decide +kernel

theorem left_covered_explained :
    Throughout step Covered sampleRoute explainedRun := by
  apply (left_covered_iff (Option.some_get explainedRun_runs).symm).mpr
  decide +kernel

/--
The old connection ends while its replacement is not live yet, and a minute
later the route goes over to the replacement.
-/
def silentRotation : List HandoverLabel :=
  plainly (.start 1 sampleKeys :: RouteRun.becomingReady ++
    [.rotate, .lock 1 sampleKeys, .dies]) ++
    .passes 10000000000 :: plainly RouteRun.becomingReady ++
    .passes 60000000000 :: plainly [.overlapped]

theorem silentRotation_runs :
    (runFrom step sampleRoute silentRotation).map (fun state =>
      (state.run.phase, state.run.calls, state.left)) =
        some (.watching true, [],
          [{ lastEvent := some 0
             instruments := ["BTCUSDT"]
             early := true
             gap := none }]) := by
  decide +kernel

/-- The route has gone over, and nothing was told to the journal. -/
theorem rotation_hides_end :
    ¬ Throughout step Covered sampleRoute silentRotation := by
  intro visited
  rcases Option.map_eq_some_iff.mp silentRotation_runs with
    ⟨final, reached, ended⟩
  simp only [Prod.mk.injEq] at ended
  have covered := visited _ [] final (List.append_nil _).symm reached
  have explained := covered.explained _
    (by rw [ended.2.2]; exact List.mem_cons_self) rfl
  rcases explained with ⟨gap, _, none, _⟩
  cases none

end RouteHandover

end ShadowDataPlane.Edge
