import ShadowDataPlane.Edge.RouteLiveness

/-!
# The gap of a route

`RouteRunner.run` keeps a route connected.  It opens a gap when the connection
is lost and hands a callback to the next connection attempt, which closes the
gap as soon as the transport of the new connection is ready; the attempt may
still fail afterwards, and then a new gap is opened.  A rotation starts a
replacement while the old connection goes on.

A label is what happens to a connection or what the supervisor does between
two awaits.  The supervisor notices the end of the connection it waits for at
once, but during a rotation it waits for the replacement, and a message which
rejects the subscription looks like its acknowledgement.  Apart from these two
the gaps are kept as they should be (`gaps_bookkept_iff`).

The journal of the gaps is taken to work; a gap id is given by the label.
-/

namespace ShadowDataPlane.Edge

open ShadowDataPlane.Foundation
open ShadowDataPlane.Contracts

/-! ## A connection which starts -/

/-- What is read of a control message. -/
structure ControlMessage where
  id : Option Nat
  hasResult : Bool
  hasCode : Bool
deriving DecidableEq, Repr

/-- What a connection receives. -/
inductive WebsocketMessage where
  | control (message : ControlMessage)
  | data (key : LivenessKey)
deriving DecidableEq

/-- The stream and the symbol of a message. -/
def WebsocketMessage.key : WebsocketMessage → LivenessKey
  | .control _ => (.wsControl, "")
  | .data key => key

/-- `_is_subscription_ack`. -/
def isSubscriptionAck (message : ControlMessage) (expectedId : Nat) : Bool :=
  message.id = some expectedId && !message.hasResult

/-- A connection on its way to be ready, with the messages it received. -/
structure Transport where
  subscriptionId : Nat
  keys : List LivenessKey
  pending : List LivenessKey
  acknowledged : Bool := false
  transportReady : Bool := false
  /-- Whether the supervisor knows that the transport is ready. -/
  reported : Bool := false
  /-- A rejected subscription raises, and nothing is received any more. -/
  rejected : Bool := false
  received : List WebsocketMessage := []
deriving DecidableEq

namespace Transport

def started (subscriptionId : Nat) (keys : List LivenessKey) : Transport where
  subscriptionId := subscriptionId
  keys := keys
  pending := keys

/-- `_maybe_mark_transport_ready`. -/
def maybeMarkTransportReady (transport : Transport) : Transport :=
  if transport.acknowledged && transport.pending.isEmpty then
    { transport with transportReady := true }
  else transport

/-- The event of a key is no longer awaited. -/
def discard (transport : Transport) (key : LivenessKey) : Transport :=
  { transport with pending := transport.pending.filter (· ≠ key) }

/-- What a message does to the readiness of the transport. -/
def receive (transport : Transport) (message : WebsocketMessage) :
    Transport :=
  let discarded := ({ transport with
    received := transport.received ++ [message] }.discard
      message.key).maybeMarkTransportReady
  match message with
  | .data _ => discarded
  | .control control =>
      let answered :=
        if isSubscriptionAck control transport.subscriptionId then
          { discarded with acknowledged := true }.maybeMarkTransportReady
        else discarded
      { answered with rejected := control.hasCode }

end Transport

/-! ## The supervisor -/

/-- What a connection raises. -/
inductive ConnectionError where
  | overloaded
  | lost
deriving DecidableEq, Repr

def ConnectionError.reason : ConnectionError → GapReason
  | .overloaded => .ingestOverload
  | .lost => .connectionLost

/-- Where `run` waits, and the connections it holds. -/
inductive RunPhase where
  /-- Without a connection, about to start one. -/
  | down
  | starting (candidate : Transport) (callback : Option GapReason)
  | watching (alive : Bool)
  /-- A rotation which waits for the update lock. -/
  | locking (alive : Bool)
  | replacing (alive : Bool) (candidate : Transport)
  | overlapping (alive : Bool) (replacementAlive : Bool)
  /-- The pause after a replacement which failed. -/
  | pausing (alive : Bool)
  | ended
deriving DecidableEq

/-- What the gap journal is told; a close names the connection. -/
inductive RouteGapCall where
  | opened (gapId : String) (reason : GapReason)
  | closed (gapId : String) (reason : GapReason) (transport : Transport)
deriving DecidableEq

/-- The variables of `run`, and its calls to the journal. -/
structure RouteRun where
  phase : RunPhase := .down
  gapId : Option String := none
  gapReason : GapReason := .connectionLost
  calls : List RouteGapCall := []
  /-- Whether an attempt has failed or a connection was lost since the start. -/
  lost : Bool := false
deriving DecidableEq

/-- What happens to a connection, and the steps of the supervisor. -/
inductive RunLabel where
  | start (subscriptionId : Nat) (keys : List LivenessKey)
  | receive (message : WebsocketMessage)
  /-- The supervisor is told that the transport is ready. -/
  | report
  | ready
  | startFails (error : ConnectionError) (gapId : String)
  /-- An error which `run` does not catch. -/
  | startRaises
  | dies
  | replacementDies
  | failed (error : ConnectionError) (gapId : String)
  | reconnect (gapId : String)
  | rotate
  | lock (subscriptionId : Nat) (keys : List LivenessKey)
  | overlapped
  | wake
  | stop
deriving DecidableEq

namespace RouteRun

/-- `_open_gap`, and what `run` notes of it. -/
def openGap (state : RouteRun) (reason : GapReason) (gapId : String) :
    RouteRun :=
  { state with
    gapId := some gapId
    gapReason := reason
    calls := state.calls ++ [.opened gapId reason] }

/-- `report_transport_ready`, which closes the gap it was made for. -/
def reportTransportReady (state : RouteRun) (candidate : Transport) :
    Option GapReason → RouteRun
  | none => state
  | some recoveryReason =>
      match state.gapId with
      | none => state
      | some gapId =>
          { state with
            gapId := none
            calls := state.calls ++ [.closed gapId recoveryReason candidate] }

/-- The connection is gone, and another one is started after a while. -/
def goDown (state : RouteRun) : RouteRun :=
  { state with
    phase := .down
    lost := true }

def step (state : RouteRun) : RunLabel → Option RouteRun
  | .start subscriptionId keys =>
      match state.phase with
      | .down =>
          some { state with
            phase := .starting (.started subscriptionId keys)
              (state.gapId.map fun _ => state.gapReason) }
      | _ => none
  | .receive message =>
      match state.phase with
      | .starting candidate callback =>
          if candidate.rejected then none
          else some { state with
            phase := .starting (candidate.receive message) callback }
      | .replacing alive candidate =>
          if candidate.rejected then none
          else some { state with
            phase := .replacing alive (candidate.receive message) }
      | _ => none
  | .report =>
      match state.phase with
      | .starting candidate callback =>
          if candidate.transportReady && !candidate.reported then
            some { state.reportTransportReady candidate callback with
              phase := .starting { candidate with reported := true } callback }
          else none
      | .replacing alive candidate =>
          if candidate.transportReady && !candidate.reported then
            some { state with
              phase := .replacing alive { candidate with reported := true } }
          else none
      | _ => none
  | .ready =>
      match state.phase with
      | .starting candidate _ =>
          if candidate.reported then some { state with phase := .watching true }
          else none
      | .replacing alive candidate =>
          if candidate.reported then
            some { state with phase := .overlapping alive true }
          else none
      | _ => none
  | .startFails error gapId =>
      match state.phase with
      | .starting _ _ =>
          if state.gapId.isNone then
            some (state.openGap error.reason gapId).goDown
          else some state.goDown
      | .replacing alive _ => some { state with phase := .pausing alive }
      | _ => none
  | .startRaises =>
      match state.phase with
      | .starting _ _ | .replacing _ _ => some { state with phase := .ended }
      | _ => none
  | .dies =>
      match state.phase with
      | .watching true => some { state with phase := .watching false }
      | .locking true => some { state with phase := .locking false }
      | .replacing true candidate =>
          some { state with phase := .replacing false candidate }
      | .overlapping true replacementAlive =>
          some { state with phase := .overlapping false replacementAlive }
      | .pausing true => some { state with phase := .pausing false }
      | _ => none
  | .replacementDies =>
      match state.phase with
      | .overlapping alive true =>
          some { state with phase := .overlapping alive false }
      | _ => none
  | .failed error gapId =>
      match state.phase with
      | .watching false => some (state.openGap error.reason gapId).goDown
      | _ => none
  | .reconnect gapId =>
      match state.phase with
      | .watching true => some (state.openGap .connectionLost gapId).goDown
      | _ => none
  | .rotate =>
      match state.phase with
      | .watching true => some { state with phase := .locking true }
      | _ => none
  | .lock subscriptionId keys =>
      match state.phase with
      | .locking alive =>
          some { state with
            phase := .replacing alive (.started subscriptionId keys) }
      | _ => none
  | .overlapped =>
      match state.phase with
      | .overlapping _ replacementAlive =>
          some { state with phase := .watching replacementAlive }
      | _ => none
  | .wake =>
      match state.phase with
      | .pausing alive => some { state with phase := .watching alive }
      | _ => none
  | .stop => some { state with phase := .ended }

end RouteRun

/-! ## What the gaps should be -/

/-- The gap which is open after the calls, if they alternate and match. -/
def openAfter : Option (String × GapReason) → List RouteGapCall →
    Option (Option (String × GapReason))
  | current, [] => some current
  | none, .opened gapId reason :: later =>
      openAfter (some (gapId, reason)) later
  | some current, .closed gapId reason _ :: later =>
      if current = (gapId, reason) then openAfter none later else none
  | _, _ => none

/-- The subscription is accepted, not rejected. -/
def WebsocketMessage.Acknowledges (expectedId : Nat) :
    WebsocketMessage → Prop
  | .control message =>
      isSubscriptionAck message expectedId ∧ ¬ message.hasCode
  | .data _ => False

instance (expectedId : Nat) (message : WebsocketMessage) :
    Decidable (message.Acknowledges expectedId) :=
  match message with
  | .control _ => inferInstanceAs (Decidable (_ ∧ _))
  | .data _ => inferInstanceAs (Decidable False)

def Transport.Acknowledged (transport : Transport) : Prop :=
  ∃ message ∈ transport.received,
    message.Acknowledges transport.subscriptionId

instance (transport : Transport) : Decidable transport.Acknowledged :=
  inferInstanceAs (Decidable (∃ message ∈ _, _))

/-- The acknowledgement and an event of every liveness key were received. -/
structure Transport.Live (transport : Transport) : Prop where
  acknowledged : transport.Acknowledged
  heard : ∀ key ∈ transport.keys, ∃ message ∈ transport.received,
    message.key = key

namespace RouteRun

/-- A ready connection is current. -/
def HasReady (state : RouteRun) : Prop :=
  match state.phase with
  | .watching alive | .locking alive | .replacing alive _
  | .overlapping alive _ | .pausing alive => alive
  | .down | .starting _ _ | .ended => False

/--
The route has lost its connection, and no new one is transport ready.  A
connection which `run` waits for is noticed at once.
-/
def Lost (state : RouteRun) : Prop :=
  match state.phase with
  | .down => state.lost
  | .starting candidate _ => state.lost ∧ ¬ candidate.transportReady
  | .locking alive | .pausing alive => ¬ alive
  | .replacing alive candidate => ¬ alive ∧ ¬ candidate.transportReady
  | .overlapping alive replacementAlive => ¬ alive ∧ ¬ replacementAlive
  | .watching _ | .ended => False

/-- The gaps of the route are kept as they should be. -/
structure Bookkept (state : RouteRun) : Prop where
  alternates : (openAfter none state.calls).isSome
  closedWhileReady : state.HasReady →
    openAfter none state.calls = some none
  openWhileLost : state.Lost →
    ∃ gap, openAfter none state.calls = some (some gap)
  live : ∀ gapId reason transport,
    .closed gapId reason transport ∈ state.calls → transport.Live

end RouteRun

namespace RunPhase

/-- During a rotation, the replacement is transport ready. -/
def DiesLate : RunPhase → Prop
  | .locking _ | .pausing _ => False
  | .replacing _ candidate => candidate.transportReady
  | .overlapping _ replacementAlive => replacementAlive
  | .down | .starting _ _ | .watching _ | .ended => True

instance (phase : RunPhase) : Decidable phase.DiesLate :=
  match phase with
  | .locking _ | .pausing _ => inferInstanceAs (Decidable False)
  | .replacing _ _ | .overlapping _ _ =>
      inferInstanceAs (Decidable (_ = true))
  | .down | .starting _ _ | .watching _ | .ended =>
      inferInstanceAs (Decidable True)

/-- During a rotation, the old connection is still there. -/
def HasOld : RunPhase → Prop
  | .replacing alive _ | .overlapping alive _ => alive
  | .down | .starting _ _ | .watching _ | .locking _ | .pausing _
  | .ended => True

instance (phase : RunPhase) : Decidable phase.HasOld :=
  match phase with
  | .replacing _ _ | .overlapping _ _ =>
      inferInstanceAs (Decidable (_ = true))
  | .down | .starting _ _ | .watching _ | .locking _ | .pausing _
  | .ended => inferInstanceAs (Decidable True)

/-- The connection which starts was acknowledged. -/
def ReportsLive : RunPhase → Prop
  | .starting candidate _ => candidate.Acknowledged
  | .down | .replacing _ _ | .overlapping _ _ | .watching _ | .locking _
  | .pausing _ | .ended => True

instance (phase : RunPhase) : Decidable phase.ReportsLive :=
  match phase with
  | .starting candidate _ =>
      inferInstanceAs (Decidable candidate.Acknowledged)
  | .down | .replacing _ _ | .overlapping _ _ | .watching _ | .locking _
  | .pausing _ | .ended => inferInstanceAs (Decidable True)

end RunPhase

/--
A connection ends during a rotation only when its replacement is transport
ready, and from then on the replacement must not fail; and no gap is closed
for a connection whose subscription was only rejected.
-/
def RouteRun.Keeps (state : RouteRun) : RunLabel → Prop
  | .dies => state.phase.DiesLate
  | .replacementDies | .startFails _ _ => state.phase.HasOld
  | .report => state.gapId.isSome → state.phase.ReportsLive
  | _ => True

instance (state : RouteRun) (label : RunLabel) :
    Decidable (state.Keeps label) :=
  match label with
  | .dies => inferInstanceAs (Decidable state.phase.DiesLate)
  | .replacementDies | .startFails _ _ =>
      inferInstanceAs (Decidable state.phase.HasOld)
  | .report => inferInstanceAs (Decidable (_ → _))
  | .start _ _ | .receive _ | .ready | .startRaises | .failed _ _
  | .reconnect _ | .rotate | .lock _ _ | .overlapped | .wake | .stop =>
      inferInstanceAs (Decidable True)

/-! ## Readiness -/

/-- What a connection relies on to be transport ready. -/
structure Transport.Sound (transport : Transport) : Prop where
  pending : ∀ key ∈ transport.keys, key ∈ transport.pending ∨
    ∃ message ∈ transport.received, message.key = key
  ready : transport.transportReady →
    ∀ key ∈ transport.keys, ∃ message ∈ transport.received,
      message.key = key
  reported : transport.reported → transport.transportReady

namespace Transport

variable {transport : Transport}

theorem sound_started (subscriptionId : Nat) (keys : List LivenessKey) :
    (started subscriptionId keys).Sound where
  pending _ member := Or.inl member
  ready := by
    rintro ⟨⟩
  reported := by
    rintro ⟨⟩

theorem Sound.maybeMark (sound : transport.Sound) :
    transport.maybeMarkTransportReady.Sound := by
  unfold maybeMarkTransportReady
  split
  next marks =>
    rw [Bool.and_eq_true, List.isEmpty_iff] at marks
    have heard : ∀ key ∈ transport.keys, ∃ message ∈ transport.received,
        message.key = key := by
      intro key member
      apply (sound.pending key member).resolve_left
      rw [marks.2]
      exact List.not_mem_nil
    exact ⟨sound.pending, fun _ => heard, fun _ => rfl⟩
  next => exact sound

theorem Sound.hear (sound : transport.Sound) (message : WebsocketMessage) :
    ({ transport with
      received := transport.received ++ [message] }.discard
        message.key).Sound where
  pending key member := by
    by_cases here : key = message.key
    · right
      exact ⟨message, List.mem_append_right _ List.mem_cons_self, here.symm⟩
    · rcases sound.pending key member with awaited | ⟨other, heard, same⟩
      · left
        show key ∈ transport.pending.filter (· ≠ message.key)
        rw [List.mem_filter]
        exact ⟨awaited, by simpa using here⟩
      · exact Or.inr ⟨other, List.mem_append_left _ heard, same⟩
  ready isReady key member := by
    rcases sound.ready isReady key member with ⟨other, heard, same⟩
    exact ⟨other, List.mem_append_left _ heard, same⟩
  reported := sound.reported

theorem Sound.acknowledge (sound : transport.Sound) :
    { transport with acknowledged := true }.Sound :=
  ⟨sound.pending, sound.ready, sound.reported⟩

theorem Sound.reject (sound : transport.Sound) (rejected : Bool) :
    { transport with rejected := rejected }.Sound :=
  ⟨sound.pending, sound.ready, sound.reported⟩

theorem Sound.receive (sound : transport.Sound) (message : WebsocketMessage) :
    (transport.receive message).Sound := by
  have discarded := (sound.hear message).maybeMark
  unfold Transport.receive
  cases message with
  | data key => exact discarded
  | control control =>
      simp only
      split
      next => exact discarded.acknowledge.maybeMark.reject _
      next => exact discarded.reject _

theorem transportReady_maybeMark (isReady : transport.transportReady) :
    transport.maybeMarkTransportReady.transportReady := by
  unfold maybeMarkTransportReady
  split
  next => rfl
  next => exact isReady

/-- A connection which is transport ready stays so. -/
theorem transportReady_receive
    (isReady : transport.transportReady) (message : WebsocketMessage) :
    (transport.receive message).transportReady := by
  have discarded : ({ transport with
      received := transport.received ++ [message] }.discard
        message.key).maybeMarkTransportReady.transportReady :=
    transportReady_maybeMark isReady
  unfold Transport.receive
  cases message with
  | data key => exact discarded
  | control control =>
      simp only
      split
      next => exact transportReady_maybeMark discarded
      next => exact discarded

theorem reported_maybeMark (transport : Transport) :
    transport.maybeMarkTransportReady.reported = transport.reported := by
  unfold maybeMarkTransportReady
  split
  next => rfl
  next => rfl

theorem reported_receive (transport : Transport)
    (message : WebsocketMessage) :
    (transport.receive message).reported = transport.reported := by
  unfold Transport.receive
  cases message with
  | data key => exact reported_maybeMark _
  | control control =>
      simp only
      split
      next =>
        rw [reported_maybeMark]
        exact reported_maybeMark _
      next => exact reported_maybeMark _

end Transport

/-! ## The invariant -/

theorem openAfter_append
    (current : Option (String × GapReason)) (calls later : List RouteGapCall) :
    openAfter current (calls ++ later) =
      (openAfter current calls).bind fun middle => openAfter middle later := by
  induction calls generalizing current with
  | nil => rfl
  | cons call rest induction =>
      cases current with
      | none =>
          cases call with
          | opened gapId reason => exact induction _
          | closed gapId reason transport => rfl
      | some gap =>
          cases call with
          | opened gapId reason => rfl
          | closed gapId reason transport =>
              simp only [List.cons_append, openAfter]
              split
              next => exact induction none
              next => rfl

namespace RouteRun

/-- What the variables of `run` say in each of its phases. -/
def PhaseSound (state : RouteRun) : Prop :=
  match state.phase with
  | .down | .ended => True
  | .starting candidate callback =>
      candidate.Sound ∧ (candidate.reported → state.gapId = none) ∧
        (state.gapId.isSome → callback = some state.gapReason)
  | .watching _ | .locking _ | .replacing _ _ | .overlapping _ _
  | .pausing _ => state.gapId = none

/-- What holds between any two steps of the supervisor. -/
structure Steady (state : RouteRun) : Prop where
  calls : openAfter none state.calls =
    some (state.gapId.map fun gapId => (gapId, state.gapReason))
  lost : state.Lost → state.gapId.isSome
  live : ∀ gapId reason transport,
    .closed gapId reason transport ∈ state.calls → transport.Live
  phase : state.PhaseSound

variable {state after : RouteRun}

theorem Steady.bookkept (steady : state.Steady) : state.Bookkept where
  alternates := by
    rw [steady.calls]
    rfl
  closedWhileReady ready := by
    have none : state.gapId = none := by
      have sound := steady.phase
      unfold HasReady at ready
      unfold PhaseSound at sound
      split at ready <;> simp_all
    rw [steady.calls, none]
    rfl
  openWhileLost lost := by
    rcases Option.isSome_iff_exists.mp (steady.lost lost) with ⟨gapId, isOpen⟩
    rw [steady.calls, isOpen]
    exact ⟨_, rfl⟩
  live := steady.live

/-- A phase which does not touch the gap. -/
theorem Steady.rephase
    (steady : state.Steady) {phase : RunPhase}
    (lost : { state with phase := phase }.Lost → state.gapId.isSome)
    (sound : { state with phase := phase }.PhaseSound) :
    { state with phase := phase }.Steady where
  calls := steady.calls
  lost := lost
  live := steady.live
  phase := sound

/-- A gap is opened when none is open, and another connection is started. -/
theorem Steady.openGap
    (steady : state.Steady) (idle : state.gapId = none) (reason : GapReason)
    (gapId : String) : (state.openGap reason gapId).goDown.Steady where
  calls := by
    show openAfter none (state.calls ++ [.opened gapId reason]) = _
    rw [openAfter_append, steady.calls, idle]
    rfl
  lost _ := rfl
  live openId closedReason transport member := by
    rcases List.mem_append.mp member with old | new
    · exact steady.live openId closedReason transport old
    · cases List.mem_singleton.mp new
  phase := trivial

/-- The callback closes the gap it was made for. -/
theorem reportTransportReady_of_open
    {candidate : Transport} {callback : Option GapReason} {gapId : String}
    (isOpen : state.gapId = some gapId)
    (isCallback : callback = some state.gapReason) :
    state.reportTransportReady candidate callback =
      { state with
        gapId := none
        calls := state.calls ++
          [.closed gapId state.gapReason candidate] } := by
  rw [isCallback, reportTransportReady]
  simp only [isOpen]

theorem reportTransportReady_of_idle
    {candidate : Transport} {callback : Option GapReason}
    (idle : state.gapId = none) :
    state.reportTransportReady candidate callback = state := by
  cases callback with
  | none => rfl
  | some reason =>
      rw [reportTransportReady]
      simp only [idle]

theorem Steady.report
    {candidate : Transport} {callback : Option GapReason}
    (steady : state.Steady)
    (isPhase : state.phase = .starting candidate callback)
    (isReady : candidate.transportReady)
    (acknowledged : state.gapId.isSome → candidate.Acknowledged) :
    { state.reportTransportReady candidate callback with
      phase := .starting { candidate with reported := true }
        callback }.Steady := by
  have sound := steady.phase
  rw [PhaseSound, isPhase] at sound
  rcases sound with ⟨isSound, _, isCallback⟩
  have reported : { candidate with reported := true }.Sound :=
    ⟨isSound.pending, isSound.ready, fun _ => isReady⟩
  cases isOpen : state.gapId with
  | none =>
      rw [reportTransportReady_of_idle isOpen]
      apply steady.rephase
      · exact fun lost => absurd isReady lost.2
      · refine ⟨reported, fun _ => isOpen, ?_⟩
        intro some
        rw [isOpen] at some
        cases some
  | some gapId =>
      have isSome : state.gapId.isSome := by
        rw [isOpen]
        rfl
      rw [reportTransportReady_of_open isOpen (isCallback isSome)]
      constructor
      · show openAfter none (state.calls ++
          [.closed gapId state.gapReason candidate]) = _
        rw [openAfter_append, steady.calls, isOpen, Option.map_some,
          Option.bind_some, openAfter, if_pos rfl]
        rfl
      · exact fun lost => absurd isReady lost.2
      · intro closedId reason transport member
        rcases List.mem_append.mp member with old | new
        · exact steady.live closedId reason transport old
        · cases List.mem_singleton.mp new
          exact ⟨acknowledged isSome, isSound.ready isReady⟩
      · refine ⟨reported, fun _ => rfl, ?_⟩
        rintro ⟨⟩

theorem Steady.step
    (steady : state.Steady) {label : RunLabel} (keeps : state.Keeps label)
    (stepped : state.step label = some after) : after.Steady := by
  have sound := steady.phase
  have lost := steady.lost
  unfold PhaseSound at sound
  unfold Lost at lost
  cases label with
  | start subscriptionId keys =>
      simp only [RouteRun.step] at stepped
      split at stepped
      next isPhase =>
        cases stepped
        rw [isPhase] at lost
        apply steady.rephase
        · exact fun isLost => lost isLost.1
        · refine ⟨Transport.sound_started subscriptionId keys,
            (by rintro ⟨⟩), ?_⟩
          intro isOpen
          rcases Option.isSome_iff_exists.mp isOpen with ⟨gapId, isGap⟩
          rw [isGap]
          rfl
      next => cases stepped
  | receive message =>
      simp only [RouteRun.step] at stepped
      split at stepped
      next candidate callback isPhase =>
        split at stepped
        next => cases stepped
        next =>
          cases stepped
          rw [isPhase] at lost sound
          apply steady.rephase
          · rintro ⟨wasLost, notReady⟩
            exact lost ⟨wasLost, fun isReady => notReady
              (Transport.transportReady_receive isReady message)⟩
          · refine ⟨sound.1.receive message, ?_, sound.2.2⟩
            rw [Transport.reported_receive]
            exact sound.2.1
      next alive candidate isPhase =>
        split at stepped
        next => cases stepped
        next =>
          cases stepped
          rw [isPhase] at lost sound
          apply steady.rephase
          · rintro ⟨isDead, notReady⟩
            exact lost ⟨isDead, fun isReady => notReady
              (Transport.transportReady_receive isReady message)⟩
          · exact sound
      next => cases stepped
  | report =>
      simp only [RouteRun.step] at stepped
      split at stepped
      next candidate callback isPhase =>
        split at stepped
        next marks =>
          cases stepped
          rw [Bool.and_eq_true] at marks
          have acknowledged : state.gapId.isSome → candidate.Acknowledged := by
            intro isOpen
            have live := keeps isOpen
            rw [isPhase] at live
            exact live
          exact steady.report isPhase marks.1 acknowledged
        next => cases stepped
      next alive candidate isPhase =>
        split at stepped
        next marks =>
          cases stepped
          rw [Bool.and_eq_true] at marks
          rw [isPhase] at sound
          apply steady.rephase
          · exact fun isLost => absurd marks.1 isLost.2
          · exact sound
        next => cases stepped
      next => cases stepped
  | ready =>
      simp only [RouteRun.step] at stepped
      split at stepped
      next candidate callback isPhase =>
        split at stepped
        next isReported =>
          cases stepped
          rw [isPhase] at sound
          apply steady.rephase
          · rintro ⟨⟩
          · exact sound.2.1 isReported
        next => cases stepped
      next alive candidate isPhase =>
        split at stepped
        next =>
          cases stepped
          rw [isPhase] at sound
          apply steady.rephase
          · exact fun isLost => absurd rfl isLost.2
          · exact sound
        next => cases stepped
      next => cases stepped
  | startFails error gapId =>
      simp only [RouteRun.step] at stepped
      split at stepped
      next candidate callback isPhase =>
        split at stepped
        next idle =>
          cases stepped
          exact steady.openGap (Option.isNone_iff_eq_none.mp idle) _ gapId
        next isOpen =>
          cases stepped
          exact {
            calls := steady.calls
            lost := fun _ => by
              show state.gapId.isSome
              rw [Option.isSome_iff_ne_none]
              simpa using isOpen
            live := steady.live
            phase := trivial }
      next alive candidate isPhase =>
        cases stepped
        rw [Keeps, isPhase] at keeps
        rw [isPhase] at sound
        apply steady.rephase
        · exact fun isLost => absurd keeps isLost
        · exact sound
      next => cases stepped
  | startRaises =>
      simp only [RouteRun.step] at stepped
      split at stepped
      next =>
        cases stepped
        exact steady.rephase (by rintro ⟨⟩) trivial
      next =>
        cases stepped
        exact steady.rephase (by rintro ⟨⟩) trivial
      next => cases stepped
  | dies =>
      simp only [RouteRun.step] at stepped
      rw [Keeps] at keeps
      split at stepped
      next isPhase =>
        cases stepped
        rw [isPhase] at sound
        exact steady.rephase (by rintro ⟨⟩) sound
      next isPhase =>
        rw [isPhase] at keeps
        cases keeps
      next candidate isPhase =>
        cases stepped
        rw [isPhase] at keeps sound
        apply steady.rephase
        · exact fun isLost => absurd keeps isLost.2
        · exact sound
      next replacementAlive isPhase =>
        cases stepped
        rw [isPhase] at keeps sound
        apply steady.rephase
        · exact fun isLost => absurd keeps isLost.2
        · exact sound
      next isPhase =>
        rw [isPhase] at keeps
        cases keeps
      next => cases stepped
  | replacementDies =>
      simp only [RouteRun.step] at stepped
      rw [Keeps] at keeps
      split at stepped
      next alive isPhase =>
        cases stepped
        rw [isPhase] at keeps sound
        apply steady.rephase
        · exact fun isLost => absurd keeps isLost.1
        · exact sound
      next => cases stepped
  | failed error gapId =>
      simp only [RouteRun.step] at stepped
      split at stepped
      next isPhase =>
        cases stepped
        rw [isPhase] at sound
        exact steady.openGap sound _ gapId
      next => cases stepped
  | reconnect gapId =>
      simp only [RouteRun.step] at stepped
      split at stepped
      next isPhase =>
        cases stepped
        rw [isPhase] at sound
        exact steady.openGap sound _ gapId
      next => cases stepped
  | rotate =>
      simp only [RouteRun.step] at stepped
      split at stepped
      next isPhase =>
        cases stepped
        rw [isPhase] at sound
        apply steady.rephase
        · exact fun isLost => absurd rfl isLost
        · exact sound
      next => cases stepped
  | lock subscriptionId keys =>
      simp only [RouteRun.step] at stepped
      split at stepped
      next alive isPhase =>
        cases stepped
        rw [isPhase] at sound lost
        apply steady.rephase
        · exact fun isLost => lost isLost.1
        · exact sound
      next => cases stepped
  | overlapped =>
      simp only [RouteRun.step] at stepped
      split at stepped
      next alive replacementAlive isPhase =>
        cases stepped
        rw [isPhase] at sound
        exact steady.rephase (by rintro ⟨⟩) sound
      next => cases stepped
  | wake =>
      simp only [RouteRun.step] at stepped
      split at stepped
      next alive isPhase =>
        cases stepped
        rw [isPhase] at sound
        exact steady.rephase (by rintro ⟨⟩) sound
      next => cases stepped
  | stop =>
      cases stepped
      exact steady.rephase (by rintro ⟨⟩) trivial

/-- A step which only changes the phase does not lose the route. -/
theorem Steady.not_lost
    (steady : state.Steady) (idle : state.gapId = none) {phase : RunPhase}
    (bookkept : { state with phase := phase }.Bookkept) :
    ¬ { state with phase := phase }.Lost := by
  intro lost
  rcases bookkept.openWhileLost lost with ⟨gap, isOpen⟩
  rw [steady.calls, idle] at isOpen
  cases Option.some.inj isOpen

/-- A step after which the gaps are kept met the condition. -/
theorem Steady.keeps_of_bookkept
    (steady : state.Steady) {label : RunLabel}
    (stepped : state.step label = some after) (bookkept : after.Bookkept) :
    state.Keeps label := by
  have sound := steady.phase
  unfold PhaseSound at sound
  cases label with
  | dies =>
      simp only [RouteRun.step] at stepped
      rw [Keeps]
      split at stepped
      next isPhase =>
        rw [isPhase]
        trivial
      next isPhase =>
        cases stepped
        rw [isPhase] at sound
        exact absurd Bool.false_ne_true
          (steady.not_lost sound bookkept)
      next candidate isPhase =>
        cases stepped
        rw [isPhase] at sound ⊢
        by_contra early
        exact steady.not_lost sound bookkept ⟨Bool.false_ne_true, early⟩
      next replacementAlive isPhase =>
        cases stepped
        rw [isPhase] at sound ⊢
        by_contra early
        exact steady.not_lost sound bookkept ⟨Bool.false_ne_true, early⟩
      next isPhase =>
        cases stepped
        rw [isPhase] at sound
        exact absurd Bool.false_ne_true
          (steady.not_lost sound bookkept)
      next => cases stepped
  | replacementDies =>
      simp only [RouteRun.step] at stepped
      rw [Keeps]
      split at stepped
      next alive isPhase =>
        cases stepped
        rw [isPhase] at sound ⊢
        by_contra dead
        exact steady.not_lost sound bookkept ⟨dead, Bool.false_ne_true⟩
      next => cases stepped
  | startFails error gapId =>
      simp only [RouteRun.step] at stepped
      rw [Keeps]
      split at stepped
      next candidate callback isPhase =>
        rw [isPhase]
        trivial
      next alive candidate isPhase =>
        cases stepped
        rw [isPhase] at sound ⊢
        by_contra dead
        exact steady.not_lost sound bookkept dead
      next => cases stepped
  | report =>
      intro isOpen
      simp only [RouteRun.step] at stepped
      split at stepped
      next candidate callback isPhase =>
        rw [isPhase] at sound ⊢
        split at stepped
        next =>
          cases stepped
          rcases Option.isSome_iff_exists.mp isOpen with ⟨gapId, isGap⟩
          have live := bookkept.live gapId state.gapReason candidate
          rw [reportTransportReady_of_open isGap (sound.2.2 isOpen)] at live
          exact (live (List.mem_append_right _ List.mem_cons_self)).acknowledged
        next => cases stepped
      next alive candidate isPhase =>
        rw [isPhase]
        trivial
      next => cases stepped
  | start _ _ | receive _ | ready | startRaises | failed _ _ | reconnect _
  | rotate | lock _ _ | overlapped | wake | stop => trivial

theorem steady_start : ({} : RouteRun).Steady where
  calls := rfl
  lost := by
    rintro ⟨⟩
  live := by
    rintro gapId reason transport ⟨⟩
  phase := trivial

/--
In every run of a route its gaps alternate and match, none is open while a
ready connection is current, one is open while the route is lost, and a gap is
closed for an acknowledged connection with an event of every liveness key,
exactly if the connection of a rotation ends late and no rejection counts as
an acknowledgement.  A requested reconnect counts as the loss when it is
requested.
-/
theorem gaps_bookkept_iff
    {labels : List RunLabel} {final : RouteRun}
    (reached : runFrom step {} labels = some final) :
    Throughout step Bookkept {} labels ↔ StepsMeet step Keeps {} labels :=
  throughout_iff_stepsMeet
    (fun _ _ _ steady keeps stepped => steady.step keeps stepped)
    (fun _ steady => steady.bookkept)
    (fun _ _ _ steady stepped bookkept =>
      steady.keeps_of_bookkept stepped bookkept)
    steady_start reached

/-! ## Two runs -/

def subscribed : WebsocketMessage :=
  .control { id := some 1, hasResult := false, hasCode := false }

def firstBookTicker : WebsocketMessage :=
  .data (.bookTicker, "BTCUSDT")

/-- The messages of a connection until it is ready. -/
def becomingReady : List RunLabel :=
  [.receive subscribed, .receive firstBookTicker, .report, .ready]

/--
The first attempt fails, the second one after its gap was closed; the third
connection is replaced and ends when its replacement is transport ready.
-/
def recoveringRun : List RunLabel :=
  [.start 1 [(.bookTicker, "BTCUSDT")], .startFails .lost "gap-0001",
    .start 1 [(.bookTicker, "BTCUSDT")], .receive subscribed,
    .receive firstBookTicker, .report, .startFails .overloaded "gap-0002",
    .start 1 [(.bookTicker, "BTCUSDT")]] ++ becomingReady ++
    [.rotate, .lock 1 [(.bookTicker, "BTCUSDT")]] ++ becomingReady ++
    [.dies, .overlapped, .dies, .failed .lost "gap-0003"]

theorem recoveringRun_runs :
    (runFrom step {} recoveringRun).isSome := by
  decide +kernel

theorem gaps_bookkept_recovering :
    Throughout step Bookkept {} recoveringRun := by
  apply (gaps_bookkept_iff (Option.some_get recoveringRun_runs).symm).mpr
  decide +kernel

/-- The connection ends while the rotation waits for the update lock. -/
def unwatchedRun : List RunLabel :=
  [.start 1 [(.bookTicker, "BTCUSDT")]] ++ becomingReady ++ [.rotate, .dies]

theorem unwatchedRun_runs :
    (runFrom step {} unwatchedRun).map (fun state =>
      (state.phase, state.calls)) = some (.locking false, []) := by
  decide +kernel

/-- The route has lost its connection, and no gap is open. -/
theorem rotation_leaves_route_lost :
    ¬ Throughout step Bookkept {} unwatchedRun := by
  intro visited
  rcases Option.map_eq_some_iff.mp unwatchedRun_runs with
    ⟨final, reached, ended⟩
  rw [Prod.mk.injEq] at ended
  have bookkept := visited _ [] final (List.append_nil _).symm reached
  have lost : final.Lost := by
    rw [Lost, ended.1]
    exact Bool.false_ne_true
  rcases bookkept.openWhileLost lost with ⟨gap, isOpen⟩
  rw [ended.2] at isOpen
  cases isOpen

end RouteRun

end ShadowDataPlane.Edge
