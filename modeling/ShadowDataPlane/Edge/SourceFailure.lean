import ShadowDataPlane.Edge.CrashRecovery
import ShadowDataPlane.Edge.RouteSealing

/-!
# A failed route across two boots

A route whose task ends with an exception is noticed by the next pass of the
storage loop; until then the other tasks of the source group go on.  The service
then opens a gap which starts at that instant, stops, and writes a clean lease,
so that the next boot opens no gap of its own.  The next boot closes what it
found open once its sources are ready.

So the time from the last events of the route to the shutdown is covered by
what the route itself has recorded: a gap which it held when it failed, and
which nobody else of that process closes (`Announced`).  Before the readiness
of a boot a failure ends the process without a clean lease, and the next boot
goes back to the watermark of the lease.

For want of storage a boot does not start its sources, or the storage loop
stops them.  The background tasks run all the same, and when the storage loop
starts the sources again a route may fail before they are ready: that failure
is noticed at once and ends with a clean lease.

The machine follows the gap journal and the streams' last events through such
boots.  What a gap event does to the day index, and the rollover of open gaps at
midnight, are left out: neither changes the instants which a gap covers.
-/

namespace ShadowDataPlane.Edge

open ShadowDataPlane.Contracts
open ShadowDataPlane.Foundation

/-! ## The service -/

/-- A stream of a symbol which a route serves. -/
abbrev ServedStream := String × StreamType

/-- Who may close an open gap. -/
inductive GapOwner where
  /-- A task of the source group. -/
  | task (name : String)
  | service
  /-- Nobody of this process. -/
  | lost
  /--
  It is closed behind a readiness: the boot has found it open, or it is the gap
  of the storage loop.
  -/
  | deferred
deriving DecidableEq

/-- How far the process has come, and which streams it has lost. -/
inductive ServicePhase where
  | down
  | booting
  /-- A route has failed before the readiness of the boot, which ends. -/
  | aborting (failed : List ServedStream)
  /--
  The sources wait for storage, or the storage loop for their readiness, in
  which routes may have failed.
  -/
  | paused (failed : List ServedStream)
  | serving
  /-- The tasks of routes which serve these streams have failed. -/
  | stranded (failed : List ServedStream)
  /-- The service stops, after a failure or on request. -/
  | stopping (failed : List ServedStream)
deriving DecidableEq

namespace ServicePhase

/-- The sources are ready, and the service was not told to stop. -/
def served : ServicePhase → Bool
  | .serving => true
  | .stranded _ => true
  | _ => false

/-- The background tasks of the service run. -/
def background : ServicePhase → Bool
  | .stopping _ | .paused _ => true
  | phase => phase.served

/-- The next boot finds the lease of this one as it is. -/
def leaving : ServicePhase → Bool
  | .down => true
  | .aborting _ => true
  | _ => false

/-- The background tasks of the service do not run yet. -/
def unready : ServicePhase → Bool
  | .booting => true
  | phase => phase.leaving

/-- The streams of the routes which have failed in this boot. -/
def failed : ServicePhase → List ServedStream
  | .aborting failed => failed
  | .paused failed => failed
  | .stranded failed => failed
  | .stopping failed => failed
  | _ => []

/-- The task of a route ends with an exception. -/
def fail (streams : List ServedStream) : ServicePhase → Option ServicePhase
  | .booting => some (.aborting streams)
  | .aborting failed => some (.aborting (failed ++ streams))
  | .paused failed => some (.paused (failed ++ streams))
  | .serving => some (.stranded streams)
  | .stranded failed => some (.stranded (failed ++ streams))
  | _ => none

/-- The spool has reached its hard limit, or a readiness has timed out. -/
def pause : ServicePhase → Option ServicePhase
  | .booting => some (.paused [])
  -- `SourceManager.stop` takes the failure of its tasks along.
  | .paused _ => some (.paused [])
  | .serving => some (.paused [])
  | .stranded _ => some (.paused [])
  | _ => none

end ServicePhase

/-- The last events of failed routes, and when the next boot was ready. -/
structure Outage where
  last : Dict ServedStream Nat
  readyNs : Option Nat
deriving DecidableEq

/-- The process, its files and the clock. -/
structure ServiceState where
  nowNs : Nat
  members : List String
  phase : ServicePhase
  journal : List GapEventV1
  /-- The open gaps. -/
  owners : Dict String GapOwner
  lease : Option LeaseFile
  sealedFloorNs : Nat
  last : Dict ServedStream Nat
  outages : List Outage
deriving DecidableEq

/-- The steps of the process, of its tasks and of the clock. -/
inductive ServiceLabel where
  | advance (elapsedNs : Nat)
  | applyDecision (members : List String)
  | heartbeat (watermarkNs : Nat)
  | recordSealed (boundaryNs : Nat)
  | ingest (stream : ServedStream)
  | openGap (owner : GapOwner) (gapId : String) (affectedFrom : Option Nat)
      (call : GapCall)
  | closeGap (gapId : String) (call : GapCall)
  /-- The task of this name, which serves these streams, raises. -/
  | fail (name : String) (streams : List ServedStream)
  | pause
  | shutdown (gapId : Option String)
  | stop (watermarkNs : Nat)
  /-- The process ends without a clean lease. -/
  | crash
  | boot (gapId : String) (members : List String)
  | ready
deriving DecidableEq

namespace ServiceState

/-- The process is up and its tasks run. -/
def Up (state : ServiceState) : Prop := state.phase ≠ .down

instance (state : ServiceState) : Decidable state.Up :=
  inferInstanceAs (Decidable (_ ≠ _))

/-- `uuid4` does not repeat a gap id. -/
def Fresh (state : ServiceState) (gapId : String) : Prop :=
  ∀ event ∈ state.journal, event.gapId ≠ gapId

instance (state : ServiceState) (gapId : String) :
    Decidable (state.Fresh gapId) :=
  inferInstanceAs (Decidable (∀ event ∈ _, _))

/-- `GapJournal.open`. -/
def openWith (state : ServiceState) (owner : GapOwner) (gapId : String)
    (affectedFrom : Option Nat) (call : GapCall) : Option ServiceState :=
  if state.Fresh gapId then
    (openEvent gapId state.nowNs affectedFrom call).map fun event =>
      { state with
        journal := state.journal ++ [event]
        owners := state.owners.set gapId owner }
  else none

/-- The gap of a stopped collector covers every stream of the members. -/
def stoppedCall (state : ServiceState) : GapCall where
  reason := .collectorStopped
  exchangeSymbols := state.members

/-- Whether a gap of this owner can be closed now. -/
def MayClose (state : ServiceState) : GapOwner → Prop
  | .lost => False
  | .deferred => state.phase.served = true
  | _ => state.Up

instance (state : ServiceState) (owner : GapOwner) :
    Decidable (state.MayClose owner) := by
  cases owner <;> unfold MayClose <;> infer_instance

/-- The gaps of a task which has failed are closed by nobody. -/
def loseTask (state : ServiceState) (name : String) (phase : ServicePhase) :
    ServiceState :=
  { state with
    phase
    owners := state.owners.map fun owner =>
      if owner = .task name then .lost else owner }

/-- The outages, once the process has ended. -/
def endedOutages (state : ServiceState) : List Outage :=
  match state.phase with
  | .aborting failed | .stopping failed =>
      state.outages ++
        [⟨state.last.filterKey fun stream => stream ∈ failed, none⟩]
  | _ => state.outages

end ServiceState

/-- What a boot opens on finding the lease; a clean lease opens nothing. -/
def leaseStartNs (lease : Option LeaseFile) (sealedFloorNs : Nat) :
    Option Nat :=
  match lease with
  | some ⟨.running, affectedFromNs⟩ => some (max affectedFromNs sealedFloorNs)
  | _ => none

/-- One step of the service, its sources or the clock. -/
def serviceStep (state : ServiceState) : ServiceLabel → Option ServiceState
  | .advance elapsedNs => some { state with nowNs := state.nowNs + elapsedNs }
  | .applyDecision members =>
      if state.phase.background then some { state with members } else none
  | .heartbeat watermarkNs =>
      if state.phase.background ∧ watermarkNs ≤ state.nowNs then
        some { state with
          lease := some ⟨.running, max watermarkNs state.sealedFloorNs⟩ }
      else none
  | .recordSealed boundaryNs =>
      if state.phase.background ∧ boundaryNs ≤ state.nowNs then
        some { state with
          sealedFloorNs := max state.sealedFloorNs boundaryNs }
      else none
  | .ingest stream =>
      if state.Up then
        some { state with last := state.last.set stream state.nowNs }
      else none
  | .openGap owner gapId affectedFrom call =>
      if state.Up ∧ owner ≠ .lost ∧
          (owner = .deferred → state.phase.background = true) then
        state.openWith owner gapId affectedFrom call
      else none
  | .closeGap gapId call =>
      match state.owners.get? gapId with
      | none => none
      | some owner =>
          if state.MayClose owner then
            some { state with
              journal := state.journal ++ [closeEvent gapId state.nowNs call]
              owners := state.owners.erase gapId }
          else none
  | .fail name streams =>
      (state.phase.fail streams).map fun phase => state.loseTask name phase
  | .pause => state.phase.pause.map fun phase => { state with phase }
  | .shutdown gapId =>
      match state.phase, gapId with
      | .stranded failed, some gapId =>
          { state with phase := .stopping failed }.openWith
            .lost gapId none state.stoppedCall
      | .serving, some gapId =>
          { state with phase := .stopping [] }.openWith
            .lost gapId none state.stoppedCall
      | .paused failed, some gapId =>
          { state with phase := .stopping failed }.openWith
            .lost gapId none state.stoppedCall
      -- The sources do not run.
      | .paused [], none => some { state with phase := .stopping [] }
      | _, _ => none
  | .stop watermarkNs =>
      match state.phase with
      | .stopping _ =>
          some { state with
            phase := .down
            lease := some ⟨.clean, max watermarkNs state.sealedFloorNs⟩
            outages := state.endedOutages }
      | _ => none
  | .crash => some { state with phase := .down, outages := state.endedOutages }
  | .boot gapId members =>
      match state.phase with
      | .down =>
          let booted := { state with
            members
            phase := .booting
            owners := state.owners.map fun _ => GapOwner.deferred
            lease := some ⟨.running, max state.nowNs state.sealedFloorNs⟩ }
          match leaseStartNs state.lease state.sealedFloorNs with
          | none => some booted
          | some startNs =>
              booted.openWith .deferred gapId (some startNs) booted.stoppedCall
      | _ => none
  | .ready =>
      match state.phase with
      | .booting | .paused [] =>
          some { state with
            phase := .serving
            outages := state.outages.map fun outage =>
              { outage with
                readyNs := some (outage.readyNs.getD state.nowNs) } }
      | _ => none

/-- The collector before its first boot. -/
def firstStart (members : List String) (nowNs : Nat) : ServiceState where
  nowNs
  members
  phase := .down
  journal := []
  owners := Dict.empty
  lease := none
  sealedFloorNs := 0
  last := Dict.empty
  outages := []

/-! ## The property -/

/-- An instant of a stream lies in a gap of the journal. -/
def CoveredAt (journal : List GapEventV1) (stream : ServedStream)
    (instant : Nat) : Prop :=
  ∃ opened ∈ journal, opened.state = .opened ∧
    opened.Relevant stream.1 stream.2 ∧ opened.effectiveNs ≤ instant ∧
    ∀ closed ∈ journal, closed.state = .closed →
      closed.gapId = opened.gapId → instant < closed.observedAtRealtimeNs

/--
The streams of a failed route are covered from their last events until the
next boot is ready.
-/
def OutageCovered (state : ServiceState) : Prop :=
  ∀ outage ∈ state.outages, ∀ readyNs, outage.readyNs = some readyNs →
    ∀ stream lastNs, outage.last.get? stream = some lastNs →
      ∀ instant, lastNs ≤ instant → instant < readyNs →
        CoveredAt state.journal stream instant

/-! ## What a failing route has announced -/

/-- Before the next readiness nobody closes a gap of this owner. -/
def GapOwner.KeptIn (phase : ServicePhase) : GapOwner → Prop
  | .lost => True
  | .deferred => phase.served = false
  | _ => False

instance (phase : ServicePhase) :
    (owner : GapOwner) → Decidable (owner.KeptIn phase)
  | .lost => inferInstanceAs (Decidable True)
  | .deferred => inferInstanceAs (Decidable (phase.served = false))
  | .task _ => inferInstanceAs (Decidable False)
  | .service => inferInstanceAs (Decidable False)

namespace ServiceState

/--
The task holds a gap of the stream which starts no later than its last event,
or there is one which nobody closes.
-/
def Announced (state : ServiceState) (name : String) (stream : ServedStream) :
    Prop :=
  ∃ opened ∈ state.journal, opened.state = .opened ∧
    opened.Relevant stream.1 stream.2 ∧
    (∀ lastNs ∈ state.last.get? stream, opened.effectiveNs ≤ lastNs) ∧
    ∃ owner ∈ state.owners.get? opened.gapId,
      owner = .task name ∨ owner.KeptIn state.phase

instance (state : ServiceState) (name : String) (stream : ServedStream) :
    Decidable (state.Announced name stream) :=
  inferInstanceAs (Decidable (∃ opened ∈ state.journal, _ ∧ _ ∧ _ ∧
    ∃ owner ∈ state.owners.get? opened.gapId, _ ∨ _))

/-- A gap of the stream since this instant which nobody closes. -/
def Holds (state : ServiceState) (stream : ServedStream) (sinceNs : Nat) :
    Prop :=
  ∃ opened ∈ state.journal, opened.state = .opened ∧
    opened.Relevant stream.1 stream.2 ∧ opened.effectiveNs ≤ sinceNs ∧
    ∃ owner ∈ state.owners.get? opened.gapId, owner.KeptIn state.phase

instance (state : ServiceState) (stream : ServedStream) (sinceNs : Nat) :
    Decidable (state.Holds stream sinceNs) :=
  inferInstanceAs (Decidable (∃ opened ∈ state.journal, _ ∧ _ ∧ _ ∧
    ∃ owner ∈ state.owners.get? opened.gapId, _))

/-- The lease of the boot goes back to this instant. -/
def Recovers (state : ServiceState) (sinceNs : Nat) : Prop :=
  ∃ startNs ∈ leaseStartNs state.lease state.sealedFloorNs, startNs ≤ sinceNs

instance (state : ServiceState) (sinceNs : Nat) :
    Decidable (state.Recovers sinceNs) :=
  inferInstanceAs (Decidable (∃ startNs ∈ leaseStartNs _ _, _))

end ServiceState

/--
A route which fails has announced the loss of its streams, or its boot still
waits for the readiness and the lease goes back to their last events; the
symbols of such a boot are members of the next one.
-/
def FailsAnnounced (state : ServiceState) : ServiceLabel → Prop
  | .fail name streams => ∀ stream ∈ streams,
      state.Announced name stream ∨
        state.phase.unready = true ∧
          ∀ lastNs ∈ state.last.get? stream, state.Recovers lastNs
  | .boot _ members => ∀ outage ∈ state.outages, outage.readyNs = none →
      ∀ entry ∈ outage.last.entries,
        state.Holds entry.1 entry.2 ∨ entry.1.1 ∈ members
  | _ => True

instance (state : ServiceState) :
    (label : ServiceLabel) → Decidable (FailsAnnounced state label)
  | .fail name streams => inferInstanceAs (Decidable (∀ stream ∈ streams,
      state.Announced name stream ∨ _ ∧
        ∀ lastNs ∈ state.last.get? stream, state.Recovers lastNs))
  | .boot _ members => inferInstanceAs (Decidable (∀ outage ∈ state.outages,
      outage.readyNs = none → ∀ entry ∈ outage.last.entries,
        state.Holds entry.1 entry.2 ∨ entry.1.1 ∈ members))
  | .advance _ | .applyDecision _ | .heartbeat _ | .recordSealed _ | .ingest _
  | .openGap _ _ _ _ | .closeGap _ _ | .pause | .shutdown _ | .stop _ | .crash
  | .ready => inferInstanceAs (Decidable True)

/-! ## Coverage as the journal grows -/

section Coverage

variable {journal : List GapEventV1} {stream : ServedStream}
  {instant : Nat}

/-- Opening a gap uncovers nothing. -/
theorem CoveredAt.concat_opened
    (covered : CoveredAt journal stream instant) {event : GapEventV1}
    (isOpened : event.state = .opened) :
    CoveredAt (journal ++ [event]) stream instant := by
  rcases covered with ⟨opened, member, state, relevant, started, unclosed⟩
  refine ⟨opened, List.mem_append_left _ member, state, relevant, started, ?_⟩
  intro closed inJournal isClosed same
  rcases List.mem_append.mp inJournal with earlier | last
  · exact unclosed closed earlier isClosed same
  · rw [List.mem_singleton.mp last, isOpened] at isClosed
    cases isClosed

/-- Closing a gap uncovers nothing before that instant. -/
theorem CoveredAt.concat_closed
    (covered : CoveredAt journal stream instant) {event : GapEventV1}
    (later : instant < event.observedAtRealtimeNs) :
    CoveredAt (journal ++ [event]) stream instant := by
  rcases covered with ⟨opened, member, state, relevant, started, unclosed⟩
  refine ⟨opened, List.mem_append_left _ member, state, relevant, started, ?_⟩
  intro closed inJournal isClosed same
  rcases List.mem_append.mp inJournal with earlier | last
  · exact unclosed closed earlier isClosed same
  · rw [List.mem_singleton.mp last]
    exact later

end Coverage

/-! ## The invariant -/

namespace ServiceState

/--
The streams which failed routes left behind, with their last events; while the
process is up, a last event of this instant is allowed for.
-/
def Left (state : ServiceState) (stream : ServedStream) (lastNs : Nat) : Prop :=
  (stream ∈ state.phase.failed ∧
      (state.nowNs ≤ lastNs ∨ state.last.get? stream = some lastNs)) ∨
    ∃ outage ∈ state.outages, outage.readyNs = none ∧
      outage.last.get? stream = some lastNs

/-- A stream stays covered since this instant, or the next boot covers it. -/
def Held (state : ServiceState) (stream : ServedStream) (sinceNs : Nat) : Prop :=
  state.Holds stream sinceNs ∨
    state.phase.leaving = true ∧ state.Recovers sinceNs

/-- No open gap has been closed. -/
def Unclosed (state : ServiceState) : Prop :=
  ∀ gapId, (state.owners.get? gapId).isSome →
    ∀ closed ∈ state.journal, closed.state = .closed → closed.gapId ≠ gapId

end ServiceState

/-- What holds between any two steps. -/
structure ServiceSound (state : ServiceState) : Prop where
  unclosed : state.Unclosed
  held : ∀ stream lastNs, state.Left stream lastNs →
    state.Held stream lastNs
  past : ∀ outage ∈ state.outages, ∀ readyNs,
    outage.readyNs = some readyNs → readyNs ≤ state.nowNs
  observed : ∀ event ∈ state.journal,
    event.observedAtRealtimeNs ≤ state.nowNs
  leased : ∀ startNs ∈ leaseStartNs state.lease state.sealedFloorNs,
    startNs ≤ state.nowNs
  running : state.Up → state.phase.unready = true →
    (leaseStartNs state.lease state.sealedFloorNs).isSome
  floor : state.sealedFloorNs ≤ state.nowNs
  covered : OutageCovered state

namespace ServicePhase

variable {phase next : ServicePhase} {streams : List ServedStream}

theorem unready_of_leaving (leaving : phase.leaving = true) :
    phase.unready = true := by
  cases phase <;> first | rfl | exact leaving

theorem not_leaving_of_background (background : phase.background = true) :
    phase.leaving = false := by
  cases phase <;> first | rfl | cases background

theorem not_unready_of_background (background : phase.background = true) :
    phase.unready = false := by
  cases phase <;> first | rfl | cases background

/-- A failure while the boot waits for the readiness ends the boot. -/
theorem fail_eq_some (failed : phase.fail streams = some next) :
    next.failed = phase.failed ++ streams ∧ next.served = phase.served ∧
      next.unready = phase.unready ∧ next.leaving = phase.unready ∧
      phase ≠ .down := by
  cases phase with
  | down => cases failed
  | stopping others => cases failed
  | booting | aborting others | paused others | serving | stranded others =>
      cases failed
      simp [ServicePhase.failed, served, unready, leaving]

theorem pause_eq_some (paused : phase.pause = some next) :
    next = .paused [] ∧ phase.leaving = false := by
  cases phase with
  | down => cases paused
  | aborting others => cases paused
  | stopping others => cases paused
  | booting | paused others | serving | stranded others =>
      cases paused
      exact ⟨rfl, rfl⟩

end ServicePhase

theorem GapOwner.KeptIn.mono
    {before after : ServicePhase} {owner : GapOwner}
    (kept : owner.KeptIn before)
    (served : before.served = false → after.served = false) :
    owner.KeptIn after := by
  cases owner with
  | lost => trivial
  | deferred => exact served kept
  | task name => exact kept
  | service => exact kept

namespace ServiceState

variable {state after : ServiceState} {stream : ServedStream} {lastNs : Nat}

theorem openWith_eq_some
    {owner : GapOwner} {gapId : String} {affectedFrom : Option Nat}
    {call : GapCall}
    (opened : state.openWith owner gapId affectedFrom call = some after) :
    state.Fresh gapId ∧ ∃ event,
      openEvent gapId state.nowNs affectedFrom call = some event ∧
        after = { state with
          journal := state.journal ++ [event]
          owners := state.owners.set gapId owner } := by
  rw [openWith] at opened
  split at opened
  next fresh =>
    rcases Option.map_eq_some_iff.mp opened with ⟨event, built, rfl⟩
    exact ⟨fresh, event, built, rfl⟩
  next => cases opened

theorem openEvent_concerns
    {gapId : String} {nowNs : Nat} {affectedFrom : Option Nat}
    {call : GapCall} {event : GapEventV1}
    (built : openEvent gapId nowNs affectedFrom call = some event) :
    event.exchangeSymbols = call.exchangeSymbols ∧
      event.streamTypes = call.streamTypes := by
  rw [openEvent] at built
  split at built
  · cases built
    exact ⟨rfl, rfl⟩
  · cases built

/-- A step at one instant which uncovers nothing. -/
structure Spares (before after : ServiceState) : Prop where
  now : after.nowNs = before.nowNs
  covers : ∀ stream instant, instant < before.nowNs →
    CoveredAt before.journal stream instant →
      CoveredAt after.journal stream instant

theorem spares_openWith
    {owner : GapOwner} {gapId : String} {affectedFrom : Option Nat}
    {call : GapCall}
    (opened : state.openWith owner gapId affectedFrom call = some after) :
    Spares state after := by
  rcases openWith_eq_some opened with ⟨_, event, built, rfl⟩
  exact ⟨rfl, fun _ _ _ covered =>
    covered.concat_opened (openEvent_eq_some built).2.1⟩

/-- The gaps which nobody closes stay so. -/
structure Keeps (before after : ServiceState) : Prop where
  journal : ∀ event ∈ before.journal, event ∈ after.journal
  owners : ∀ event ∈ before.journal,
    ∀ owner ∈ before.owners.get? event.gapId, owner.KeptIn before.phase →
      ∃ other ∈ after.owners.get? event.gapId, other.KeptIn after.phase

theorem Keeps.holds
    (keeps : Keeps state after) (holds : state.Holds stream lastNs) :
    after.Holds stream lastNs := by
  rcases holds with
    ⟨opened, member, isOpened, relevant, started, owner, owned, kept⟩
  exact ⟨opened, keeps.journal opened member, isOpened, relevant, started,
    keeps.owners opened member owner owned kept⟩

theorem keeps_openWith
    {owner : GapOwner} {gapId : String} {affectedFrom : Option Nat}
    {call : GapCall}
    (opened : state.openWith owner gapId affectedFrom call = some after) :
    Keeps state after := by
  rcases openWith_eq_some opened with ⟨fresh, event, _, rfl⟩
  constructor
  · exact fun _ member => List.mem_append_left _ member
  · intro earlier member other owned kept
    refine ⟨other, ?_, kept⟩
    rw [Option.mem_def, Dict.get?_set, if_neg (fresh earlier member)]
    exact owned

/-- The event which `openWith` publishes holds a stream if it is kept. -/
theorem holds_opened
    {owner : GapOwner} {gapId : String} {affectedFrom : Option Nat}
    {call : GapCall}
    (opened : state.openWith owner gapId affectedFrom call = some after)
    (kept : owner.KeptIn state.phase)
    (relevant : stream.1 ∈ call.exchangeSymbols ∧ call.streamTypes = [])
    (started : ∃ startNs ∈ affectedFrom, startNs ≤ lastNs) :
    after.Holds stream lastNs := by
  rcases openWith_eq_some opened with ⟨_, event, built, rfl⟩
  rcases openEvent_eq_some built with ⟨isId, isOpened, _, affected⟩
  rcases openEvent_concerns built with ⟨symbols, streams⟩
  rcases started with ⟨startNs, isStart, early⟩
  refine ⟨event, List.mem_append_right _ List.mem_cons_self, isOpened,
    ⟨Or.inr (symbols ▸ relevant.1), Or.inl (streams.trans relevant.2)⟩, ?_,
    owner, ?_, kept⟩
  · rw [Option.mem_def.mp isStart] at affected
    simp only [GapEventV1.effectiveNs, isOpened, affected]
    exact early
  · rw [Option.mem_def, isId]
    exact Dict.get?_set_self _ _ _

theorem Unclosed.openWith
    (unclosed : state.Unclosed) {owner : GapOwner} {gapId : String}
    {affectedFrom : Option Nat} {call : GapCall}
    (opened : state.openWith owner gapId affectedFrom call = some after) :
    after.Unclosed := by
  rcases openWith_eq_some opened with ⟨fresh, event, built, rfl⟩
  intro other isOpen closed inJournal isClosed
  rcases List.mem_append.mp inJournal with earlier | last
  · rw [Dict.get?_set] at isOpen
    split at isOpen
    next same => exact same ▸ fresh closed earlier
    next => exact unclosed other isOpen closed earlier isClosed
  · rw [List.mem_singleton.mp last,
      (openEvent_eq_some built).2.1] at isClosed
    cases isClosed

theorem spares_closeGap
    (gapId : String) (call : GapCall) (owners : Dict String GapOwner) :
    Spares state { state with
      journal := state.journal ++ [closeEvent gapId state.nowNs call]
      owners } :=
  ⟨rfl, fun _ _ earlier covered => covered.concat_closed earlier⟩

/-- Whoever may close a gap is not one whose gaps are kept. -/
theorem not_kept_of_mayClose
    {owner : GapOwner} (mayClose : state.MayClose owner) :
    ¬ owner.KeptIn state.phase := by
  intro kept
  cases owner with
  | lost => exact mayClose
  | deferred =>
      have isServed : state.phase.served = true := mayClose
      have unserved : state.phase.served = false := kept
      rw [unserved] at isServed
      cases isServed
  | task name => exact kept
  | service => exact kept

end ServiceState

namespace ServiceSound

variable {state after : ServiceState}

theorem outageCovered
    (sound : ServiceSound state) (spares : state.Spares after)
    (outages : after.outages = state.outages) : OutageCovered after := by
  intro outage isOutage readyNs isReady stream lastNs bound instant since before
  rw [outages] at isOutage
  have early := sound.past outage isOutage readyNs isReady
  exact spares.covers stream instant (Nat.lt_of_lt_of_le before early)
    (sound.covered outage isOutage readyNs isReady stream lastNs bound instant
      since before)

/-- A gap is opened and the service stays in its phase. -/
theorem openWith
    (sound : ServiceSound state) {owner : GapOwner} {gapId : String}
    {affectedFrom : Option Nat} {call : GapCall}
    (opened : state.openWith owner gapId affectedFrom call = some after) :
    ServiceSound after := by
  have keeps := ServiceState.keeps_openWith opened
  have spares := ServiceState.spares_openWith opened
  have unclosed := sound.unclosed.openWith opened
  rcases ServiceState.openWith_eq_some opened with ⟨_, event, built, rfl⟩
  exact {
    unclosed := unclosed
    held := fun stream lastNs left =>
      (sound.held stream lastNs left).imp_left keeps.holds
    past := sound.past
    observed := by
      intro other member
      rcases List.mem_append.mp member with earlier | last
      · exact sound.observed other earlier
      · rw [List.mem_singleton.mp last, (openEvent_eq_some built).2.2.1]
    leased := sound.leased
    running := sound.running
    floor := sound.floor
    covered := sound.outageCovered spares rfl }

theorem closeGap
    (sound : ServiceSound state) {gapId : String} {owner : GapOwner}
    (call : GapCall) (owned : state.owners.get? gapId = some owner)
    (mayClose : state.MayClose owner) :
    ServiceSound { state with
      journal := state.journal ++ [closeEvent gapId state.nowNs call]
      owners := state.owners.erase gapId } := by
  have keeps : state.Keeps { state with
      journal := state.journal ++ [closeEvent gapId state.nowNs call]
      owners := state.owners.erase gapId } := by
    constructor
    · exact fun _ member => List.mem_append_left _ member
    · intro event member other isOwner kept
      have different : event.gapId ≠ gapId := by
        intro same
        rw [Option.mem_def, same, owned] at isOwner
        rw [← Option.some.inj isOwner] at kept
        exact ServiceState.not_kept_of_mayClose mayClose kept
      refine ⟨other, ?_, kept⟩
      rw [Option.mem_def, Dict.get?_erase, if_neg different]
      exact isOwner
  exact {
    unclosed := by
      intro other isOpen closed inJournal isClosed
      rw [Dict.get?_erase] at isOpen
      split at isOpen
      next => cases isOpen
      next different =>
        rcases List.mem_append.mp inJournal with earlier | last
        · exact sound.unclosed other isOpen closed earlier isClosed
        · rw [List.mem_singleton.mp last]
          exact Ne.symm different
    held := fun stream lastNs left =>
      (sound.held stream lastNs left).imp_left keeps.holds
    past := sound.past
    observed := by
      intro other member
      rcases List.mem_append.mp member with earlier | last
      · exact sound.observed other earlier
      · rw [List.mem_singleton.mp last]
        exact Nat.le_refl _
    leased := sound.leased
    running := sound.running
    floor := sound.floor
    covered :=
      sound.outageCovered (ServiceState.spares_closeGap gapId call _) rfl }

theorem advance (sound : ServiceSound state) (elapsedNs : Nat) :
    ServiceSound { state with nowNs := state.nowNs + elapsedNs } where
  unclosed := sound.unclosed
  held stream lastNs isLeft := by
    apply sound.held stream lastNs
    rcases isLeft with ⟨failed, now | isLast⟩ | outage
    · exact Or.inl ⟨failed,
        Or.inl (Nat.le_trans (Nat.le_add_right _ _) now)⟩
    · exact Or.inl ⟨failed, Or.inr isLast⟩
    · exact Or.inr outage
  past outage isOutage readyNs isReady :=
    Nat.le_trans (sound.past outage isOutage readyNs isReady)
      (Nat.le_add_right _ _)
  observed event member :=
    Nat.le_trans (sound.observed event member) (Nat.le_add_right _ _)
  leased startNs isStart :=
    Nat.le_trans (sound.leased startNs isStart) (Nat.le_add_right _ _)
  running := sound.running
  floor := Nat.le_trans sound.floor (Nat.le_add_right _ _)
  covered := sound.covered

theorem ingest (sound : ServiceSound state) (stream : ServedStream) :
    ServiceSound { state with last := state.last.set stream state.nowNs } where
  unclosed := sound.unclosed
  held other lastNs isLeft := by
    apply sound.held other lastNs
    rcases isLeft with ⟨failed, now | isLast⟩ | outage
    · exact Or.inl ⟨failed, Or.inl now⟩
    · rw [Dict.get?_set] at isLast
      split at isLast
      next =>
        cases isLast
        exact Or.inl ⟨failed, Or.inl (Nat.le_refl _)⟩
      next => exact Or.inl ⟨failed, Or.inr isLast⟩
    · exact Or.inr outage
  past := sound.past
  observed := sound.observed
  leased := sound.leased
  running := sound.running
  floor := sound.floor
  covered := sound.covered

/-- While the process goes on, the lease recovers nothing. -/
theorem holds_of_not_leaving
    (sound : ServiceSound state) (goesOn : state.phase.leaving = false)
    {stream : ServedStream} {lastNs : Nat}
    (left : state.Left stream lastNs) : state.Holds stream lastNs := by
  rcases sound.held stream lastNs left with holds | ⟨leaving, _⟩
  · exact holds
  · rw [goesOn] at leaving
    cases leaving

/-- The lease and the floor change only while the background tasks run. -/
theorem relet
    (sound : ServiceSound state) (background : state.phase.background = true)
    {lease : Option LeaseFile} {sealedFloorNs : Nat}
    (leased : ∀ startNs ∈ leaseStartNs lease sealedFloorNs,
      startNs ≤ state.nowNs)
    (floor : sealedFloorNs ≤ state.nowNs) :
    ServiceSound { state with lease, sealedFloorNs } where
  unclosed := sound.unclosed
  held stream lastNs left :=
    Or.inl (sound.holds_of_not_leaving
      (ServicePhase.not_leaving_of_background background) left)
  past := sound.past
  observed := sound.observed
  leased := leased
  running _ unready := by
    have isUnready : state.phase.unready = true := unready
    rw [ServicePhase.not_unready_of_background background] at isUnready
    cases isUnready
  floor := floor
  covered := sound.covered

/-- The background tasks enter a phase in which no other route has failed. -/
theorem rephase
    (sound : ServiceSound state) (goesOn : state.phase.leaving = false)
    {phase : ServicePhase} (background : phase.background = true)
    (served : state.phase.served = false → phase.served = false)
    (failed : ∀ stream ∈ phase.failed, stream ∈ state.phase.failed) :
    ServiceSound { state with phase } where
  unclosed := sound.unclosed
  held stream lastNs isLeft := by
    have left : state.Left stream lastNs :=
      isLeft.imp_left fun ⟨isFailed, isLast⟩ => ⟨failed stream isFailed, isLast⟩
    rcases sound.holds_of_not_leaving goesOn left with
      ⟨opened, member, isOpened, relevant, started, owner, owned, kept⟩
    exact Or.inl ⟨opened, member, isOpened, relevant, started, owner, owned,
      kept.mono served⟩
  past := sound.past
  observed := sound.observed
  leased := sound.leased
  running _ unready := by
    have isUnready : phase.unready = true := unready
    rw [ServicePhase.not_unready_of_background background] at isUnready
    cases isUnready
  floor := sound.floor
  covered := sound.covered

/-- What a failing task held is closed by nobody. -/
theorem keeps_loseTask
    {name : String} {phase : ServicePhase}
    (served : state.phase.served = false → phase.served = false) :
    state.Keeps (state.loseTask name phase) := by
  constructor
  · exact fun _ member => member
  · intro event _ owner owned kept
    refine ⟨owner, ?_, kept.mono served⟩
    rw [Option.mem_def, ServiceState.loseTask, Dict.get?_map,
      Option.mem_def.mp owned, Option.map_some, if_neg]
    rintro rfl
    exact kept

theorem fail
    (sound : ServiceSound state) {name : String} {streams : List ServedStream}
    {phase : ServicePhase} (failed : state.phase.fail streams = some phase)
    (announced : FailsAnnounced state (.fail name streams)) :
    ServiceSound (state.loseTask name phase) := by
  rcases ServicePhase.fail_eq_some failed with
    ⟨isFailed, served, unready, leaving, isUp⟩
  have keeps : state.Keeps (state.loseTask name phase) :=
    keeps_loseTask fun before => served.trans before
  have goesOn : ∀ stream lastNs, state.Left stream lastNs →
      (state.loseTask name phase).Held stream lastNs := by
    intro stream lastNs left
    rcases sound.held stream lastNs left with holds | ⟨before, recovers⟩
    · exact Or.inl (keeps.holds holds)
    · exact Or.inr
        ⟨leaving.trans (ServicePhase.unready_of_leaving before), recovers⟩
  exact {
    unclosed := by
      intro gapId isOpen
      rw [ServiceState.loseTask, Dict.get?_map, Option.isSome_map] at isOpen
      exact sound.unclosed gapId isOpen
    held := by
      rintro stream lastNs (⟨member, isLast⟩ | outage)
      · have inFailed : stream ∈ phase.failed := member
        rw [isFailed] at inFailed
        rcases List.mem_append.mp inFailed with old | new
        · exact goesOn stream lastNs (Or.inl ⟨old, isLast⟩)
        rcases announced stream new with
          ⟨opened, inJournal, isOpened, relevant, started, owner, owned, kept⟩ |
            ⟨isUnready, recovers⟩
        · left
          refine ⟨opened, inJournal, isOpened, relevant, ?_, ?_⟩
          · rcases isLast with now | isLast
            · exact (opened.effectiveNs_le_observed.trans
                (sound.observed opened inJournal)).trans now
            · exact started lastNs isLast
          · rcases kept with rfl | kept
            · refine ⟨.lost, ?_, trivial⟩
              rw [Option.mem_def, ServiceState.loseTask, Dict.get?_map,
                Option.mem_def.mp owned, Option.map_some, if_pos rfl]
            · exact keeps.owners opened inJournal owner owned kept
        · right
          refine ⟨leaving.trans isUnready, ?_⟩
          rcases isLast with now | isLast
          · rcases Option.isSome_iff_exists.mp (sound.running isUp isUnready)
              with ⟨startNs, isStart⟩
            exact ⟨startNs, isStart, (sound.leased startNs isStart).trans now⟩
          · exact recovers lastNs isLast
      · exact goesOn stream lastNs (Or.inr outage)
    past := sound.past
    observed := sound.observed
    leased := sound.leased
    running := fun _ isUnready =>
      sound.running isUp (unready.symm.trans isUnready)
    floor := sound.floor
    covered := sound.covered }

/-- The process ends and leaves the outage behind. -/
theorem ended
    (sound : ServiceSound state) {lease : Option LeaseFile}
    (left : state.phase.leaving = true → lease = state.lease)
    (leased : ∀ startNs ∈ leaseStartNs lease state.sealedFloorNs,
      startNs ≤ state.nowNs) :
    ServiceSound { state with
      phase := .down
      lease
      outages := state.endedOutages } := by
  have origin : ∀ outage ∈ state.endedOutages, outage ∈ state.outages ∨
      outage = ⟨state.last.filterKey fun stream =>
        stream ∈ state.phase.failed, none⟩ := by
    intro outage isOutage
    rw [ServiceState.endedOutages] at isOutage
    split at isOutage
    next failed isPhase =>
      rw [isPhase]
      exact (List.mem_append.mp isOutage).imp_right List.mem_singleton.mp
    next failed isPhase =>
      rw [isPhase]
      exact (List.mem_append.mp isOutage).imp_right List.mem_singleton.mp
    next => exact Or.inl isOutage
  exact {
    unclosed := sound.unclosed
    held := by
      rintro stream lastNs (⟨⟨⟩, _⟩ | ⟨outage, isOutage, isUnready, bound⟩)
      have isLeft : state.Left stream lastNs := by
        rcases origin outage isOutage with old | rfl
        · exact Or.inr ⟨outage, old, isUnready, bound⟩
        · rw [Dict.get?_filterKey] at bound
          split at bound
          next member =>
            exact Or.inl ⟨of_decide_eq_true member, Or.inr bound⟩
          next => cases bound
      rcases sound.held stream lastNs isLeft with
        ⟨opened, member, isOpened, relevant, started, owner, owned, kept⟩ |
          ⟨leaving, recovers⟩
      · exact Or.inl ⟨opened, member, isOpened, relevant, started, owner, owned,
          kept.mono fun _ => rfl⟩
      · refine Or.inr ⟨rfl, ?_⟩
        rw [left leaving]
        exact recovers
    past := by
      intro outage isOutage readyNs isReady
      rcases origin outage isOutage with old | rfl
      · exact sound.past outage old readyNs isReady
      · cases isReady
    observed := sound.observed
    leased := leased
    running := fun isUp => absurd rfl isUp
    floor := sound.floor
    covered := by
      intro outage isOutage readyNs isReady
      rcases origin outage isOutage with old | rfl
      · exact sound.covered outage old readyNs isReady
      · cases isReady }

/-- A boot takes the open gaps over, and goes back to the lease. -/
theorem boot
    (sound : ServiceSound state) {gapId : String} {members : List String}
    (remembered : FailsAnnounced state (.boot gapId members))
    (stepped : serviceStep state (.boot gapId members) = some after) :
    ServiceSound after := by
  simp only [serviceStep] at stepped
  split at stepped
  next isDown =>
    set booted : ServiceState := { state with
      members
      phase := .booting
      owners := state.owners.map fun _ => GapOwner.deferred
      lease := some ⟨.running, max state.nowNs state.sealedFloorNs⟩ }
      with isBooted
    have keeps : state.Keeps booted := by
      constructor
      · exact fun _ member => member
      · intro event _ owner owned _
        refine ⟨.deferred, ?_, rfl⟩
        rw [Option.mem_def, isBooted, Dict.get?_map, Option.mem_def.mp owned]
        rfl
    have unclosed : booted.Unclosed := by
      intro other isOpen
      rw [isBooted, Dict.get?_map, Option.isSome_map] at isOpen
      exact sound.unclosed other isOpen
    have leased : ∀ startNs ∈ leaseStartNs booted.lease booted.sealedFloorNs,
        startNs ≤ booted.nowNs := by
      rintro startNs ⟨⟩
      exact Nat.max_le.mpr
        ⟨Nat.max_le.mpr ⟨Nat.le_refl _, sound.floor⟩, sound.floor⟩
    have wasLeft : ∀ stream lastNs, booted.Left stream lastNs →
        state.Left stream lastNs := by
      rintro stream lastNs (⟨⟨⟩, _⟩ | outage)
      exact Or.inr outage
    cases found : leaseStartNs state.lease state.sealedFloorNs with
    | none =>
        rw [found] at stepped
        rw [← Option.some.inj stepped]
        exact {
          unclosed := unclosed
          held := by
            intro stream lastNs isLeft
            rcases sound.held stream lastNs (wasLeft stream lastNs isLeft) with
              holds | ⟨_, startNs, isStart, _⟩
            · exact Or.inl (keeps.holds holds)
            · rw [found] at isStart
              cases isStart
          past := sound.past
          observed := sound.observed
          leased := leased
          running := fun _ _ => rfl
          floor := sound.floor
          covered := sound.covered }
    | some startNs =>
        rw [found] at stepped
        have opens := ServiceState.keeps_openWith stepped
        have spares := ServiceState.spares_openWith stepped
        have stillUnclosed := unclosed.openWith stepped
        have holds : ∀ stream lastNs, state.Left stream lastNs →
            after.Holds stream lastNs := by
          intro stream lastNs isLeft
          rcases sound.held stream lastNs isLeft with
            holds | ⟨_, earliest, isStart, early⟩
          · exact opens.holds (keeps.holds holds)
          rcases isLeft with ⟨member, _⟩ |
            ⟨outage, isOutage, isUnready, bound⟩
          · rw [isDown] at member
            cases member
          rcases remembered outage isOutage isUnready (stream, lastNs)
              ((Dict.mem_entries_iff _).mpr bound) with holds | isMember
          · exact opens.holds (keeps.holds holds)
          · rw [found] at isStart
            exact ServiceState.holds_opened stepped rfl ⟨isMember, rfl⟩
              ⟨earliest, isStart, early⟩
        rcases ServiceState.openWith_eq_some stepped with
          ⟨_, event, built, rfl⟩
        exact {
          unclosed := stillUnclosed
          held := fun stream lastNs isLeft =>
            Or.inl (holds stream lastNs (wasLeft stream lastNs isLeft))
          past := sound.past
          observed := by
            intro other member
            rcases List.mem_append.mp member with earlier | last
            · exact sound.observed other earlier
            · rw [List.mem_singleton.mp last, (openEvent_eq_some built).2.2.1]
          leased := leased
          running := fun _ _ => rfl
          floor := sound.floor
          covered := by
            intro outage isOutage readyNs isReady stream lastNs bound instant
              since before
            have early := sound.past outage isOutage readyNs isReady
            exact spares.covers stream instant
              (Nat.lt_of_lt_of_le before early)
              (sound.covered outage isOutage readyNs isReady stream lastNs bound
                instant since before) }
  next => cases stepped

/-- What the outages left is covered until the sources are ready. -/
theorem ready
    (sound : ServiceSound state) (goesOn : state.phase.leaving = false) :
    ServiceSound { state with
      phase := .serving
      outages := state.outages.map fun outage =>
        { outage with
          readyNs := some (outage.readyNs.getD state.nowNs) } } where
  unclosed := sound.unclosed
  held stream lastNs left := by
    rcases left with ⟨⟨⟩, _⟩ | ⟨outage, isOutage, unready, _⟩
    rcases List.mem_map.mp isOutage with ⟨earlier, _, rfl⟩
    cases unready
  past outage isOutage readyNs isReady := by
    rcases List.mem_map.mp isOutage with ⟨earlier, member, rfl⟩
    cases isReady
    cases known : earlier.readyNs with
    | none => exact Nat.le_refl _
    | some early => exact sound.past earlier member early known
  observed := sound.observed
  leased := sound.leased
  running := by
    rintro _ ⟨⟩
  floor := sound.floor
  covered outage isOutage readyNs isReady stream lastNs bound := by
    rcases List.mem_map.mp isOutage with ⟨earlier, member, rfl⟩
    cases isReady
    cases known : earlier.readyNs with
    | some early =>
        exact sound.covered earlier member early known stream lastNs bound
    | none =>
        intro instant since _
        have left : state.Left stream lastNs :=
          Or.inr ⟨earlier, member, known, bound⟩
        rcases sound.holds_of_not_leaving goesOn left with
          ⟨opened, inJournal, isOpened, relevant, started, owner, owned, _⟩
        refine ⟨opened, inJournal, isOpened, relevant,
          started.trans since, ?_⟩
        intro closed isEvent isClosed same
        have isOpen : (state.owners.get? opened.gapId).isSome := by
          rw [Option.mem_def.mp owned]
          rfl
        exact absurd same
          (sound.unclosed opened.gapId isOpen closed isEvent isClosed)

theorem step
    (sound : ServiceSound state) {label : ServiceLabel}
    (announced : FailsAnnounced state label)
    (stepped : serviceStep state label = some after) :
    ServiceSound after := by
  cases label with
  | advance elapsedNs =>
      cases stepped
      exact sound.advance elapsedNs
  | applyDecision members =>
      simp only [serviceStep] at stepped
      split at stepped
      · cases stepped
        exact ⟨sound.unclosed, sound.held, sound.past, sound.observed,
          sound.leased, sound.running, sound.floor, sound.covered⟩
      · cases stepped
  | heartbeat watermarkNs =>
      simp only [serviceStep] at stepped
      split at stepped
      next allowed =>
        cases stepped
        apply sound.relet allowed.1 ?_ sound.floor
        rintro startNs ⟨⟩
        exact Nat.max_le.mpr
          ⟨Nat.max_le.mpr ⟨allowed.2, sound.floor⟩, sound.floor⟩
      next => cases stepped
  | recordSealed boundaryNs =>
      simp only [serviceStep] at stepped
      split at stepped
      next allowed =>
        cases stepped
        have floor := Nat.max_le.mpr ⟨sound.floor, allowed.2⟩
        apply sound.relet allowed.1 ?_ floor
        intro startNs isStart
        unfold leaseStartNs at isStart
        split at isStart
        next affectedFromNs isLease =>
          cases isStart
          have leased := sound.leased
          rw [isLease] at leased
          have affected := leased _ rfl
          exact Nat.max_le.mpr ⟨(Nat.le_max_left _ _).trans affected, floor⟩
        next => cases isStart
      next => cases stepped
  | ingest stream =>
      simp only [serviceStep] at stepped
      split at stepped
      · cases stepped
        exact sound.ingest stream
      · cases stepped
  | openGap owner gapId affectedFrom call =>
      simp only [serviceStep] at stepped
      split at stepped
      · exact sound.openWith stepped
      · cases stepped
  | closeGap gapId call =>
      simp only [serviceStep] at stepped
      split at stepped
      next => cases stepped
      next owner owned =>
        split at stepped
        next mayClose =>
          cases stepped
          exact sound.closeGap call owned mayClose
        next => cases stepped
  | fail name streams =>
      rcases Option.map_eq_some_iff.mp stepped with ⟨phase, failed, rfl⟩
      exact sound.fail failed announced
  | pause =>
      rcases Option.map_eq_some_iff.mp stepped with ⟨phase, paused, rfl⟩
      rcases ServicePhase.pause_eq_some paused with ⟨rfl, goesOn⟩
      exact sound.rephase goesOn rfl (fun _ => rfl) (by rintro stream ⟨⟩)
  | shutdown gapId =>
      have stopping (failed : List ServedStream)
          (background : state.phase.background = true)
          (known : ∀ stream ∈ failed, stream ∈ state.phase.failed) :
          ServiceSound { state with phase := .stopping failed } :=
        sound.rephase (ServicePhase.not_leaving_of_background background) rfl
          (fun _ => rfl) known
      simp only [serviceStep] at stepped
      split at stepped
      next failed gapId stranded =>
        exact (stopping failed (by rw [stranded]; rfl) (by
          rw [stranded]
          exact fun _ member => member)).openWith stepped
      next gapId serving =>
        exact (stopping [] (by rw [serving]; rfl)
          (by rintro stream ⟨⟩)).openWith stepped
      next failed gapId paused =>
        exact (stopping failed (by rw [paused]; rfl) (by
          rw [paused]
          exact fun _ member => member)).openWith stepped
      next paused =>
        cases stepped
        exact stopping [] (by rw [paused]; rfl) (by rintro stream ⟨⟩)
      next => cases stepped
  | stop watermarkNs =>
      simp only [serviceStep] at stepped
      split at stepped
      next failed stopping =>
        cases stepped
        apply sound.ended
        · rw [stopping]
          rintro ⟨⟩
        · rintro startNs ⟨⟩
      next => cases stepped
  | crash =>
      cases stepped
      exact sound.ended (fun _ => rfl) sound.leased
  | boot gapId members => exact sound.boot announced stepped
  | ready =>
      simp only [serviceStep] at stepped
      split at stepped
      next booting =>
        cases stepped
        exact sound.ready (by rw [booting]; rfl)
      next paused =>
        cases stepped
        exact sound.ready (by rw [paused]; rfl)
      next => cases stepped

end ServiceSound

theorem serviceSound_firstStart (members : List String) (nowNs : Nat) :
    ServiceSound (firstStart members nowNs) where
  unclosed := by
    rintro gapId ⟨⟩
  held stream lastNs left := by
    rcases left with ⟨⟨⟩, _⟩ | ⟨outage, ⟨⟩, _⟩
  past := by
    rintro outage ⟨⟩
  observed := by
    rintro event ⟨⟩
  leased := by
    rintro startNs ⟨⟩
  running := fun isUp => absurd rfl isUp
  floor := Nat.zero_le _
  covered := by
    rintro outage ⟨⟩

def depthStream : ServedStream := ("AUSDT", .depth)

def routeCall : GapCall where
  reason := .connectionLost
  exchangeSymbols := ["AUSDT"]
  streamTypes := [.bookTicker, .depth]

/--
The route dies nine seconds after its last event and the storage loop notices
it five seconds later; `recorded` is what the route does before it dies.
-/
def failedOnce (recorded : List ServiceLabel) : List ServiceLabel :=
  [.boot "recovery" ["AUSDT"], .ready, .advance (seconds 100),
    .ingest depthStream, .advance (seconds 9)] ++
  recorded ++
  [.fail "public-0" [depthStream], .advance (seconds 5),
    .shutdown (some "stopped"), .stop (seconds 100), .advance (seconds 60),
    .boot "recovery" ["AUSDT"], .advance (seconds 30), .ready]

/-- The route's gap, backdated to its last event. -/
def routeGap : List ServiceLabel :=
  [.openGap (.task "public-0") "route" (some (seconds 100)) routeCall]

theorem failedOnce_runs :
    (runFrom serviceStep (firstStart ["AUSDT"] 0)
      (failedOnce routeGap)).isSome := by
  decide +kernel

/-- The next boot is ready after a route died with its gap open. -/
def readyAgain : ServiceState :=
  (runFrom serviceStep (firstStart ["AUSDT"] 0)
    (failedOnce routeGap)).get failedOnce_runs

/-- The sources fail before they are ready, and the next boot is. -/
def unreadyRun : List ServiceLabel :=
  [.boot "first" ["AUSDT"], .advance (seconds 20), .ingest depthStream,
    .advance (seconds 9), .fail "public-0" [depthStream], .advance (seconds 1),
    .crash, .advance (seconds 60), .boot "recovery" ["AUSDT"],
    .advance (seconds 30), .ready]

/-- The sources fail while the storage loop waits for their readiness. -/
def pausedRun : List ServiceLabel :=
  let storageCall := { routeCall with
    reason := .storageExhausted
    streamTypes := [] }
  [.boot "first" ["AUSDT"], .pause,
    .openGap .deferred "storage" none storageCall, .advance (seconds 20),
    .ingest depthStream, .advance (seconds 9),
    .fail "public-0" [depthStream], .shutdown (some "stopped"),
    .stop (seconds 0), .advance (seconds 60), .boot "recovery" ["AUSDT"],
    .advance (seconds 30), .ready, .closeGap "storage" storageCall]

example : ∀ run ∈ [unreadyRun, pausedRun],
    (runFrom serviceStep (firstStart ["AUSDT"] 0) run).isSome ∧
      StepsMeet serviceStep FailsAnnounced (firstStart ["AUSDT"] 0) run := by
  decide +kernel

instance (journal : List GapEventV1) (stream : ServedStream) (instant : Nat) :
    Decidable (CoveredAt journal stream instant) :=
  inferInstanceAs (Decidable (∃ opened ∈ journal, _ ∧ _ ∧ _ ∧
    ∀ closed ∈ journal, _))

end ShadowDataPlane.Edge
