import Mathlib.Data.List.Sort
import ShadowDataPlane.Contracts.Gap
import ShadowDataPlane.Edge.OperationLock
import ShadowDataPlane.Foundation.Dict
import ShadowDataPlane.Foundation.Transition

/-!
# The storage pause

`EdgeService.run` and `EdgeService._storage_loop` share the sources, the field
which names the open storage gap and the gaps which a boot finds.  Both run
from one await to the next here; between two awaits the process may crash or be
stopped, a source may fail, and the other tasks of the service open and close
gaps of their own.

The discovery loop of the sources takes the operation lock, which the storage
loop holds from the start of a check to its end.  So the sources become ready
at a boot only, and `SourceManager.stop` waits for the discovery loop: it comes
back when that loop has ended, or another task of the sources has failed.  What
else takes the lock only delays the two.

A hard-limited boot does not start the sources and opens no gap.  If the limit
is gone when the storage loop looks for the first time, and the boot found no
storage gap, nothing starts them later: they are paused without a gap
(`paused_without_gap`).  And a readiness timeout leaves nothing stopped if the
discovery loop has come as far as the lock (`retry_never_comes`).
-/

namespace ShadowDataPlane.Edge

open ShadowDataPlane.Contracts
open ShadowDataPlane.Foundation

/-- What `SourceManager` knows of its task. -/
inductive SourceGroup where
  | stopped
  | started (isReady failed : Bool)
deriving DecidableEq, Repr

namespace SourceGroup

/-- `SourceManager.running`. -/
def running : SourceGroup → Bool
  | .stopped => false
  | .started _ _ => true

/-- The task is done before the sources are stopped. -/
def failed : SourceGroup → Bool
  | .stopped => false
  | .started _ failed => failed

/-- A task of the sources raises. -/
def fail : SourceGroup → SourceGroup
  | .stopped => .stopped
  | .started isReady _ => .started isReady true

end SourceGroup

/-- A gap which a boot finds open. -/
abbrev StaleGap := String × GapReason

/-- The await at which the service stands. -/
inductive PausePhase where
  | down
  | recover
  | bootStatus
  | bootReady
  /-- The sources are stopped after a readiness timeout. -/
  | bootTimeout
  | bootStale (rest : List StaleGap)
  /-- Between two checks of the storage loop. -/
  | waiting
  | openGap
  | stopSources
  | loopReady
  /-- The sources are stopped after a readiness timeout. -/
  | loopTimeout
  | loopStale (rest : List StaleGap)
  | closeGap
  | stopping
deriving DecidableEq

namespace PausePhase

/-- The storage loop holds the operation lock. -/
def holdsLock : PausePhase → Bool
  | .openGap | .stopSources | .loopReady | .loopTimeout | .loopStale _
  | .closeGap => true
  | .down | .recover | .bootStatus | .bootReady | .bootTimeout | .bootStale _
  | .waiting | .stopping => false

/-- The stop event of the sources is set. -/
def stopSet : PausePhase → Bool
  | .bootTimeout | .stopSources | .loopTimeout => true
  | .down | .recover | .bootStatus | .bootReady | .bootStale _ | .waiting
  | .openGap | .loopReady | .loopStale _ | .closeGap | .stopping => false

end PausePhase

/-- What the service does to its sources and to gaps. -/
inductive PauseEvent where
  /-- `start`, and whether they were running. -/
  | started (running : Bool)
  | closed (gapId : String) (reason : GapReason) (sources : SourceGroup)
  /-- `stop` came back from a timeout: the storage gap, and what was left. -/
  | timedOut (storageGapId : Option String) (gaps : Dict String GapReason)
      (sources : SourceGroup)
deriving DecidableEq

/-- The service, its sources and the state files. -/
structure PauseState where
  /-- The state files of the gap journal. -/
  gaps : Dict String GapReason
  phase : PausePhase := .down
  sources : SourceGroup := .stopped
  /-- The discovery loop of the sources which are running. -/
  discovery : DiscoveryPhase := .ended
  /-- The discovery loop has called `on_ready` since they were started. -/
  discovered : Bool := false
  storageGapId : Option String := none
  staleGaps : List StaleGap := []
  /-- The storage loop has checked the spool in this boot. -/
  checked : Bool := false
  trace : List PauseEvent := []
deriving DecidableEq

/-- The steps of the service, of its sources and of other tasks. -/
inductive PauseLabel where
  | boot
  /-- The recovery gap is opened unless the shutdown was clean. -/
  | recover (gapId : Option String)
  /-- `hard_limited` of `SpoolManager.status`. -/
  | status (hardLimited : Bool)
  | ready
  | timeout
  /-- The await at which the service stands raises. -/
  | failure
  /-- `GapJournal.open` returns. -/
  | opened (gapId : String)
  /-- The await returns. -/
  | work
  | sourceFails
  /-- The discovery loop goes on. -/
  | discovery (label : DiscoveryLabel)
  | openOther (gapId : String) (reason : GapReason)
  | closeOther (gapId : String)
  /-- The stop event is set, or another task of the service has failed. -/
  | stop
  | crash
deriving DecidableEq

/-- The step is one of the service or its sources, not of another gap. -/
def PauseLabel.Own : PauseLabel → Bool
  | .openOther _ _ | .closeOther _ => false
  | .boot | .recover _ | .status _ | .ready | .timeout | .failure | .opened _
  | .work | .sourceFails | .discovery _ | .stop | .crash => true

/-- `stale_open_events`, in the order of the state files. -/
def staleGapsOf (gaps : Dict String GapReason) : List StaleGap :=
  gaps.entries.insertionSort fun left right =>
    left.1 ++ ".json" ≤ right.1 ++ ".json"

namespace PauseState

/-- A process which is gone leaves the state files. -/
def gone (state : PauseState) : PauseState :=
  { gaps := state.gaps, trace := state.trace }

/-- `SourceManager.start`, which refuses to start twice, and `wait_ready`. -/
def startSources (state : PauseState) (next : PausePhase) : PauseState :=
  if state.sources.running then
    { state with
      phase := .stopping
      trace := .started true :: state.trace }
  else
    { state with
      phase := next
      sources := .started false false
      discovery := .fetching
      discovered := false
      trace := .started false :: state.trace }

/-- `SourceManager.stop` comes back. -/
def stopped (state : PauseState) : PauseState :=
  { state with sources := .stopped, discovery := .ended }

/-- `SourceManager.stop` comes back after a readiness timeout. -/
def timedOut (state : PauseState) : PauseState :=
  { state.stopped with
    trace := .timedOut state.storageGapId state.gaps .stopped :: state.trace }

/-- What the service sees of the discovery loop. -/
def discover (state : PauseState) (discovery : DiscoveryPhase) :
    DiscoveryLabel → PauseState
  | .planned => { state with discovery, discovered := true }
  | .planFails => { state with discovery, sources := state.sources.fail }
  | .fetched | .fetchFails | .wakes | .acquires | .overloaded =>
      { state with discovery }

/-- `GapJournal.close`. -/
def close (state : PauseState) (gap : StaleGap) : PauseState :=
  { state with
    gaps := state.gaps.erase gap.1
    trace := .closed gap.1 gap.2 state.sources :: state.trace }

/-- `_close_stale_gaps`, one gap at a time. -/
def closeStale (state : PauseState) (done : PausePhase)
    (more : List StaleGap → PausePhase) : List StaleGap → PauseState
  | [] => { state with phase := done }
  | gap :: rest =>
      if some gap.1 = state.storageGapId then { state with phase := more rest }
      else { state.close gap with phase := more rest }

/-- The sources have become ready; the stale gaps are taken. -/
def becomeReady (state : PauseState) (failed : Bool)
    (closing : List StaleGap → PausePhase) : PauseState :=
  { state with
    phase := closing state.staleGaps
    sources := .started true failed
    staleGaps := [] }

/-- The gaps which a boot finds, and the first storage gap of them. -/
def recoverGaps (state : PauseState) (gaps : Dict String GapReason) :
    PauseState :=
  { state with
    gaps
    phase := .bootStatus
    staleGaps := staleGapsOf gaps
    storageGapId := ((staleGapsOf gaps).find? fun gap =>
      gap.2 = .storageExhausted).map Prod.fst }

/-- One check of `_storage_loop`. -/
def check (state : PauseState) (hardLimited : Bool) : PauseState :=
  match state.sources with
  | .started _ true => { state with phase := .stopping }
  | sources =>
      match hardLimited, state.storageGapId with
      | true, none => { state with phase := .openGap }
      | true, some _ => { state with phase := .stopSources, checked := true }
      | false, none => { state with checked := true }
      | false, some _ =>
          if sources.running then
            { state with phase := .closeGap, checked := true }
          else { state with checked := true }.startSources .loopReady

end PauseState

/-- No task is left for which `SourceManager.stop` waits. -/
def StopReturns (state : PauseState) : Prop :=
  state.sources = .stopped ∨ state.sources.failed = true ∨
    state.discovery = .ended

instance (state : PauseState) : Decidable (StopReturns state) :=
  inferInstanceAs (Decidable (_ ∨ _ ∨ _))

/-- A gap id which is not in use. -/
def Unopened (state : PauseState) (gapId : String) : Prop :=
  state.gaps.get? gapId = none

instance (state : PauseState) (gapId : String) :
    Decidable (Unopened state gapId) :=
  inferInstanceAs (Decidable (_ = _))

/-- One step of the service, of its sources or of another task. -/
def pauseStep (state : PauseState) : PauseLabel → Option PauseState
  | .boot =>
      match state.phase with
      | .down => some { state with phase := .recover }
      | _ => none
  | .recover gapId =>
      match state.phase, gapId with
      | .recover, none => some (state.recoverGaps state.gaps)
      | .recover, some gapId =>
          if Unopened state gapId then
            some (state.recoverGaps (state.gaps.set gapId .collectorStopped))
          else none
      | _, _ => none
  | .status hardLimited =>
      match state.phase with
      | .bootStatus =>
          if hardLimited then some { state with phase := .waiting }
          else some (state.startSources .bootReady)
      | .waiting =>
          -- `_on_discovery` holds the operation lock.
          if state.discovery = .planning then none
          else some (state.check hardLimited)
      | _ => none
  | .ready =>
      if state.discovered then
        match state.phase, state.sources with
        | .bootReady, .started _ false =>
            some (state.becomeReady false .bootStale)
        | .loopReady, .started _ false =>
            some (state.becomeReady false .loopStale)
        | _, _ => none
      else none
  | .timeout =>
      match state.phase, state.sources with
      | .bootReady, .started _ false =>
          some { state with phase := .bootTimeout }
      | .loopReady, .started _ false =>
          some { state with phase := .loopTimeout }
      | _, _ => none
  | .failure =>
      match state.phase with
      -- `SourceManager.stop` gathers whatever its tasks raise.
      | .down | .bootTimeout | .stopSources | .loopTimeout => none
      | .recover | .bootStatus | .bootReady | .bootStale _ | .stopping =>
          some state.gone
      | _ => some { state with phase := .stopping }
  | .opened gapId =>
      if Unopened state gapId then
        match state.phase with
        | .openGap =>
            some
              { state with
                gaps := state.gaps.set gapId .storageExhausted
                phase := .stopSources
                storageGapId := some gapId
                checked := true }
        | .stopping =>
            if state.sources.running then
              some
                { state with
                  gaps := state.gaps.set gapId .collectorStopped }.gone
            else none
        | _ => none
      else none
  | .work =>
      match state.phase with
      | .bootStale rest => some (state.closeStale .waiting .bootStale rest)
      | .loopStale rest => some (state.closeStale .closeGap .loopStale rest)
      | .bootTimeout =>
          if StopReturns state then some state.timedOut.gone else none
      | .stopSources =>
          if StopReturns state then
            some { state.stopped with phase := .waiting }
          else none
      | .loopTimeout =>
          if StopReturns state then
            some { state.timedOut with phase := .waiting }
          else none
      | .closeGap =>
          state.storageGapId.map fun gapId =>
            { state.close (gapId, .storageExhausted) with
              phase := .waiting
              storageGapId := none }
      | .stopping => if state.sources.running then none else some state.gone
      | _ => none
  | .sourceFails =>
      if state.sources.running then
        some { state with sources := state.sources.fail }
      else none
  | .discovery label =>
      if state.sources.running = false ∨
          label = .acquires ∧ state.phase.holdsLock = true then
        none
      else
        (state.discovery.step state.phase.stopSet label).map fun discovery =>
          state.discover discovery label
  | .openOther gapId reason =>
      if Unopened state gapId ∧ reason ≠ .storageExhausted ∧
          state.phase ≠ .down then
        some { state with gaps := state.gaps.set gapId reason }
      else none
  | .closeOther gapId =>
      match state.gaps.get? gapId with
      | none | some .storageExhausted => none
      | some _ =>
          if state.phase = .down then none
          else some { state with gaps := state.gaps.erase gapId }
  | .stop =>
      match state.phase with
      | .waiting | .openGap | .stopSources | .loopReady | .loopTimeout
      | .loopStale _ | .closeGap => some { state with phase := .stopping }
      | _ => none
  | .crash => some state.gone

/-! ## What is claimed of every state -/

/-- The storage loop runs. -/
def PausePhase.Looping : PausePhase → Prop
  | .waiting | .openGap | .stopSources | .loopReady | .loopTimeout
  | .loopStale _ | .closeGap => True
  | .down | .recover | .bootStatus | .bootReady | .bootTimeout | .bootStale _
  | .stopping => False

instance : DecidablePred PausePhase.Looping
  | .waiting | .openGap | .stopSources | .loopReady | .loopTimeout
  | .loopStale _ | .closeGap => inferInstanceAs (Decidable True)
  | .down | .recover | .bootStatus | .bootReady | .bootTimeout | .bootStale _
  | .stopping => inferInstanceAs (Decidable False)

/-- The gap is open and says that the storage is exhausted. -/
def StorageGapOpen (gaps : Dict String GapReason) (gapId : String) : Prop :=
  gaps.get? gapId = some .storageExhausted

instance (gaps : Dict String GapReason) (gapId : String) :
    Decidable (StorageGapOpen gaps gapId) :=
  inferInstanceAs (Decidable (_ = _))

/-- The sources have become ready since they were started. -/
def SourceGroup.Ready (sources : SourceGroup) : Prop :=
  ∃ failed, sources = .started true failed

/--
Sources are started only when they are not running, a storage gap is closed only
after they have become ready, and a timeout leaves them stopped and the storage
gap open.
-/
def EventSound : PauseEvent → Prop
  | .started running => running = false
  | .closed _ reason sources =>
      reason = .storageExhausted → sources.Ready
  | .timedOut storageGapId gaps sources =>
      sources = .stopped ∧ ∀ gapId ∈ storageGapId, StorageGapOpen gaps gapId

/--
The readiness has timed out, and `SourceManager.stop` waits for a discovery
loop which waits for the lock of the storage loop.
-/
structure Hangs (state : PauseState) : Prop where
  phase : state.phase = .loopTimeout
  locking : state.discovery = .locking
  running : ∃ isReady, state.sources = .started isReady false

/--
Since the storage loop has checked the spool, the sources are only stopped
while a storage gap is open.  A timeout lets the storage loop come to its next
check.
-/
structure PauseSound (state : PauseState) : Prop where
  trace : ∀ event ∈ state.trace, EventSound event
  paused : state.phase.Looping → state.checked = true →
    state.sources = .stopped →
      ∃ gapId, state.storageGapId = some gapId ∧
        StorageGapOpen state.gaps gapId
  retries : ¬ Hangs state

/--
A check which finds neither a hard limit nor a storage gap finds the sources
running, unless it finds that one of them has failed.  When the readiness times
out the discovery loop does not wait for the lock, and until the sources have
stopped it does not come to it.
-/
def PauseMeets (state : PauseState) : PauseLabel → Prop
  | .status false =>
      state.phase = .waiting → state.storageGapId = none →
        state.sources ≠ .stopped
  | .timeout => state.phase = .loopReady → state.discovery ≠ .locking
  | .discovery .fetched =>
      state.phase = .loopTimeout → state.sources.failed = true
  | _ => True

instance (state : PauseState) : DecidablePred (PauseMeets state)
  | .status false | .timeout | .discovery .fetched =>
      inferInstanceAs (Decidable (_ → _))
  | .status true | .boot | .recover _ | .ready | .failure | .opened _ | .work
  | .sourceFails | .openOther _ _ | .closeOther _ | .stop | .crash
  | .discovery .fetchFails | .discovery .wakes | .discovery .acquires
  | .discovery .planned | .discovery .overloaded | .discovery .planFails =>
      inferInstanceAs (Decidable True)

/-! ## What a step does -/

/-- The steps of the service and of the other tasks, with what each finds. -/
inductive PauseEffect (state : PauseState) :
    PauseLabel → PauseState → Prop where
  | boot (isPhase : state.phase = .down) :
      PauseEffect state .boot { state with phase := .recover }
  | recoverClean (isPhase : state.phase = .recover) :
      PauseEffect state (.recover none) (state.recoverGaps state.gaps)
  | recoverOpens {gapId : String} (isPhase : state.phase = .recover)
      (unopened : Unopened state gapId) :
      PauseEffect state (.recover (some gapId))
        (state.recoverGaps (state.gaps.set gapId .collectorStopped))
  | bootLimited (isPhase : state.phase = .bootStatus) :
      PauseEffect state (.status true) { state with phase := .waiting }
  | bootStarts (isPhase : state.phase = .bootStatus) :
      PauseEffect state (.status false) (state.startSources .bootReady)
  | checks {hardLimited : Bool} (isPhase : state.phase = .waiting)
      (free : state.discovery ≠ .planning) :
      PauseEffect state (.status hardLimited) (state.check hardLimited)
  | bootReady (discovered : state.discovered = true)
      (isPhase : state.phase = .bootReady) :
      PauseEffect state .ready (state.becomeReady false .bootStale)
  | loopReady (discovered : state.discovered = true)
      (isPhase : state.phase = .loopReady) :
      PauseEffect state .ready (state.becomeReady false .loopStale)
  | bootTimeout (isPhase : state.phase = .bootReady) :
      PauseEffect state .timeout { state with phase := .bootTimeout }
  | loopTimeout {isReady : Bool} (isPhase : state.phase = .loopReady)
      (isSources : state.sources = .started isReady false) :
      PauseEffect state .timeout { state with phase := .loopTimeout }
  | fails (unlooped : ¬ state.phase.Looping) :
      PauseEffect state .failure state.gone
  | loopFails (looping : state.phase.Looping)
      (raises : state.phase ≠ .loopTimeout) :
      PauseEffect state .failure { state with phase := .stopping }
  | openedStorage {gapId : String} (unopened : Unopened state gapId)
      (isPhase : state.phase = .openGap) :
      PauseEffect state (.opened gapId)
        { state with
          gaps := state.gaps.set gapId .storageExhausted
          phase := .stopSources
          storageGapId := some gapId
          checked := true }
  | openedStopped {gapId : String} (unopened : Unopened state gapId)
      (isPhase : state.phase = .stopping) :
      PauseEffect state (.opened gapId)
        { state with gaps := state.gaps.set gapId .collectorStopped }.gone
  | bootCloses {rest : List StaleGap}
      (isPhase : state.phase = .bootStale rest) :
      PauseEffect state .work (state.closeStale .waiting .bootStale rest)
  | loopCloses {rest : List StaleGap}
      (isPhase : state.phase = .loopStale rest) :
      PauseEffect state .work (state.closeStale .closeGap .loopStale rest)
  | bootStopped (isPhase : state.phase = .bootTimeout)
      (returns : StopReturns state) :
      PauseEffect state .work state.timedOut.gone
  | paused (isPhase : state.phase = .stopSources)
      (returns : StopReturns state) :
      PauseEffect state .work { state.stopped with phase := .waiting }
  | retries (isPhase : state.phase = .loopTimeout)
      (returns : StopReturns state) :
      PauseEffect state .work { state.timedOut with phase := .waiting }
  | closesStorage {gapId : String} (isPhase : state.phase = .closeGap)
      (isStorage : state.storageGapId = some gapId) :
      PauseEffect state .work
        { state.close (gapId, .storageExhausted) with
          phase := .waiting
          storageGapId := none }
  | ends (isPhase : state.phase = .stopping) :
      PauseEffect state .work state.gone
  | sourceFails (running : state.sources.running = true) :
      PauseEffect state .sourceFails
        { state with sources := state.sources.fail }
  | discovery {label : DiscoveryLabel} {discovery : DiscoveryPhase}
      (running : state.sources.running = true)
      (free : label = .acquires → state.phase.holdsLock = false)
      (went : state.discovery.step state.phase.stopSet label =
        some discovery) :
      PauseEffect state (.discovery label) (state.discover discovery label)
  | openOther {gapId : String} {reason : GapReason}
      (unopened : Unopened state gapId) (other : reason ≠ .storageExhausted) :
      PauseEffect state (.openOther gapId reason)
        { state with gaps := state.gaps.set gapId reason }
  | closeOther {gapId : String} {reason : GapReason}
      (found : state.gaps.get? gapId = some reason)
      (other : reason ≠ .storageExhausted) :
      PauseEffect state (.closeOther gapId)
        { state with gaps := state.gaps.erase gapId }
  | stops (looping : state.phase.Looping) :
      PauseEffect state .stop { state with phase := .stopping }
  | crash : PauseEffect state .crash state.gone

theorem pauseStep_effect
    {state after : PauseState} {label : PauseLabel}
    (stepped : pauseStep state label = some after) :
    PauseEffect state label after := by
  cases label with
  | boot =>
      simp only [pauseStep] at stepped
      split at stepped
      next isPhase =>
        cases stepped
        exact .boot isPhase
      next => cases stepped
  | recover gapId =>
      simp only [pauseStep] at stepped
      split at stepped
      next isPhase =>
        cases stepped
        exact .recoverClean isPhase
      next isPhase =>
        split at stepped
        next unopened =>
          cases stepped
          exact .recoverOpens isPhase unopened
        next => cases stepped
      next => cases stepped
  | status hardLimited =>
      simp only [pauseStep] at stepped
      split at stepped
      next isPhase =>
        cases hardLimited with
        | true =>
            cases stepped
            exact .bootLimited isPhase
        | false =>
            cases stepped
            exact .bootStarts isPhase
      next isPhase =>
        split at stepped
        next => cases stepped
        next free =>
          cases stepped
          exact .checks isPhase free
      next => cases stepped
  | ready =>
      simp only [pauseStep] at stepped
      split at stepped
      next discovered =>
        split at stepped
        next isPhase _ =>
          cases stepped
          exact .bootReady discovered isPhase
        next isPhase _ =>
          cases stepped
          exact .loopReady discovered isPhase
        next => cases stepped
      next => cases stepped
  | timeout =>
      simp only [pauseStep] at stepped
      split at stepped
      next isPhase _ =>
        cases stepped
        exact .bootTimeout isPhase
      next isPhase isSources =>
        cases stepped
        exact .loopTimeout isPhase isSources
      next => cases stepped
  | failure =>
      cases isPhase : state.phase with
      | down | bootTimeout | stopSources | loopTimeout =>
          simp [pauseStep, isPhase] at stepped
      | recover | bootStatus | bootReady | bootStale _ | stopping =>
          simp only [pauseStep, isPhase, Option.some.injEq] at stepped
          rw [← stepped]
          exact .fails (by rw [isPhase]; exact not_false)
      | waiting | openGap | loopReady | loopStale _ | closeGap =>
          simp only [pauseStep, isPhase, Option.some.injEq] at stepped
          rw [← stepped]
          exact .loopFails (by rw [isPhase]; trivial) (by simp [isPhase])
  | opened gapId =>
      simp only [pauseStep] at stepped
      split at stepped
      next unopened =>
        split at stepped
        next isPhase =>
          cases stepped
          exact .openedStorage unopened isPhase
        next isPhase =>
          split at stepped <;> cases stepped
          exact .openedStopped unopened isPhase
        next => cases stepped
      next => cases stepped
  | work =>
      simp only [pauseStep] at stepped
      split at stepped
      next isPhase =>
        cases stepped
        exact .bootCloses isPhase
      next isPhase =>
        cases stepped
        exact .loopCloses isPhase
      next isPhase =>
        split at stepped <;> cases stepped
        next returns => exact .bootStopped isPhase returns
      next isPhase =>
        split at stepped <;> cases stepped
        next returns => exact .paused isPhase returns
      next isPhase =>
        split at stepped <;> cases stepped
        next returns => exact .retries isPhase returns
      next isPhase =>
        rcases Option.map_eq_some_iff.mp stepped with ⟨gapId, isStorage, rfl⟩
        exact .closesStorage isPhase isStorage
      next isPhase =>
        split at stepped <;> cases stepped
        exact .ends isPhase
      next => cases stepped
  | sourceFails =>
      simp only [pauseStep, Option.ite_none_right_eq_some] at stepped
      rcases stepped with ⟨running, ⟨⟩⟩
      exact .sourceFails running
  | discovery label =>
      simp only [pauseStep] at stepped
      split at stepped
      next => cases stepped
      next allowed =>
        rcases Option.map_eq_some_iff.mp stepped with ⟨discovery, went, rfl⟩
        refine .discovery ?_ (fun isAcquires => ?_) went
        · exact Bool.eq_true_of_not_eq_false fun stopped =>
            allowed (Or.inl stopped)
        · exact Bool.eq_false_of_not_eq_true fun holds =>
            allowed (Or.inr ⟨isAcquires, holds⟩)
  | openOther gapId reason =>
      simp only [pauseStep, Option.ite_none_right_eq_some] at stepped
      rcases stepped with ⟨⟨unopened, other, _⟩, ⟨⟩⟩
      exact .openOther unopened other
  | closeOther gapId =>
      simp only [pauseStep] at stepped
      split at stepped
      next => cases stepped
      next => cases stepped
      next reason other found =>
        split at stepped <;> cases stepped
        exact .closeOther found other
  | stop =>
      cases isPhase : state.phase with
      | waiting | openGap | stopSources | loopReady | loopTimeout
      | loopStale _ | closeGap =>
          simp only [pauseStep, isPhase, Option.some.injEq] at stepped
          rw [← stepped]
          exact .stops (by rw [isPhase]; trivial)
      | down | recover | bootStatus | bootReady | bootTimeout | bootStale _
      | stopping => simp [pauseStep, isPhase] at stepped
  | crash =>
      cases stepped
      exact .crash

/-! ## The invariant -/

/-- Between two awaits of the storage loop. -/
def Settled (state : PauseState) : Prop :=
  state.sources.Ready ∨
    state.sources = .stopped ∧
      (state.checked = true → state.storageGapId.isSome)

/-- What a phase relies on. -/
def PhaseSound (state : PauseState) : Prop :=
  match state.phase with
  | .down | .recover | .bootStatus =>
      state.sources = .stopped ∧ state.checked = false
  | .bootReady | .bootTimeout =>
      (∃ failed, state.sources = .started false failed)
  | .bootStale _ => state.sources.Ready
  | .waiting | .openGap => Settled state
  | .stopSources => Settled state ∧ state.storageGapId.isSome
  | .loopReady | .loopTimeout =>
      (∃ failed, state.sources = .started false failed) ∧
        state.storageGapId.isSome
  | .loopStale _ | .closeGap =>
      state.sources.Ready ∧ state.storageGapId.isSome
  | .stopping => True

/-- What every state satisfies in which the process has not gone wrong. -/
structure PauseInvariant (state : PauseState) : Prop where
  trace : ∀ event ∈ state.trace, EventSound event
  storage : ∀ gapId ∈ state.storageGapId, StorageGapOpen state.gaps gapId
  phase : PhaseSound state

namespace PauseInvariant

variable {state after : PauseState}

/-- A process which is gone has nothing but its past. -/
theorem gone (trace : ∀ event ∈ state.trace, EventSound event) :
    PauseInvariant state.gone where
  trace := trace
  storage := by
    rintro gapId ⟨⟩
  phase := ⟨rfl, rfl⟩

theorem startSources
    (sound : PauseInvariant state) (stopped : state.sources = .stopped)
    {next : PausePhase}
    (phase : ∀ begun : PauseState, begun.phase = next →
      begun.sources = .started false false →
        begun.storageGapId = state.storageGapId → PhaseSound begun) :
    PauseInvariant (state.startSources next) := by
  rw [PauseState.startSources, stopped, SourceGroup.running,
    if_neg Bool.false_ne_true]
  exact {
    trace := List.forall_mem_cons.mpr ⟨rfl, sound.trace⟩
    storage := sound.storage
    phase := phase _ rfl rfl rfl }

/-- Closing another gap keeps the storage gap open. -/
theorem storage_erase
    (sound : PauseInvariant state) {gapId : String}
    (other : some gapId ≠ state.storageGapId) :
    ∀ storageGapId ∈ state.storageGapId,
      StorageGapOpen (state.gaps.erase gapId) storageGapId := by
  intro storageGapId isStorage
  rw [StorageGapOpen, Dict.get?_erase, if_neg]
  · exact sound.storage storageGapId isStorage
  · rintro rfl
    exact other isStorage.symm

/-- Opening another gap keeps the storage gap open. -/
theorem storage_set
    (sound : PauseInvariant state) {gapId : String}
    (unopened : Unopened state gapId) (reason : GapReason) :
    ∀ storageGapId ∈ state.storageGapId,
      StorageGapOpen (state.gaps.set gapId reason) storageGapId := by
  intro storageGapId isStorage
  have isOpen := sound.storage storageGapId isStorage
  rw [StorageGapOpen, Dict.get?_set, if_neg]
  · exact isOpen
  · rintro rfl
    rw [StorageGapOpen, unopened] at isOpen
    cases isOpen

/-- One stale gap is closed, or the storage gap is passed over. -/
theorem closeStale
    (sound : PauseInvariant state) (isReady : state.sources.Ready)
    {done : PausePhase} {more : List StaleGap → PausePhase}
    (phase : ∀ closing : PauseState,
      closing.phase = done ∨ (∃ rest, closing.phase = more rest) →
        closing.sources = state.sources →
          closing.storageGapId = state.storageGapId → PhaseSound closing)
    (rest : List StaleGap) :
    PauseInvariant (state.closeStale done more rest) := by
  cases rest with
  | nil =>
      exact {
        trace := sound.trace
        storage := sound.storage
        phase := phase _ (Or.inl rfl) rfl rfl }
  | cons gap rest =>
      rw [PauseState.closeStale]
      split
      next =>
        exact {
          trace := sound.trace
          storage := sound.storage
          phase := phase _ (Or.inr ⟨rest, rfl⟩) rfl rfl }
      next other =>
        exact {
          trace := List.forall_mem_cons.mpr ⟨fun _ => isReady, sound.trace⟩
          storage := sound.storage_erase other
          phase := phase _ (Or.inr ⟨rest, rfl⟩) rfl rfl }

/-- What a boot recovers is open. -/
theorem recoverGaps
    (sound : PauseInvariant state) (gaps : Dict String GapReason)
    (stopped : state.sources = .stopped) (unchecked : state.checked = false) :
    PauseInvariant (state.recoverGaps gaps) where
  trace := sound.trace
  storage := by
    intro gapId isFound
    rcases Option.map_eq_some_iff.mp isFound with ⟨gap, found, rfl⟩
    have listed : gap ∈ gaps.entries :=
      (List.perm_insertionSort _ _).mem_iff.mp (List.mem_of_find?_eq_some found)
    have isStorage : gap.2 = .storageExhausted := by
      simpa using List.find?_some found
    rw [StorageGapOpen, ← isStorage]
    exact (Dict.mem_entries_iff _).mp listed
  phase := ⟨stopped, unchecked⟩

/-- One check of the storage loop. -/
theorem check
    (sound : PauseInvariant state) (settled : Settled state)
    (isWaiting : state.phase = .waiting) {hardLimited : Bool}
    (meets : hardLimited = false → state.storageGapId = none →
      state.sources ≠ .stopped) :
    PauseInvariant (state.check hardLimited) := by
  unfold PauseState.check
  split
  next => exact { sound with phase := trivial }
  next =>
    split
    next => exact { sound with phase := settled }
    next gapId isStorage =>
      refine { sound with phase := ⟨?_, ?_⟩ }
      · exact settled.imp_right fun stopped => ⟨stopped.1, fun _ => by
          rw [isStorage]
          rfl⟩
      · rw [isStorage]
        rfl
    next noStorage =>
      have running : state.sources.Ready :=
        settled.resolve_right fun stopped => meets rfl noStorage stopped.1
      refine { sound with phase := ?_ }
      rw [PhaseSound]
      simp only [isWaiting]
      exact Or.inl running
    next gapId isStorage =>
      split
      next running =>
        have isReady : state.sources.Ready := by
          apply settled.resolve_right
          rintro ⟨stopped, _⟩
          rw [stopped] at running
          cases running
        refine { sound with phase := ⟨isReady, ?_⟩ }
        rw [isStorage]
        rfl
      next notRunning =>
        have stopped : state.sources = .stopped := by
          cases isSources : state.sources with
          | stopped => rfl
          | started => rw [isSources] at notRunning; exact absurd rfl notRunning
        have checked : PauseInvariant { state with checked := true } := by
          refine { sound with phase := ?_ }
          rw [PhaseSound]
          simp only [isWaiting]
          refine Or.inr ⟨stopped, fun _ => ?_⟩
          rw [isStorage]
          rfl
        apply checked.startSources stopped
        intro begun isPhase isSources sameStorage
        rw [PhaseSound, isPhase]
        refine ⟨⟨false, isSources⟩, ?_⟩
        rw [sameStorage, isStorage]
        rfl

/-- Whether a task has failed does not matter to any phase. -/
theorem fail (sound : PauseInvariant state) :
    PauseInvariant { state with sources := state.sources.fail } := by
  cases isSources : state.sources with
  | stopped =>
      rw [SourceGroup.fail, ← isSources]
      exact sound
  | started isReady failed =>
      have phase := sound.phase
      refine { sound with phase := ?_ }
      rw [PhaseSound] at phase ⊢
      simp only [Settled, SourceGroup.Ready, SourceGroup.fail, isSources]
        at phase ⊢
      split at phase
      all_goals simp_all

/-- The discovery loop goes on. -/
theorem discover
    (sound : PauseInvariant state) (discovery : DiscoveryPhase)
    (label : DiscoveryLabel) :
    PauseInvariant (state.discover discovery label) := by
  cases label with
  | planFails => exact { sound.fail with }
  | fetched | fetchFails | wakes | acquires | planned | overloaded =>
      exact { sound with }

/-- `SourceManager.stop` comes back after a readiness timeout. -/
theorem timedOut (sound : PauseInvariant state) :
    ∀ event ∈ state.timedOut.trace, EventSound event :=
  List.forall_mem_cons.mpr ⟨⟨rfl, sound.storage⟩, sound.trace⟩

/-- The invariant holds after every step which meets the condition. -/
theorem step
    {label : PauseLabel} (sound : PauseInvariant state)
    (meets : PauseMeets state label)
    (stepped : pauseStep state label = some after) : PauseInvariant after := by
  have phase := sound.phase
  cases pauseStep_effect stepped with
  | boot isPhase | bootTimeout isPhase | loopTimeout isPhase =>
      rw [PhaseSound, isPhase] at phase
      exact { sound with phase := phase }
  | recoverClean isPhase | recoverOpens isPhase =>
      rw [PhaseSound, isPhase] at phase
      exact sound.recoverGaps _ phase.1 phase.2
  | bootLimited isPhase =>
      rw [PhaseSound, isPhase] at phase
      refine { sound with phase := ?_ }
      refine Or.inr ⟨phase.1, fun checked => ?_⟩
      rw [phase.2] at checked
      cases checked
  | bootStarts isPhase =>
      rw [PhaseSound, isPhase] at phase
      apply sound.startSources phase.1
      intro begun isBegun isSources _
      rw [PhaseSound, isBegun]
      exact ⟨false, isSources⟩
  | checks isPhase =>
      rw [PhaseSound, isPhase] at phase
      apply sound.check phase isPhase
      rintro rfl noStorage
      exact meets isPhase noStorage
  | bootReady => exact { sound with phase := ⟨false, rfl⟩ }
  | loopReady _ isPhase =>
      rw [PhaseSound, isPhase] at phase
      exact { sound with phase := ⟨⟨false, rfl⟩, phase.2⟩ }
  | fails | openedStopped | ends | crash => exact gone sound.trace
  | loopFails | stops => exact { sound with phase := trivial }
  | openedStorage unopened isPhase =>
      rw [PhaseSound, isPhase] at phase
      refine {
        trace := sound.trace
        storage := ?_
        phase := ⟨phase.imp_right fun stopped =>
          ⟨stopped.1, fun _ => rfl⟩, rfl⟩ }
      rintro storageGapId ⟨⟩
      exact Dict.get?_set_self _ _ _
  | bootCloses isPhase =>
      rw [PhaseSound, isPhase] at phase
      apply sound.closeStale phase
      intro closing isClosing sameSources _
      rw [PhaseSound]
      rcases isClosing with isClosing | ⟨_, isClosing⟩ <;> rw [isClosing]
      · exact Or.inl (sameSources ▸ phase)
      · exact sameSources ▸ phase
  | loopCloses isPhase =>
      rw [PhaseSound, isPhase] at phase
      apply sound.closeStale phase.1
      intro closing isClosing sameSources sameStorage
      rw [PhaseSound]
      rcases isClosing with isClosing | ⟨_, isClosing⟩ <;>
        rw [isClosing, sameSources, sameStorage] <;> exact phase
  | bootStopped => exact gone sound.timedOut
  | paused isPhase =>
      rw [PhaseSound, isPhase] at phase
      exact { sound with phase := Or.inr ⟨rfl, fun _ => phase.2⟩ }
  | retries isPhase =>
      rw [PhaseSound, isPhase] at phase
      exact {
        trace := sound.timedOut
        storage := sound.storage
        phase := Or.inr ⟨rfl, fun _ => phase.2⟩ }
  | closesStorage isPhase =>
      rw [PhaseSound, isPhase] at phase
      exact {
        trace := List.forall_mem_cons.mpr ⟨fun _ => phase.1, sound.trace⟩
        storage := by rintro storageGapId ⟨⟩
        phase := Or.inl phase.1 }
  | sourceFails => exact sound.fail
  | discovery => exact sound.discover _ _
  | @openOther gapId reason unopened =>
      exact {
        trace := sound.trace
        storage := sound.storage_set unopened reason
        phase := phase }
  | closeOther found other =>
      refine {
        trace := sound.trace
        storage := sound.storage_erase ?_
        phase := phase }
      intro isStorage
      have isOpen := sound.storage _ isStorage.symm
      rw [StorageGapOpen, found] at isOpen
      exact other (Option.some.inj isOpen)

end PauseInvariant

theorem pauseInvariant_start (stale : Dict String GapReason) :
    PauseInvariant { gaps := stale } where
  trace := by
    rintro event ⟨⟩
  storage := by
    rintro gapId ⟨⟩
  phase := ⟨rfl, rfl⟩

theorem PauseInvariant.sound
    {state : PauseState} (invariant : PauseInvariant state)
    (retries : ¬ Hangs state) : PauseSound state where
  trace := invariant.trace
  retries := retries
  paused := by
    intro looping checked stopped
    have open_of (isSome : state.storageGapId.isSome) :
        ∃ gapId, state.storageGapId = some gapId ∧
          StorageGapOpen state.gaps gapId := by
      rcases Option.isSome_iff_exists.mp isSome with ⟨gapId, isStorage⟩
      exact ⟨gapId, isStorage, invariant.storage gapId isStorage⟩
    have notReady : ¬ state.sources.Ready := by
      rintro ⟨failed, isReady⟩
      rw [stopped] at isReady
      cases isReady
    have phase := invariant.phase
    rw [PhaseSound] at phase
    split at phase
    all_goals first
      | exact open_of phase.2
      | exact open_of ((phase.resolve_left notReady).2 checked)
      | next isPhase =>
          rw [isPhase] at looping
          exact looping.elim

theorem closeStale_phase
    (state : PauseState) (done : PausePhase)
    (more : List StaleGap → PausePhase) (rest : List StaleGap) :
    (state.closeStale done more rest).phase = done ∨
      ∃ left, (state.closeStale done more rest).phase = more left := by
  cases rest with
  | nil => exact Or.inl rfl
  | cons gap rest =>
      refine Or.inr ⟨rest, ?_⟩
      rw [PauseState.closeStale]
      split <;> rfl

/-- Only a readiness timeout leads to its phase; the tasks do not leave it. -/
theorem loopTimeout_cases
    {before after : PauseState} {label : PauseLabel}
    (stepped : pauseStep before label = some after)
    (isTimeout : after.phase = .loopTimeout) :
    label = .timeout ∨
      before.phase = .loopTimeout ∧
        (label = .sourceFails ∨ (∃ which, label = .discovery which) ∨
          label.Own = false) := by
  have closing := closeStale_phase before
  cases pauseStep_effect stepped with
  | bootTimeout | loopTimeout => exact Or.inl rfl
  | sourceFails => exact Or.inr ⟨isTimeout, Or.inl rfl⟩
  | @discovery which =>
      refine Or.inr ⟨?_, Or.inr (Or.inl ⟨which, rfl⟩)⟩
      cases which <;> exact isTimeout
  | openOther | closeOther => exact Or.inr ⟨isTimeout, Or.inr (Or.inr rfl)⟩
  | bootStarts | checks =>
      grind [PauseState.check, PauseState.startSources]
  | bootCloses | loopCloses => grind
  | boot | recoverClean | recoverOpens | bootLimited | bootReady | loopReady
  | fails | loopFails | openedStorage | openedStopped | bootStopped | paused
  | retries | closesStorage | ends | stops | crash => cases isTimeout

/-- A state hangs if it did before, or the step leads to the lock. -/
theorem hangs_of_step
    {before after : PauseState} {label : PauseLabel}
    (meets : PauseMeets before label)
    (stepped : pauseStep before label = some after) (hangs : Hangs after) :
    Hangs before := by
  have phases := loopTimeout_cases stepped hangs.phase
  cases pauseStep_effect stepped with
  | bootTimeout => cases hangs.phase
  | loopTimeout isReadying =>
      exact absurd hangs.locking (meets isReadying)
  | sourceFails =>
      rcases hangs.running with ⟨isReady, isSources⟩
      cases wasSources : before.sources <;>
        simp only [SourceGroup.fail, wasSources] at isSources <;>
        cases isSources
  | @discovery which _ _ _ went =>
      have leads := DiscoveryPhase.step_leads went
      have wasTimeout := (phases.resolve_left (by rintro ⟨⟩)).1
      cases which with
      | fetched =>
          rcases hangs.running with ⟨isReady, isSources⟩
          have failed := meets wasTimeout
          rw [show before.sources = .started isReady false from isSources]
            at failed
          cases failed
      | wakes =>
          have locking := leads.2.symm.trans hangs.locking
          split at locking <;> cases locking
      | fetchFails | acquires | planned | overloaded | planFails =>
          cases leads.2.symm.trans hangs.locking
  | openOther | closeOther =>
      exact { hangs with phase := (phases.resolve_left (by rintro ⟨⟩)).1 }
  | boot | recoverClean | recoverOpens | bootLimited | bootStarts | checks
  | bootReady | loopReady | fails | loopFails | openedStorage | openedStopped
  | bootCloses | loopCloses | bootStopped | paused | retries | closesStorage
  | ends | stops | crash =>
      rcases phases with isTimeout | ⟨_, isFailure | ⟨_, isWhich⟩ | isOther⟩
      · cases isTimeout
      · cases isFailure
      · cases isWhich
      · cases isOther

/-- A step which does not meet the condition leaves a wrong state. -/
theorem pauseMeets_of_sound
    {before after : PauseState} {label : PauseLabel}
    (stepped : pauseStep before label = some after)
    (sound : PauseSound after) : PauseMeets before label := by
  unfold PauseMeets
  split
  next =>
    intro isWaiting noStorage stopped
    simp only [pauseStep, isWaiting, PauseState.check, stopped, noStorage]
      at stepped
    split at stepped
    next => cases stepped
    next =>
      rw [← Option.some.inj stepped] at sound
      rcases sound.paused trivial rfl rfl with ⟨gapId, isStorage, _⟩
      cases isStorage
  next =>
    intro isReadying locking
    simp only [pauseStep, isReadying] at stepped
    split at stepped
    next isBoot _ => cases isBoot
    next isReady _ isSources =>
      cases stepped
      exact sound.retries ⟨rfl, locking, isReady, isSources⟩
    next => cases stepped
  next =>
    intro isStopping
    simp only [pauseStep] at stepped
    split at stepped
    next => cases stepped
    next allowed =>
      rcases Option.map_eq_some_iff.mp stepped with ⟨discovery, went, rfl⟩
      have locking := (DiscoveryPhase.step_leads went).2
      by_contra unfailed
      refine sound.retries ⟨isStopping, locking, ?_⟩
      show ∃ isReady, before.sources = .started isReady false
      cases isSources : before.sources with
      | stopped => simp [isSources, SourceGroup.running] at allowed
      | started isReady failed =>
          simp only [isSources, SourceGroup.failed,
            Bool.not_eq_true] at unfailed
          exact ⟨isReady, by rw [unfailed]⟩
  next => trivial

/--
With any stale gaps and over any number of boots, the storage pause behaves as
it should exactly if no check finds the sources stopped without a hard limit
and without a storage gap, and no readiness timeout meets a discovery loop at
the lock.
-/
theorem storage_pause_sound
    (stale : Dict String GapReason) {labels : List PauseLabel}
    {final : PauseState}
    (reached : runFrom pauseStep { gaps := stale } labels = some final) :
    Throughout pauseStep PauseSound { gaps := stale } labels ↔
      StepsMeet pauseStep PauseMeets { gaps := stale } labels := by
  have start : PauseInvariant { gaps := stale } ∧
      ¬ Hangs { gaps := stale } :=
    ⟨pauseInvariant_start stale, by rintro ⟨⟨⟩⟩⟩
  have preserved (before : PauseState) (label : PauseLabel)
      (after : PauseState)
      (sound : PauseInvariant before ∧ ¬ Hangs before)
      (meets : PauseMeets before label)
      (stepped : pauseStep before label = some after) :
      PauseInvariant after ∧ ¬ Hangs after :=
    ⟨sound.1.step meets stepped, fun hangs =>
      sound.2 (hangs_of_step meets stepped hangs)⟩
  exact throughout_iff_stepsMeet preserved
    (fun _ sound => sound.1.sound sound.2)
    (fun _ _ _ _ stepped sound => pauseMeets_of_sound stepped sound)
    start reached

/-! ## The lock -/

/-- What the lock keeps from the discovery loop. -/
structure LockKept (state : PauseState) : Prop where
  planning : state.phase.holdsLock = true → state.discovery ≠ .planning
  discovered : state.phase = .loopReady → state.discovered = false
  never : ∀ rest, state.phase ≠ .loopStale rest

namespace LockKept

variable {state after : PauseState}

/-- Nothing is kept from it while the storage loop does not have the lock. -/
theorem of_free (free : state.phase.holdsLock = false) : LockKept state := by
  constructor
  · simp [free]
  · intro isReadying
    simp [isReadying, PausePhase.holdsLock] at free
  · intro rest isStale
    simp [isStale, PausePhase.holdsLock] at free

/-- The storage loop takes the lock, or keeps it, for another await. -/
theorem of_await
    (planning : state.discovery ≠ .planning)
    (isAwait : state.phase ≠ .loopReady ∧ ∀ rest, state.phase ≠ .loopStale rest) :
    LockKept state where
  planning _ := planning
  discovered isReadying := absurd isReadying isAwait.1
  never := isAwait.2

theorem check
    (planning : state.discovery ≠ .planning) (isWaiting : state.phase = .waiting)
    (hardLimited : Bool) : LockKept (state.check hardLimited) := by
  unfold PauseState.check
  split
  next => exact of_free rfl
  next =>
    split
    next => exact of_await planning (by simp)
    next => exact of_await planning (by simp)
    next => exact of_await planning (by simp [isWaiting])
    next =>
      split
      next => exact of_await planning (by simp)
      next notRunning =>
        rw [PauseState.startSources, if_neg notRunning]
        exact ⟨by simp, by simp, by simp⟩

/-- The discovery loop does not get the lock while the storage loop has it. -/
theorem discover
    (kept : LockKept state) {label : DiscoveryLabel}
    (blocked : label = .acquires → state.phase.holdsLock = false)
    {discovery : DiscoveryPhase}
    (went : state.discovery.step state.phase.stopSet label = some discovery) :
    LockKept (state.discover discovery label) := by
  have phases := DiscoveryPhase.step_leads went
  have samePhase : (state.discover discovery label).phase = state.phase := by
    cases label <;> rfl
  cases holds : state.phase.holdsLock with
  | false => exact of_free (samePhase ▸ holds)
  | true =>
      have notPlanning := kept.planning holds
      refine ⟨fun _ => ?_, ?_, samePhase ▸ kept.never⟩
      · have isAfter : (state.discover discovery label).discovery =
            discovery := by
          cases label <;> rfl
        rw [isAfter]
        cases label with
        | acquires => cases holds.symm.trans (blocked rfl)
        | wakes =>
            rw [phases.2]
            split <;> simp
        | fetched | fetchFails | planned | overloaded | planFails =>
            simp [phases.2]
      · rw [samePhase]
        intro isReadying
        cases label with
        | planned => exact absurd phases.1 notPlanning
        | fetched | fetchFails | wakes | acquires | overloaded | planFails =>
            exact kept.discovered isReadying

theorem step
    (kept : LockKept state) {label : PauseLabel}
    (stepped : pauseStep state label = some after) : LockKept after := by
  cases pauseStep_effect stepped with
  | boot | recoverClean | recoverOpens | bootLimited | bootReady | bootTimeout
  | fails | loopFails | openedStopped | bootStopped | paused | retries
  | closesStorage | ends | stops | crash => exact of_free rfl
  | bootStarts =>
      apply of_free
      rw [PauseState.startSources]
      split <;> rfl
  | @checks hardLimited isWaiting free => exact check free isWaiting hardLimited
  | loopReady discovered isReadying =>
      cases (kept.discovered isReadying).symm.trans discovered
  | loopTimeout isReadying =>
      exact of_await (kept.planning (by rw [isReadying]; rfl)) (by simp)
  | openedStorage _ isOpening =>
      exact of_await (kept.planning (by rw [isOpening]; rfl)) (by simp)
  | @bootCloses rest =>
      apply of_free
      rcases closeStale_phase state .waiting .bootStale rest with
        isPhase | ⟨left, isPhase⟩ <;> rw [isPhase] <;> rfl
  | loopCloses isStale => exact absurd isStale (kept.never _)
  | discovery _ free went => exact kept.discover free went
  | sourceFails | openOther | closeOther => exact { kept with }

/-- In no run does `wait_ready` come back to the storage loop with success. -/
theorem of_run
    {stale : Dict String GapReason} {labels : List PauseLabel}
    (reached : runFrom pauseStep { gaps := stale } labels = some state) :
    LockKept state :=
  invariant_of_run (fun _ _ _ kept _ stepped => kept.step stepped)
    (of_free rfl) (stepsMeet_true _ labels) reached

/-- Where nothing hangs, the storage loop can come to its next check. -/
theorem stop_returns
    (kept : LockKept state) (isTimeout : state.phase = .loopTimeout)
    (running : state.sources.running = true) (retries : ¬ Hangs state) :
    ∃ labels final, runFrom pauseStep state labels = some final ∧
      final.phase = .waiting ∧ final.sources = .stopped := by
  have wakes (resting : PauseState) (wasTimeout : resting.phase = .loopTimeout)
      (wasRunning : resting.sources.running = true)
      (isResting : resting.discovery = .resting) :
      ∃ final, runFrom pauseStep resting [.discovery .wakes, .work] =
          some final ∧
        final.phase = .waiting ∧ final.sources = .stopped := by
    simp [runFrom, pauseStep, wasTimeout, wasRunning, isResting,
      DiscoveryPhase.step, PausePhase.stopSet, PauseState.discover,
      StopReturns, PauseState.timedOut, PauseState.stopped]
  cases isDiscovery : state.discovery with
  | fetching =>
      have rests : runFrom pauseStep state [.discovery .fetchFails] =
          some { state with discovery := .resting } := by
        simp [runFrom, pauseStep, running, isDiscovery, DiscoveryPhase.step,
          PauseState.discover]
      rcases wakes { state with discovery := .resting } isTimeout running rfl
        with ⟨final, reached, ended⟩
      refine ⟨[.discovery .fetchFails] ++ [.discovery .wakes, .work], final,
        ?_, ended⟩
      rw [runFrom_append, rests]
      exact reached
  | locking =>
      have failed : state.sources.failed = true := by
        cases isSources : state.sources with
        | stopped =>
            rw [isSources] at running
            cases running
        | started isReady failed =>
            cases failed with
            | true => rfl
            | false =>
                exact absurd ⟨isTimeout, isDiscovery, isReady, isSources⟩
                  retries
      refine ⟨[.work], { state.timedOut with phase := .waiting }, ?_, rfl, rfl⟩
      simp [runFrom, pauseStep, isTimeout, StopReturns, failed]
  | planning =>
      exact absurd isDiscovery (kept.planning (by rw [isTimeout]; rfl))
  | resting =>
      exact ⟨_, wakes state isTimeout running isDiscovery⟩
  | ended =>
      refine ⟨[.work], { state.timedOut with phase := .waiting }, ?_, rfl, rfl⟩
      simp [runFrom, pauseStep, isTimeout, StopReturns, isDiscovery]

end LockKept

/-- No task of the sources raises, and the process goes on. -/
def Untroubled (label : PauseLabel) : Prop :=
  label ≠ .sourceFails ∧ label ≠ .stop ∧ label ≠ .crash

/-- A state which hangs goes on to hang. -/
theorem Hangs.step
    {state after : PauseState} {label : PauseLabel} (hangs : Hangs state)
    (quiet : Untroubled label)
    (stepped : pauseStep state label = some after) : Hangs after := by
  have isTimeout := hangs.phase
  have other {phase : PausePhase} (isPhase : state.phase = phase)
      (differs : phase ≠ .loopTimeout) : Hangs after :=
    absurd (isPhase.symm.trans isTimeout) differs
  cases pauseStep_effect stepped with
  | sourceFails => exact absurd rfl quiet.1
  | stops => exact absurd rfl quiet.2.1
  | crash => exact absurd rfl quiet.2.2
  | retries _ returns =>
      rcases hangs.running with ⟨isReady, isSources⟩
      rcases returns with stopped | failed | ended
      · cases isSources.symm.trans stopped
      · rw [isSources] at failed
        cases failed
      · cases hangs.locking.symm.trans ended
  | @discovery which _ _ free went =>
      have phases := DiscoveryPhase.step_leads went
      cases which with
      | acquires =>
          rw [isTimeout] at free
          cases free rfl
      | fetched | fetchFails | wakes | planned | overloaded | planFails =>
          cases hangs.locking.symm.trans phases.1
  | openOther | closeOther => exact { hangs with }
  | fails unlooped => exact absurd (by rw [isTimeout]; trivial) unlooped
  | loopFails _ raises => exact absurd isTimeout raises
  | bootReady _ isPhase | loopReady _ isPhase | openedStorage _ isPhase
  | openedStopped _ isPhase => exact other isPhase (by rintro ⟨⟩)
  | boot isPhase | recoverClean isPhase | recoverOpens isPhase
  | bootLimited isPhase | bootStarts isPhase | checks isPhase
  | bootTimeout isPhase | loopTimeout isPhase | bootCloses isPhase
  | loopCloses isPhase | bootStopped isPhase | paused isPhase
  | closesStorage isPhase | ends isPhase =>
      exact other isPhase (by rintro ⟨⟩)

/-! ## Runs -/

/-- A boot after a clean shutdown whose spool has reached the hard limit. -/
def limitedBoot : List PauseLabel := [.boot, .recover none, .status true]

/-- The storage loop tries to start the sources again. -/
def retry : List PauseLabel :=
  limitedBoot ++ [.status true, .work, .status false]

/-- The readiness times out, and the sources stop before they meet the lock. -/
def timedOutRun : List PauseLabel :=
  retry ++ [.timeout, .discovery .fetchFails, .discovery .wakes, .work,
    .status false, .crash]

/-- The sources become ready at a boot, and the storage gap is closed. -/
def retriedRun : List PauseLabel :=
  timedOutRun ++ [.boot, .recover (some "recovery-gap"), .status false,
    .discovery .fetched, .discovery .acquires, .discovery .planned, .ready,
    .work, .work, .work, .status false, .work]

/-- The gap which the boot finds. -/
def storageGaps : Dict String GapReason :=
  Dict.empty.set "storage-gap" .storageExhausted

theorem storage_pause_sound_retriedRun :
    Throughout pauseStep PauseSound { gaps := storageGaps } retriedRun := by
  have runs :
      (runFrom pauseStep { gaps := storageGaps } retriedRun).isSome := by
    decide +kernel
  exact (storage_pause_sound storageGaps (Option.some_get runs).symm).mpr
    (by decide +kernel)

/-- The limit is gone before the storage loop looks for the first time. -/
def relievedRun : List PauseLabel := limitedBoot ++ [.status false]

/-- The sources are never started, and no gap says so. -/
theorem paused_without_gap :
    ∃ final ∈ runFrom pauseStep { gaps := Dict.empty } relievedRun,
      ¬ PauseSound final ∧ final.gaps.entries = [] ∧
        pauseStep final (.status false) = some final := by
  have paused : ∃ final ∈ runFrom pauseStep { gaps := Dict.empty } relievedRun,
      final.phase.Looping ∧ final.checked = true ∧ final.sources = .stopped ∧
        final.storageGapId = none ∧ final.gaps.entries = [] ∧
          pauseStep final (.status false) = some final := by
    decide +kernel
  rcases paused with
    ⟨final, reached, looping, checked, stopped, noStorage, noGaps, again⟩
  refine ⟨final, reached, ?_, noGaps, again⟩
  intro sound
  rcases sound.paused looping checked stopped with ⟨gapId, isStorage, _⟩
  rw [noStorage] at isStorage
  cases isStorage

/-- The discovery loop waits for the lock when the readiness times out. -/
def lockedRun : List PauseLabel :=
  retry ++ [.discovery .fetched, .timeout]

/-- The sources are not stopped, and the retry never comes. -/
theorem retry_never_comes :
    ∃ hanging ∈ runFrom pauseStep { gaps := storageGaps } lockedRun,
      ¬ PauseSound hanging ∧
        ∀ labels final, (∀ label ∈ labels, Untroubled label) →
          runFrom pauseStep hanging labels = some final →
            final.phase = .loopTimeout ∧ final.sources ≠ .stopped := by
  have locked : ∃ hanging ∈
      runFrom pauseStep { gaps := storageGaps } lockedRun,
        hanging.phase = .loopTimeout ∧ hanging.discovery = .locking ∧
          hanging.sources = .started false false := by
    decide +kernel
  rcases locked with ⟨hanging, reached, isTimeout, locking, running⟩
  have hangs : Hangs hanging := ⟨isTimeout, locking, false, running⟩
  refine ⟨hanging, reached, fun sound => sound.retries hangs, ?_⟩
  intro labels final quiet continued
  have still : Hangs final :=
    invariant_of_run (fun _ _ _ before quiet stepped =>
      before.step quiet stepped) hangs
      (stepsMeet_of_forall (fun label isLater _ => quiet label isLater)
        hanging) continued
  rcases still.running with ⟨isReady, isSources⟩
  exact ⟨still.phase, by rw [isSources]; rintro ⟨⟩⟩

end ShadowDataPlane.Edge
