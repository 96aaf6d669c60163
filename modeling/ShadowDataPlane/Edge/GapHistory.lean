import ShadowDataPlane.Edge.GapRollover
import ShadowDataPlane.Foundation.Transition

/-!
# Histories of the gap journal

`EdgeService` opens and closes gaps, rolls them over at midnight and seals
finished days.  `journalStep` is the journal in its hands: one call at a time,
each advancing await by await, with a crash allowed before every await and a
clock which does not run backwards.  Gap ids are fresh, as UUIDs are; no
caller backdates a gap to the epoch or closes one with the rollover's detail.

`Orderly` is the condition under which the events of every closed gap denote
the gap, day by day (`closed_gap_denotes`).  `storageGap_refused` and
`midnightClose_denotes` are histories in the service's own order which
violate it.
-/

namespace ShadowDataPlane.Edge

open ShadowDataPlane.Foundation
open ShadowDataPlane.Contracts
open ShadowDataPlane.Central

/-- The journal, its clock and what its calls came to. -/
structure JournalHistory where
  disk : JournalDisk := {}
  nowNs : Nat
  task : Option JournalTask := none
  returned : List GapEventV1 := []
  failed : List JournalTask := []
deriving DecidableEq

/-- The calls of the gap journal, and what comes between their steps. -/
inductive JournalLabel where
  | tick (nowNs : Nat)
  | openGap (gapId : String) (affectedFrom : Option Nat) (call : GapCall)
  | closeGap (gapId : String) (call : GapCall)
  | rollover (utcDate : Nat)
  | work
  | crash
  | sealDay (utcDate : Nat)
deriving DecidableEq

/-- The event a call publishes for its caller. -/
def JournalTask.event? : JournalTask → Option GapEventV1
  | .opening event _ | .closing event _ => some event
  | .rollover _ _ => none

/-- No event of the journal carries the gap id. -/
def FreshGap (disk : JournalDisk) (gapId : String) : Prop :=
  ∀ entry ∈ disk.index.recorded, entry.2.gapId ≠ gapId

instance (disk : JournalDisk) (gapId : String) :
    Decidable (FreshGap disk gapId) :=
  inferInstanceAs (Decidable (∀ entry ∈ _, _))

/-- The running call makes its next step. -/
def journalWork (history : JournalHistory) (task : JournalTask) :
    JournalHistory :=
  match taskStep history.disk task with
  | .error _ =>
      { history with
        task := none
        failed := history.failed ++ [task] }
  | .ok (disk, some next) =>
      { history with
        disk := disk
        task := some next }
  | .ok (disk, none) =>
      { history with
        disk := disk
        task := none
        returned := history.returned ++ task.event?.toList }

/--
One step of the journal.  A publication is one of them: a crash inside it
counts as before it until the manifest is durable, and as after it from there.
-/
def journalStep (history : JournalHistory) :
    JournalLabel → Option JournalHistory
  | .tick nowNs =>
      if history.nowNs ≤ nowNs then some { history with nowNs := nowNs }
      else none
  | .openGap gapId affectedFrom call =>
      if history.task = none ∧ FreshGap history.disk gapId ∧
          affectedFrom ≠ some 0 then
        (openEvent gapId history.nowNs affectedFrom call).map fun event =>
          { history with task := some (.opening event false) }
      else none
  | .closeGap gapId call =>
      if history.task = none ∧ call.detail ≠ continuesDetail then
        some
          { history with
            task := some (.closing
              (closeEvent gapId history.nowNs call) .findState) }
      else none
  | .rollover utcDate =>
      if history.task = none ∧ midnightNs utcDate ≤ history.nowNs then
        some { history with task := some (.rollover utcDate .listStates) }
      else none
  | .work => history.task.map (journalWork history)
  | .crash => some { history with task := none }
  | .sealDay utcDate =>
      if history.task = none ∧ utcDate < dateOfNs history.nowNs then
        some
          { history with
            disk :=
              { history.disk with
                index := history.disk.index.sealDay utcDate } }
      else none

/-- A call of `close` has published its event and not returned. -/
def RemovesState : Option JournalTask → Prop
  | some (.closing _ .removeState) => True
  | _ => False

instance : (task : Option JournalTask) → Decidable (RemovesState task)
  | some (.closing _ .removeState) => inferInstanceAs (Decidable True)
  | none | some (.opening _ _) | some (.rollover _ _) =>
      inferInstanceAs (Decidable False)
  | some (.closing _ .findState) | some (.closing _ (.roll _))
  | some (.closing _ .publish) => inferInstanceAs (Decidable False)

/--
The event closes a gap with this state: after the gap's last `OPEN` event,
not at a midnight, and for the symbol if the gap concerns it.
-/
def ClosesAfter (symbol : String) (closing : GapEventV1) :
    Option GapEventV1 → Prop
  | none => False
  | some opened =>
      opened.effectiveNs < closing.observedAtRealtimeNs ∧
        closing.observedAtRealtimeNs ≠
          midnightNs (dateOfNs closing.observedAtRealtimeNs) ∧
        (opened.Relevant symbol .depth → closing.Relevant symbol .depth)

instance (symbol : String) (closing : GapEventV1) :
    (state : Option GapEventV1) →
      Decidable (ClosesAfter symbol closing state)
  | none => inferInstanceAs (Decidable False)
  | some _ => inferInstanceAs (Decidable (_ ∧ _ ∧ (_ → _)))

/--
What keeps the gap facts of a symbol exact.  No sealed day comes to lie after
the day to which an open gap has been rolled; a gap is closed while it is
open, and as `ClosesAfter` says; no crash falls between the `CLOSED` event
and the removal of the state file.
-/
def Orderly (symbol : String) (history : JournalHistory) :
    JournalLabel → Prop
  | .openGap _ affectedFrom _ =>
      ∀ entry ∈ history.disk.index.sealedDays.entries,
        entry.1 ≤ dateOfNs (affectedFrom.getD history.nowNs)
  | .closeGap gapId call =>
      ClosesAfter symbol (closeEvent gapId history.nowNs call)
        (history.disk.openGaps.get? gapId)
  | .crash => ¬ RemovesState history.task
  | .sealDay utcDate =>
      ∀ entry ∈ history.disk.openGaps.entries, utcDate ≤ rollDate entry.2
  | .tick _ | .work | .rollover _ => True

instance (symbol : String) (history : JournalHistory) :
    (label : JournalLabel) → Decidable (Orderly symbol history label)
  | .tick _ | .work | .rollover _ => inferInstanceAs (Decidable True)
  | .openGap _ _ _ => inferInstanceAs (Decidable (∀ entry ∈ _, _))
  | .closeGap _ _ => inferInstanceAs (Decidable (ClosesAfter _ _ _))
  | .crash => inferInstanceAs (Decidable (¬ _))
  | .sealDay _ => inferInstanceAs (Decidable (∀ entry ∈ _, _))

/-! ## The invariant -/

/-- The events of a gap which was closed by `closing`, day by day. -/
structure Decomposed (symbol : String) (disk : JournalDisk)
    (opening closing : GapEventV1) (days : Nat) : Prop where
  isOpening : Opening opening
  isClosing : closing.state = .closed
  detail : closing.detail ≠ continuesDetail
  sameGap : closing.gapId = opening.gapId
  relevant : opening.Relevant symbol .depth → closing.Relevant symbol .depth
  date : opening.eventDate + days = dateOfNs closing.observedAtRealtimeNs
  later : (piece opening days).effectiveNs < closing.observedAtRealtimeNs
  past : ∀ earlier < days, PastDay disk opening earlier
  last : disk.eventsOf opening.gapId (opening.eventDate + days) =
    [piece opening days, closing]
  outside : ∀ utcDate, utcDate < opening.eventDate ∨
      opening.eventDate + days < utcDate →
    disk.eventsOf opening.gapId utcDate = []

theorem Decomposed.frame
    {symbol : String} {disk after : JournalDisk}
    {opening closing : GapEventV1} {days : Nat}
    (decomposed : Decomposed symbol disk opening closing days)
    (events : ∀ utcDate, after.eventsOf opening.gapId utcDate =
      disk.eventsOf opening.gapId utcDate) :
    Decomposed symbol after opening closing days :=
  { decomposed with
    past := by
      intro earlier before
      rw [PastDay, events]
      exact decomposed.past earlier before
    last := by
      rw [events]
      exact decomposed.last
    outside := by
      intro utcDate outside
      rw [events]
      exact decomposed.outside utcDate outside }

/-- A gap which is open, by its own opening and its state file. -/
structure OpenAt (history : JournalHistory) (opening : GapEventV1)
    (days : Nat) : Prop where
  returned : opening ∈ history.returned
  state : history.disk.openGaps.get? opening.gapId =
    some (piece opening days)
  continues : Continues history.disk history.nowNs opening days

/-- What a call of `close` may rely on until it publishes its event. -/
structure Closable (symbol : String) (disk : JournalDisk)
    (opening closing : GapEventV1) (days : Nat) : Prop where
  isClosing : closing.state = .closed
  detail : closing.detail ≠ continuesDetail
  later : opening.effectiveNs < closing.observedAtRealtimeNs
  offMidnight : closing.observedAtRealtimeNs ≠
    midnightNs (dateOfNs closing.observedAtRealtimeNs)
  relevant : opening.Relevant symbol .depth → closing.Relevant symbol .depth
  reached : opening.eventDate + days ≤
    dateOfNs closing.observedAtRealtimeNs
  state : disk.openGaps.get? opening.gapId = some (piece opening days)
  continues : Continues disk closing.observedAtRealtimeNs opening days

/-- What each stage of a call of `close` knows. -/
def CloseSound (symbol : String) (disk : JournalDisk)
    (opening closing : GapEventV1) : CloseStage → Prop
  | .findState => ∃ days, Closable symbol disk opening closing days
  | .roll stage => ∃ days, Closable symbol disk opening closing days ∧
      RollSound disk opening days
        (dateOfNs closing.observedAtRealtimeNs) stage
  | .publish => ∃ days, Closable symbol disk opening closing days ∧
      dateOfNs closing.observedAtRealtimeNs ≤ opening.eventDate + days
  | .removeState => ∃ days, Decomposed symbol disk opening closing days

/-- What a call in flight knows. -/
def TaskSound (symbol : String) (history : JournalHistory) :
    JournalTask → Prop
  | .opening event published =>
      (∀ other ∈ history.returned, other.gapId ≠ event.gapId) ∧
        Opening event ∧
        if published then Continues history.disk history.nowNs event 0
        else
          (∀ utcDate, history.disk.eventsOf event.gapId utcDate = []) ∧
            ∀ utcDate, history.disk.index.DayIsSealed utcDate →
              utcDate ≤ event.eventDate
  | .closing event stage =>
      event.observedAtRealtimeNs ≤ history.nowNs ∧
        (∀ utcDate, history.disk.index.DayIsSealed utcDate →
          utcDate < dateOfNs event.observedAtRealtimeNs) ∧
        ∃ opening ∈ history.returned, event.gapId = opening.gapId ∧
          opening.state = .opened ∧
          CloseSound symbol history.disk opening event stage
  | .rollover targetDate .listStates =>
      midnightNs targetDate ≤ history.nowNs
  | .rollover targetDate (.roll gapId rest stage) =>
      midnightNs targetDate ≤ history.nowNs ∧
        (∀ other ∈ rest, (history.disk.openGaps.get? other).isSome) ∧
        ∃ opening days, opening.gapId = gapId ∧
          OpenAt history opening days ∧
          RollSound history.disk opening days targetDate stage

/-- The gap whose state file the running call is about to remove. -/
def Removing (task : Option JournalTask) (gapId : String) : Prop :=
  ∃ closing, task = some (.closing closing .removeState) ∧
    closing.gapId = gapId

/-- What every orderly history guarantees. -/
structure HistorySound (symbol : String) (history : JournalHistory) :
    Prop where
  clock : ∀ utcDate, history.disk.index.DayIsSealed utcDate →
    utcDate < dateOfNs history.nowNs
  agrees : history.disk.index.SealsAgree
  recorded : ∀ event ∈ history.returned, event.state = .opened →
    event ∈ history.disk.eventsOf event.gapId event.eventDate
  unique : ∀ left ∈ history.returned, ∀ right ∈ history.returned,
    left.state = .opened → right.state = .opened →
      left.gapId = right.gapId → left = right
  closed : ∀ closing ∈ history.returned, closing.state = .closed →
    history.disk.openGaps.get? closing.gapId = none ∧
      ∃ opening ∈ history.returned, ∃ days,
        Decomposed symbol history.disk opening closing days
  opened : ∀ gapId state, history.disk.openGaps.get? gapId = some state →
    Removing history.task gapId ∨
      ∃ opening days, opening.gapId = gapId ∧
        OpenAt history opening days
  failed : ∀ task ∈ history.failed, ∃ event published,
    task = .opening event published
  task : ∀ task ∈ history.task, TaskSound symbol history task

end ShadowDataPlane.Edge
