import ShadowDataPlane.Contracts.Gap
import ShadowDataPlane.Edge.DayIndex

/-!
# The gap journal

`GapJournal` publishes gap facts into the day index and keeps one state file
for each open gap, so that a later boot can close it.  A gap which outlives a
UTC day is rolled over: its part of the old day is closed at the last instant
and it is opened again at midnight.

The three operations `open`, `close` and `rollover` are tasks which advance
one await at a time.  Nothing else runs between two awaits, so any
interleaving of tasks, and any crash, falls between two steps of `taskStep`.
-/

namespace ShadowDataPlane.Edge

open ShadowDataPlane.Foundation
open ShadowDataPlane.Contracts

/-- The exceptions an operation of the journal can end with. -/
inductive JournalError where
  | sealedDay (utcDate : Nat)
  | stateMissing (gapId : String)
deriving DecidableEq, Repr

/-- What the journal reads and writes on disk. -/
structure JournalDisk where
  openGaps : Dict String GapEventV1 := Dict.empty
  index : DayIndex GapEventV1 := {}
deriving DecidableEq

/-- The arguments which `open` and `close` pass on to the event. -/
structure GapCall where
  reason : GapReason
  collectorId : String := ""
  connectionId : Option String := none
  exchangeSymbols : List String := []
  streamTypes : List StreamType := []
  detail : String := ""
deriving DecidableEq

/-- The event `open` publishes; its validator refuses a later backdate. -/
def openEvent (gapId : String) (nowNs : Nat) (affectedFrom : Option Nat)
    (call : GapCall) : Option GapEventV1 :=
  if backdated : ∀ affected ∈ affectedFrom, affected ≤ nowNs then
    some
      { gapId := gapId
        state := .opened
        reason := call.reason
        collectorId := call.collectorId
        connectionId := call.connectionId
        exchangeSymbols := call.exchangeSymbols
        streamTypes := call.streamTypes
        observedAtRealtimeNs := nowNs
        affectedFromRealtimeNs := affectedFrom
        detail := call.detail
        affectedBeforeObservation := backdated
        closedUnaffected := by simp }
  else none

/-- The event `close` publishes. -/
def closeEvent (gapId : String) (nowNs : Nat) (call : GapCall) :
    GapEventV1 :=
  { gapId := gapId
    state := .closed
    reason := call.reason
    collectorId := call.collectorId
    connectionId := call.connectionId
    exchangeSymbols := call.exchangeSymbols
    streamTypes := call.streamTypes
    observedAtRealtimeNs := nowNs
    detail := call.detail
    affectedBeforeObservation := by simp
    closedUnaffected := fun _ => rfl }

def JournalDisk.publish (disk : JournalDisk) (event : GapEventV1) :
    Except JournalError JournalDisk :=
  match disk.index.recordGenerated event.eventDate event with
  | .error problem => .error (.sealedDay problem.utcDate)
  | .ok index => .ok { disk with index := index }

/-! ## Rolling one gap over -/

/-- The date `_roll_state_to` starts from; a zero backdate counts as none. -/
def rollDate (opened : GapEventV1) : Nat :=
  match opened.affectedFromRealtimeNs with
  | some affected =>
      dateOfNs (if affected = 0 then opened.observedAtRealtimeNs else affected)
  | none => dateOfNs opened.observedAtRealtimeNs

/-- The `CLOSED` event at the last instant of the day. -/
def continuedClosing (opened : GapEventV1) : GapEventV1 :=
  { opened with
    state := .closed
    observedAtRealtimeNs := midnightNs (rollDate opened + 1) - 1
    affectedFromRealtimeNs := none
    detail := "gap continues into the next UTC day"
    affectedBeforeObservation := by simp
    closedUnaffected := fun _ => rfl }

/-- The `OPEN` event at the next midnight. -/
def continuedOpening (opened : GapEventV1) : GapEventV1 :=
  { opened with
    state := .opened
    observedAtRealtimeNs := midnightNs (rollDate opened + 1)
    affectedFromRealtimeNs := some (midnightNs (rollDate opened + 1))
    detail := "gap continued from a previous UTC day"
    affectedBeforeObservation := by simp
    closedUnaffected := by simp }

/-- Where `_roll_state_to` stands; `opened` is its local variable. -/
inductive RollStage where
  | readState
  | checkSealed (opened : GapEventV1)
  | closePrevious (opened : GapEventV1)
  | openNext (opened : GapEventV1)
  | writeState (opened : GapEventV1)
deriving DecidableEq

/-- The test of the loop over dates. -/
def nextDate (opened : GapEventV1) (targetDate : Nat) : Option RollStage :=
  if rollDate opened + 1 ≤ targetDate then some (.checkSealed opened)
  else none

/-- One step of `_roll_state_to`; no stage is left when it returns. -/
def rollStep (disk : JournalDisk) (gapId : String) (targetDate : Nat) :
    RollStage → Except JournalError (JournalDisk × Option RollStage)
  | .readState =>
      match disk.openGaps.get? gapId with
      | none => .error (.stateMissing gapId)
      | some opened => .ok (disk, nextDate opened targetDate)
  | .checkSealed opened =>
      if disk.index.DayIsSealed (rollDate opened) then
        .ok (disk, some (.openNext opened))
      else .ok (disk, some (.closePrevious opened))
  | .closePrevious opened =>
      match disk.publish (continuedClosing opened) with
      | .error problem => .error problem
      | .ok disk => .ok (disk, some (.openNext opened))
  | .openNext opened =>
      match disk.publish (continuedOpening opened) with
      | .error problem => .error problem
      | .ok disk => .ok (disk, some (.writeState (continuedOpening opened)))
  | .writeState opened =>
      .ok ({ disk with openGaps := disk.openGaps.set gapId opened },
        nextDate opened targetDate)

/-! ## Tasks -/

/-- How far a call of `close` has come. -/
inductive CloseStage where
  | findState
  | roll (stage : RollStage)
  | publish
  | removeState
deriving DecidableEq

/-- How far a call of `rollover` has come. -/
inductive RolloverStage where
  | listStates
  | roll (gapId : String) (later : List String) (stage : RollStage)
deriving DecidableEq

/-- A call of the journal which has not returned. -/
inductive JournalTask where
  | opening (event : GapEventV1) (published : Bool)
  | closing (event : GapEventV1) (stage : CloseStage)
  | rollover (targetDate : Nat) (stage : RolloverStage)
deriving DecidableEq

/-- The next state file of a rollover, if there is one. -/
def nextState (targetDate : Nat) : List String → Option JournalTask
  | [] => none
  | gapId :: later =>
      some (.rollover targetDate (.roll gapId later .readState))

/-- The open gaps in the order of their files. -/
def openStates (disk : JournalDisk) : List String :=
  (disk.openGaps.entries.map Prod.fst).insertionSort (· ≤ ·)

def closingStep (disk : JournalDisk) (event : GapEventV1) :
    CloseStage → Except JournalError (JournalDisk × Option JournalTask)
  | .findState =>
      if (disk.openGaps.get? event.gapId).isSome then
        .ok (disk, some (.closing event (.roll .readState)))
      else .ok (disk, some (.closing event .publish))
  | .roll stage =>
      match rollStep disk event.gapId
          (dateOfNs event.observedAtRealtimeNs) stage with
      | .error problem => .error problem
      | .ok (disk, some stage) =>
          .ok (disk, some (.closing event (.roll stage)))
      | .ok (disk, none) => .ok (disk, some (.closing event .publish))
  | .publish =>
      match disk.publish event with
      | .error problem => .error problem
      | .ok disk => .ok (disk, some (.closing event .removeState))
  | .removeState =>
      .ok ({ disk with openGaps := disk.openGaps.erase event.gapId }, none)

def rolloverStep (disk : JournalDisk) (targetDate : Nat) :
    RolloverStage → Except JournalError (JournalDisk × Option JournalTask)
  | .listStates => .ok (disk, nextState targetDate (openStates disk))
  | .roll gapId later stage =>
      match rollStep disk gapId targetDate stage with
      | .error problem => .error problem
      | .ok (disk, some stage) =>
          .ok (disk, some (.rollover targetDate (.roll gapId later stage)))
      | .ok (disk, none) => .ok (disk, nextState targetDate later)

/-- Advance a task to its next await; no task is left when it returns. -/
def taskStep (disk : JournalDisk) :
    JournalTask → Except JournalError (JournalDisk × Option JournalTask)
  | .opening event false =>
      match disk.publish event with
      | .error problem => .error problem
      | .ok disk => .ok (disk, some (.opening event true))
  | .opening event true =>
      .ok ({ disk with openGaps := disk.openGaps.set event.gapId event }, none)
  | .closing event stage => closingStep disk event stage
  | .rollover targetDate stage => rolloverStep disk targetDate stage

end ShadowDataPlane.Edge
