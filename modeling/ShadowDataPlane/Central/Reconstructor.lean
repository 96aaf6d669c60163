import Mathlib.Data.Finset.Erase
import ShadowDataPlane.Central.BookEvidence
import ShadowDataPlane.Central.L2Checkpoint
import ShadowDataPlane.Contracts.Gap

/-!
# Reconstruction of one UTC day

`L2DayReconstructor.run` merges the depth rows of one symbol with the gap
events which concern it and emits the intervals during which one connection's
book is authoritative.  The merge hands a gap event over before every row
received at or after the event's effective time.

`reconstruct` is the part of `run` between reading and writing, over an
arbitrary span of time; a day is the span between two midnights.
-/

namespace ShadowDataPlane.Central

open ShadowDataPlane.Foundation
open ShadowDataPlane.Contracts

/-- One row of `l2-validity.jsonl`. -/
structure ValidityInterval where
  validFromNs : Nat
  validToNs : Nat
  connectionId : String
  endReason : String
deriving DecidableEq

/-- The span of an interval, without its authority. -/
def ValidityInterval.span (interval : ValidityInterval) : Nat × Nat :=
  (interval.validFromNs, interval.validToNs)

/-- The local variables of `run`. -/
structure RunState where
  books : Dict String ConnectionBook := Dict.empty
  changes : List StateChange := []
  intervals : List ValidityInterval := []
  authority : Option String := none
  validFrom : Option Nat := none
  lastValidConnection : Option String := none
  activeGaps : Finset String := ∅
deriving DecidableEq

namespace RunState

/-- End the running interval, if there is one, without clearing it. -/
def endInterval (state : RunState) (endNs : Nat) (reason : String) :
    List ValidityInterval :=
  match state.authority, state.validFrom with
  | some authority, some validFrom =>
      state.intervals ++ [⟨validFrom, endNs, authority, reason⟩]
  | _, _ => state.intervals

/-- The state changes a gap opening records, one for each `VALID` book. -/
def gapChanges (state : RunState) (event : GapEventV1) : List StateChange :=
  (state.books.values.filter fun book => book.state = .valid).map fun book =>
    { connectionId := book.connectionId
      atNs := event.effectiveNs
      state := .gapped
      updateId := book.previousUpdateId
      reason := event.reason.value }

def handleGap (state : RunState) (event : GapEventV1) : RunState :=
  match event.state with
  | .opened =>
      { books := state.books.map ConnectionBook.invalidate
        changes := state.changes ++ state.gapChanges event
        intervals := state.endInterval event.effectiveNs "transport_gap"
        authority := none
        validFrom := none
        lastValidConnection := none
        activeGaps := insert event.gapId state.activeGaps }
  | .closed =>
      let state :=
        { state with activeGaps := state.activeGaps.erase event.gapId }
      if state.activeGaps ≠ ∅ then state
      else
        match state.lastValidConnection with
        | none => state
        | some connection =>
            match state.books.get? connection with
            | none => state
            | some candidate =>
                if candidate.state ≠ .valid then state
                else
                  { state with
                    authority := some connection
                    validFrom := some event.observedAtRealtimeNs }

/-- What a state change of one connection's book does to the authority. -/
def handleChange
    (state : RunState) (connection : String) (change : StateChange) :
    RunState :=
  let state := { state with changes := state.changes ++ [change] }
  if change.state = .valid then
    let state := { state with lastValidConnection := some connection }
    if state.activeGaps ≠ ∅ then state
    else
      { state with
        intervals := state.endInterval change.atNs "connection_switch"
        authority := some connection
        validFrom := some change.atNs }
  else if state.authority = some connection ∧ state.validFrom.isSome then
    { state with
      intervals := state.endInterval change.atNs change.reason
      authority := none
      validFrom := none
      lastValidConnection :=
        if state.lastValidConnection = some connection then none
        else state.lastValidConnection }
  else state

section HandleChange

variable {state : RunState} {connection : String} {change : StateChange}

theorem handleChange_validInGap
    (valid : change.state = .valid) (gap : state.activeGaps ≠ ∅) :
    state.handleChange connection change =
      { state with
        changes := state.changes ++ [change]
        lastValidConnection := some connection } := by
  simp only [handleChange, if_pos valid, if_pos gap]

theorem handleChange_validated
    (valid : change.state = .valid) (noGap : state.activeGaps = ∅) :
    state.handleChange connection change =
      { state with
        changes := state.changes ++ [change]
        intervals := state.endInterval change.atNs "connection_switch"
        authority := some connection
        validFrom := some change.atNs
        lastValidConnection := some connection } := by
  simp only [handleChange, if_pos valid, noGap, ne_eq, not_true_eq_false,
    if_false]
  rfl

theorem handleChange_lostAuthority
    (invalid : change.state ≠ .valid)
    (holder : state.authority = some connection ∧ state.validFrom.isSome) :
    state.handleChange connection change =
      { state with
        changes := state.changes ++ [change]
        intervals := state.endInterval change.atNs change.reason
        authority := none
        validFrom := none
        lastValidConnection :=
          if state.lastValidConnection = some connection then none
          else state.lastValidConnection } := by
  simp only [handleChange, if_neg invalid, if_pos holder]
  rfl

theorem handleChange_lostOther
    (invalid : change.state ≠ .valid)
    (other :
      ¬ (state.authority = some connection ∧ state.validFrom.isSome)) :
    state.handleChange connection change =
      { state with changes := state.changes ++ [change] } := by
  simp only [handleChange, if_neg invalid, if_neg other]

end HandleChange

/-- The book of a connection, fresh if the connection is new. -/
def bookOf (state : RunState) (connection : String) : ConnectionBook :=
  (state.books.get? connection).getD { connectionId := connection }

def handleRow (state : RunState) (row : DepthRow) : RunState :=
  let delivered := (state.bookOf row.connectionId).onRow row
  let state :=
    { state with books := state.books.set row.connectionId delivered.1 }
  match delivered.2 with
  | none => state
  | some change => state.handleChange row.connectionId change

/-- Everything a delivered row can do to the state. -/
inductive RowOutcome (state : RunState) (connection : String)
    (book : ConnectionBook) : Option StateChange → RunState → Prop where
  | silent :
      RowOutcome state connection book none
        { state with books := state.books.set connection book }
  | validInGap (change : StateChange)
      (valid : change.state = .valid) (gap : state.activeGaps ≠ ∅) :
      RowOutcome state connection book (some change)
        { state with
          books := state.books.set connection book
          changes := state.changes ++ [change]
          lastValidConnection := some connection }
  | validated (change : StateChange)
      (valid : change.state = .valid) (noGap : state.activeGaps = ∅) :
      RowOutcome state connection book (some change)
        { state with
          books := state.books.set connection book
          changes := state.changes ++ [change]
          intervals := state.endInterval change.atNs "connection_switch"
          authority := some connection
          validFrom := some change.atNs
          lastValidConnection := some connection }
  | lostAuthority (change : StateChange)
      (invalid : change.state ≠ .valid)
      (authority : state.authority = some connection)
      (since : state.validFrom.isSome) :
      RowOutcome state connection book (some change)
        { state with
          books := state.books.set connection book
          changes := state.changes ++ [change]
          intervals := state.endInterval change.atNs change.reason
          authority := none
          validFrom := none
          lastValidConnection :=
            if state.lastValidConnection = some connection then none
            else state.lastValidConnection }
  | lostOther (change : StateChange)
      (invalid : change.state ≠ .valid)
      (other : ¬ (state.authority = some connection ∧
        state.validFrom.isSome)) :
      RowOutcome state connection book (some change)
        { state with
          books := state.books.set connection book
          changes := state.changes ++ [change] }

theorem handleRow_outcome (state : RunState) (row : DepthRow) :
    RowOutcome state row.connectionId
      ((state.bookOf row.connectionId).onRow row).1
      ((state.bookOf row.connectionId).onRow row).2
      (state.handleRow row) := by
  unfold handleRow
  generalize (state.bookOf row.connectionId).onRow row = delivered
  rcases delivered with ⟨book, change⟩
  cases change with
  | none => exact .silent
  | some change =>
      let received : RunState :=
        { state with books := state.books.set row.connectionId book }
      show RowOutcome state row.connectionId book (some change)
        (received.handleChange row.connectionId change)
      by_cases valid : change.state = .valid
      · by_cases noGap : received.activeGaps = ∅
        · rw [handleChange_validated valid noGap]
          exact .validated change valid noGap
        · rw [handleChange_validInGap valid noGap]
          exact .validInGap change valid noGap
      · by_cases holder : received.authority = some row.connectionId ∧
            received.validFrom.isSome
        · rw [handleChange_lostAuthority valid holder]
          exact .lostAuthority change valid holder.1 holder.2
        · rw [handleChange_lostOther valid holder]
          exact .lostOther change valid holder

/-- Hand over the gap events which take effect by `receivedNs`. -/
def drainGaps (receivedNs : Nat) :
    List GapEventV1 → RunState → RunState × List GapEventV1
  | [], state => (state, [])
  | event :: rest, state =>
      if event.effectiveNs ≤ receivedNs then
        drainGaps receivedNs rest (state.handleGap event)
      else (state, event :: rest)

/-- The loop over the depth rows, with the gap events still to come. -/
def consumeRows :
    List DepthRow → List GapEventV1 → RunState → RunState × List GapEventV1
  | [], gaps, state => (state, gaps)
  | row :: rows, gaps, state =>
      let drained := drainGaps row.receivedNs gaps state
      consumeRows rows drained.2 (drained.1.handleRow row)

end RunState

/-- Restore the authoritative book of a checkpoint, if it has one. -/
def restoreAuthority (startNs : Nat) (checkpoint : L2CheckpointV1) :
    Except L2Error RunState :=
  if checkpoint.state = .valid then do
    let book ← ConnectionBook.fromCheckpoint checkpoint
    return {
      books := Dict.empty.set book.connectionId book
      authority := some book.connectionId
      lastValidConnection := some book.connectionId
      validFrom := some startNs }
  else return {}

/-- Restore one book which still waits for its bridge. -/
def restoreAnchored (state : RunState) (anchored : AnchoredBookCheckpointV1) :
    Except L2Error RunState :=
  if (state.books.get? anchored.connectionId).isSome then
    .error .checkpointRepeatsConnection
  else
    .ok
      { state with
        books := state.books.set anchored.connectionId
          (ConnectionBook.fromAnchorCheckpoint anchored) }

/-- The state `run` starts from. -/
def initialState (startNs : Nat) :
    Option L2CheckpointV1 → Except L2Error RunState
  | none => .ok {}
  | some checkpoint => do
      let state ← restoreAuthority startNs checkpoint
      checkpoint.anchoredBooks.foldlM restoreAnchored state

/-- The gap events of the ledger which concern the symbol's depth stream. -/
def transportGapEvents (symbol : String) (ledger : List GapEventV1) :
    List GapEventV1 :=
  GapEventV1.sortEvents
    (ledger.filter fun event => event.Relevant symbol .depth)

/-- Merge rows and gap events from a given state to the end of the input. -/
def RunState.advance
    (state : RunState) (symbol : String)
    (rows : List DepthRow) (ledger : List GapEventV1) : RunState :=
  let consumed := state.consumeRows rows (transportGapEvents symbol ledger)
  consumed.2.foldl RunState.handleGap consumed.1

/-- What a reconstruction has computed before it writes anything. -/
structure Reconstruction where
  changes : List StateChange
  intervals : List ValidityInterval
  finalBook : Option ConnectionBook
  books : Dict String ConnectionBook
deriving DecidableEq

/-- End the running interval at the end of the span and drop empty intervals. -/
def RunState.finish (state : RunState) (endNs : Nat) : Reconstruction :=
  { changes := state.changes
    intervals :=
      (state.endInterval endNs "utc_day_end").filter fun interval =>
        interval.validFromNs < interval.validToNs
    finalBook :=
      match state.authority with
      | some authority =>
          if state.activeGaps = ∅ then state.books.get? authority else none
      | none => none
    books := state.books }

/-- Reconstruct the span from `startNs` to `endNs`. -/
def reconstruct
    (startNs endNs : Nat) (symbol : String)
    (checkpoint : Option L2CheckpointV1)
    (rows : List DepthRow) (ledger : List GapEventV1) :
    Except L2Error Reconstruction := do
  let state ← initialState startNs checkpoint
  return (state.advance symbol rows ledger).finish endNs

/-! ## The files of a day -/

/-- The fields `run` reads from a `_NORMALIZED.json` marker. -/
structure NormalizedMarker where
  formalStartRealtimeNs : Option Int := none
  expectedSymbols : Option (List String) := none

/-- What `run` reads; `depthRows` are the rows of the symbol in file order. -/
structure DayFiles where
  normalized : Option NormalizedMarker
  previousNormalized : Option NormalizedMarker := none
  previousCheckpoint : Option L2CheckpointV1 := none
  depthRows : List DepthRow
  transportGaps : List GapEventV1 := []

/-- What `run` writes. -/
structure DayOutput where
  changes : List StateChange
  intervals : List ValidityInterval
  checkpoint : L2CheckpointV1
deriving DecidableEq

namespace L2DayReconstructor

def dayStartNs (day : L2DayReconstructor) : Nat := midnightNs day.utcDate

def dayEndNs (day : L2DayReconstructor) : Nat := midnightNs (day.utcDate + 1)

def canStartWithoutPreviousCheckpoint
    (day : L2DayReconstructor) (files : DayFiles) : Except L2Error Bool :=
  match files.normalized with
  | none => .error .normalizedMarkerMissing
  | some marker =>
      match marker.formalStartRealtimeNs with
      | some formalStartNs =>
          if (day.dayStartNs : Int) ≤ formalStartNs ∧
              formalStartNs < day.dayEndNs then
            .ok true
          else .error .formalStartInvalid
      | none =>
          match files.previousNormalized with
          | none => .ok false
          | some previous =>
              match previous.expectedSymbols with
              | none => .error .previousUniverseInvalid
              | some expectedSymbols =>
                  .ok (decide (day.exchangeSymbol ∉ expectedSymbols))

def loadPreviousCheckpoint
    (day : L2DayReconstructor) (files : DayFiles) :
    Except L2Error (Option L2CheckpointV1) :=
  match files.previousCheckpoint with
  | none => .ok none
  | some checkpoint =>
      if checkpoint.collectorId ≠ day.collectorId ∨
          checkpoint.utcDate + 1 ≠ day.utcDate ∨
          checkpoint.exchangeSymbol ≠ day.exchangeSymbol then
        .error .checkpointIdentityMismatch
      else if checkpoint.state = .valid ∧
          checkpoint.validThroughNs ≠ some day.dayStartNs then
        .error .checkpointMissesBoundary
      else .ok (some checkpoint)

def run (day : L2DayReconstructor) (files : DayFiles) :
    Except L2Error DayOutput := do
  let canStartWithoutCheckpoint ← day.canStartWithoutPreviousCheckpoint files
  let checkpoint ← day.loadPreviousCheckpoint files
  if checkpoint = none ∧ ¬ canStartWithoutCheckpoint then
    .error .checkpointRequired
  else do
    let result ←
      reconstruct day.dayStartNs day.dayEndNs day.exchangeSymbol checkpoint
        files.depthRows files.transportGaps
    let outputCheckpoint ←
      buildCheckpoint day day.dayEndNs result.finalBook result.books
    return {
      changes := result.changes
      intervals := result.intervals
      checkpoint := outputCheckpoint }

end L2DayReconstructor

end ShadowDataPlane.Central
