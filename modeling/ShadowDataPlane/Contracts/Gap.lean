import Mathlib.Data.List.Sort
import Mathlib.Data.Prod.Lex
import Mathlib.Data.String.Basic
import ShadowDataPlane.Contracts.UtcDay

/-!
# Gap events

A gap is a pair of facts, `OPEN` and `CLOSED`, published under one `gap_id`.
The edge writes them, the centre reads them twice: the L2 reconstructor and
the day quality check.  All three order the events by their effective time,
which is the backdated start of an `OPEN` event when it has one.

The two validators of the source are fields of the structure, so a gap event
which the pydantic model rejects cannot be built.
-/

namespace ShadowDataPlane.Contracts

/-- The data streams of the collector. -/
inductive StreamType where
  | depth
  | rpiDepth
  | depthSnapshot
  | rpiDepthSnapshot
  | bookTicker
  | aggTrade
  | trade
  | markPrice
  | forceOrder
  | contractInfo
  | openInterest
  | exchangeInfo
  | marketTickers
  | dailyKlines
  | liquidityDepth
  | universeDecision
  | formalCollectionStarted
  | clockSample
  | wsControl
  | unknown
deriving DecidableEq, Repr

/-- The text of a stream in raw rows. -/
def StreamType.value : StreamType → String
  | .depth => "depth"
  | .rpiDepth => "rpi_depth"
  | .depthSnapshot => "depth_snapshot"
  | .rpiDepthSnapshot => "rpi_depth_snapshot"
  | .bookTicker => "book_ticker"
  | .aggTrade => "agg_trade"
  | .trade => "trade"
  | .markPrice => "mark_price"
  | .forceOrder => "force_order"
  | .contractInfo => "contract_info"
  | .openInterest => "open_interest"
  | .exchangeInfo => "exchange_info"
  | .marketTickers => "market_tickers"
  | .dailyKlines => "daily_klines"
  | .liquidityDepth => "liquidity_depth"
  | .universeDecision => "universe_decision"
  | .formalCollectionStarted => "formal_collection_started"
  | .clockSample => "clock_sample"
  | .wsControl => "ws_control"
  | .unknown => "unknown"

-- Named once, so that every membership of streams is decided in one way.
instance lawfulBEqSymbolStream : LawfulBEq (String × StreamType) :=
  inferInstance

/-- Why data is missing. -/
inductive GapReason where
  | ingestOverload
  | storageExhausted
  | connectionLost
  | l2Sequence
  | plannedBoundary
  | collectorStopped
deriving DecidableEq, Repr

/-- The text of a gap reason, which L2 state changes carry. -/
def GapReason.value : GapReason → String
  | .ingestOverload => "INGEST_OVERLOAD_GAP"
  | .storageExhausted => "STORAGE_EXHAUSTED_GAP"
  | .connectionLost => "CONNECTION_LOST_GAP"
  | .l2Sequence => "L2_SEQUENCE_GAP"
  | .plannedBoundary => "PLANNED_BOUNDARY_GAP"
  | .collectorStopped => "COLLECTOR_STOPPED_GAP"

inductive GapState where
  | opened
  | closed
deriving DecidableEq, Repr

/-- The text of a gap state; event lists are sorted by it. -/
def GapState.value : GapState → String
  | .opened => "OPEN"
  | .closed => "CLOSED"

/--
One published gap fact.

`affectedFromRealtimeNs` backdates an `OPEN` event; it never lies after the
observation and a `CLOSED` event has none.
-/
structure GapEventV1 where
  gapId : String
  state : GapState
  reason : GapReason
  collectorId : String := ""
  connectionId : Option String := none
  exchangeSymbols : List String := []
  streamTypes : List StreamType := []
  observedAtRealtimeNs : Nat
  affectedFromRealtimeNs : Option Nat := none
  detail : String := ""
  affectedBeforeObservation :
    ∀ affected ∈ affectedFromRealtimeNs,
      affected ≤ observedAtRealtimeNs := by decide
  closedUnaffected :
    state = .closed → affectedFromRealtimeNs = none := by decide
deriving DecidableEq

namespace GapEventV1

/-- What a gap which affects nothing earlier owes to `closedUnaffected`. -/
theorem unaffected (state : GapState) :
    state = .closed → (none : Option Nat) = none :=
  fun _ => rfl

/-- The instant from which an event takes effect. -/
def effectiveNs (event : GapEventV1) : Nat :=
  match event.state, event.affectedFromRealtimeNs with
  | .opened, some affected => affected
  | _, _ => event.observedAtRealtimeNs

/-- The UTC date whose inventory an event belongs to. -/
def eventDate (event : GapEventV1) : Nat :=
  dateOfNs event.effectiveNs

theorem effectiveNs_of_closed
    {event : GapEventV1} (closed : event.state = .closed) :
    event.effectiveNs = event.observedAtRealtimeNs := by
  simp [effectiveNs, closed]

theorem effectiveNs_le_observed (event : GapEventV1) :
    event.effectiveNs ≤ event.observedAtRealtimeNs := by
  unfold effectiveNs
  split
  next affected _ backdated =>
    exact event.affectedBeforeObservation affected backdated
  next => exact le_refl _

/-- Events are ordered by effective time, then gap, then state text. -/
def sortKey (event : GapEventV1) : Nat ×ₗ String ×ₗ String :=
  toLex (event.effectiveNs, toLex (event.gapId, event.state.value))

/-- Python's stable sort of gap events by `sortKey`. -/
def sortEvents (events : List GapEventV1) : List GapEventV1 :=
  events.insertionSort fun left right => left.sortKey ≤ right.sortKey

/-- Whether an event concerns one stream of one symbol. -/
def Relevant
    (symbol : String) (stream : StreamType) (event : GapEventV1) : Prop :=
  (event.exchangeSymbols = [] ∨ symbol ∈ event.exchangeSymbols) ∧
    (event.streamTypes = [] ∨ stream ∈ event.streamTypes)

instance (symbol : String) (stream : StreamType) (event : GapEventV1) :
    Decidable (event.Relevant symbol stream) :=
  inferInstanceAs (Decidable (_ ∧ _))

instance : Std.Total fun left right : GapEventV1 =>
    left.sortKey ≤ right.sortKey :=
  ⟨fun left right => le_total left.sortKey right.sortKey⟩

instance : IsTrans GapEventV1 fun left right => left.sortKey ≤ right.sortKey :=
  ⟨fun _ _ _ first second => le_trans first second⟩

theorem effectiveNs_le_of_sortKey_le
    {left right : GapEventV1} (ordered : left.sortKey ≤ right.sortKey) :
    left.effectiveNs ≤ right.effectiveNs := by
  rcases Prod.Lex.le_iff.mp ordered with strict | ⟨equal, _⟩
  · exact strict.le
  · exact equal.le

theorem sortEvents_sorted (events : List GapEventV1) :
    (sortEvents events).Pairwise fun left right =>
      left.sortKey ≤ right.sortKey :=
  List.pairwise_insertionSort _ events

theorem sortEvents_perm (events : List GapEventV1) :
    (sortEvents events).Perm events :=
  List.perm_insertionSort _ events

@[simp]
theorem mem_sortEvents {event : GapEventV1} {events : List GapEventV1} :
    event ∈ sortEvents events ↔ event ∈ events :=
  (sortEvents_perm events).mem_iff

end GapEventV1

end ShadowDataPlane.Contracts
