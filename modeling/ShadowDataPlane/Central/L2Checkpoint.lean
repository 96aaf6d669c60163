import ShadowDataPlane.Central.ConnectionBook
import ShadowDataPlane.Foundation.Dict

/-!
# End-of-day checkpoints

A day's reconstruction leaves a checkpoint for the next one: the
authoritative book if there is one, and every book whose snapshot still waits
for its bridge.  The validators of the two checkpoint models are fields, so a
checkpoint which the source refuses to build or to read does not exist here.

Level and hash texts are stored by value; `DepthDiffCheckpointV1` is therefore
the diff itself.
-/

namespace ShadowDataPlane.Central

open ShadowDataPlane.Foundation

/-- Why a reconstruction stops without writing its outputs. -/
inductive L2Error where
  | normalizedMarkerMissing
  | formalStartInvalid
  | previousUniverseInvalid
  | checkpointRequired
  | checkpointIdentityMismatch
  | checkpointMissesBoundary
  | checkpointHasNoConnection
  | checkpointRepeatsConnection
  | bookHasNoAnchor
  | anchoredCheckpointNotUnbridged
  | validCheckpointIncomplete
deriving DecidableEq, Repr

/-- A buffered diff as a checkpoint stores it. -/
abbrev DepthDiffCheckpointV1 := DepthDiff

/-- A book which has a snapshot but no bridge yet. -/
structure AnchoredBookCheckpointV1 where
  connectionId : String
  state : L2State
  previousUpdateId : Int
  anchorLastUpdateId : Int
  anchorReceivedNs : Nat
  bids : Levels
  asks : Levels
  pending : List DepthDiffCheckpointV1 := []
  unbridged : state ≠ .valid ∧ bids ≠ [] ∧ asks ≠ [] := by decide
deriving DecidableEq

/-- The state one day hands to the next. -/
structure L2CheckpointV1 where
  collectorId : String
  utcDate : Nat
  exchangeSymbol : String
  state : L2State
  connectionId : Option String := none
  previousUpdateId : Option Int := none
  validThroughNs : Option Nat := none
  bids : Levels := []
  asks : Levels := []
  anchoredBooks : List AnchoredBookCheckpointV1 := []
  complete : state = .valid →
    connectionId.isSome ∧ previousUpdateId.isSome ∧ validThroughNs.isSome ∧
      bids ≠ [] ∧ asks ≠ [] := by decide
  blank : state ≠ .valid →
    connectionId = none ∧ previousUpdateId = none ∧ validThroughNs = none ∧
      bids = [] ∧ asks = [] := by decide
deriving DecidableEq

namespace ConnectionBook

/-- Restore the authoritative book of a `VALID` checkpoint. -/
def fromCheckpoint (checkpoint : L2CheckpointV1) :
    Except L2Error ConnectionBook :=
  match checkpoint.state, checkpoint.connectionId with
  | .valid, some connectionId =>
      .ok
        { connectionId := connectionId
          state := .valid
          bids := bookSide checkpoint.bids
          asks := bookSide checkpoint.asks
          previousUpdateId := checkpoint.previousUpdateId }
  | _, _ => .error .checkpointHasNoConnection

/-- Restore a book which still waits for its bridge. -/
def fromAnchorCheckpoint (checkpoint : AnchoredBookCheckpointV1) :
    ConnectionBook :=
  { connectionId := checkpoint.connectionId
    state := checkpoint.state
    bids := bookSide checkpoint.bids
    asks := bookSide checkpoint.asks
    previousUpdateId := some checkpoint.previousUpdateId
    pending := checkpoint.pending
    anchorLastUpdateId := some checkpoint.anchorLastUpdateId
    anchorReceivedNs := some checkpoint.anchorReceivedNs }

/-- Whether a checkpoint carries the book as an anchored one. -/
def CarriesAnchor (book : ConnectionBook) : Prop :=
  book.anchorLastUpdateId ≠ none ∧ book.anchorReceivedNs ≠ none ∧
    book.bids.entries ≠ [] ∧ book.asks.entries ≠ []

instance (book : ConnectionBook) : Decidable book.CarriesAnchor :=
  inferInstanceAs (Decidable (_ ∧ _))

/-- Whether a checkpoint carries the book as the authoritative one. -/
def CarriesAuthority (book : ConnectionBook) : Prop :=
  book.state = .valid ∧ book.previousUpdateId.isSome ∧
    book.bids.entries ≠ [] ∧ book.asks.entries ≠ []

instance (book : ConnectionBook) : Decidable book.CarriesAuthority :=
  inferInstanceAs (Decidable (_ ∧ _))

end ConnectionBook

/-- Write an anchored book; the validator refuses one which is `VALID`. -/
def anchorCheckpoint (book : ConnectionBook) :
    Except L2Error AnchoredBookCheckpointV1 :=
  match book.previousUpdateId, book.anchorLastUpdateId,
      book.anchorReceivedNs with
  | some previousUpdateId, some anchorLastUpdateId, some anchorReceivedNs =>
      if unbridged : book.state ≠ .valid ∧ checkpointLevels book.bids ≠ [] ∧
          checkpointLevels book.asks ≠ [] then
        .ok
          { connectionId := book.connectionId
            state := book.state
            previousUpdateId := previousUpdateId
            anchorLastUpdateId := anchorLastUpdateId
            anchorReceivedNs := anchorReceivedNs
            bids := checkpointLevels book.bids
            asks := checkpointLevels book.asks
            pending := book.pending.filter fun diff =>
              anchorLastUpdateId ≤ diff.finalUpdateId
            unbridged := unbridged }
      else .error .anchoredCheckpointNotUnbridged
  | _, _, _ => .error .bookHasNoAnchor

/-- The identity under which a day's files are written. -/
structure L2DayReconstructor where
  collectorId : String
  utcDate : Nat
  exchangeSymbol : String
deriving DecidableEq

/-- The checkpoint of a day which ends without an authoritative book. -/
def unanchoredCheckpoint
    (day : L2DayReconstructor)
    (anchoredBooks : List AnchoredBookCheckpointV1) : L2CheckpointV1 :=
  { collectorId := day.collectorId
    utcDate := day.utcDate
    exchangeSymbol := day.exchangeSymbol
    state := .unanchored
    anchoredBooks := anchoredBooks }

/-- The checkpoint of a day which ends with an authoritative book. -/
def validCheckpoint
    (day : L2DayReconstructor) (validThroughNs : Nat)
    (anchoredBooks : List AnchoredBookCheckpointV1)
    (book : ConnectionBook) (carried : book.CarriesAuthority) :
    L2CheckpointV1 :=
  { collectorId := day.collectorId
    utcDate := day.utcDate
    exchangeSymbol := day.exchangeSymbol
    state := .valid
    connectionId := some book.connectionId
    previousUpdateId := book.previousUpdateId
    validThroughNs := some validThroughNs
    bids := checkpointLevels book.bids
    asks := checkpointLevels book.asks
    anchoredBooks := anchoredBooks
    complete := fun _ =>
      ⟨rfl, carried.2.1, rfl, carried.2.2.1, carried.2.2.2⟩
    blank := fun invalid => (invalid rfl).elim }

/--
Build the checkpoint of a finished day from the authoritative book, if there
is one, and all books.
-/
def buildCheckpoint
    (day : L2DayReconstructor) (validThroughNs : Nat)
    (book : Option ConnectionBook) (books : Dict String ConnectionBook) :
    Except L2Error L2CheckpointV1 := do
  let anchoredBooks ←
    (books.values.filter fun candidate => candidate.CarriesAnchor).mapM
      anchorCheckpoint
  match book with
  | some book =>
      if carried : book.CarriesAuthority then
        return validCheckpoint day validThroughNs anchoredBooks book carried
      else return unanchoredCheckpoint day anchoredBooks
  | none => return unanchoredCheckpoint day anchoredBooks

end ShadowDataPlane.Central
