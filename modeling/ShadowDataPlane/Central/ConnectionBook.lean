import Mathlib.Data.Finset.Insert
import Mathlib.Data.Rat.Defs
import Mathlib.Algebra.Order.Ring.Rat
import ShadowDataPlane.Foundation.OrderedMap

/-!
# The book of one connection

`ConnectionBook` is the update-ID state machine of one WebSocket connection.
A book which is not `VALID` buffers its diffs; a snapshot anchors it, and the
first buffered diff whose range contains the snapshot's update ID bridges it
to `VALID`.  From there every diff has to name its predecessor.

The two sides are keyed by price.  Decimal texts are compared and stored by
value, so a side is a map over the rationals in canonical order.
-/

namespace ShadowDataPlane.Central

open ShadowDataPlane.Foundation

/-- The exact value of a decimal text. -/
abbrev Decimal := ℚ

/-- One side of a book, price to quantity. -/
abbrev BookSide := OrderedMap Decimal Decimal

/-- Price and quantity pairs, as rows and checkpoints list them. -/
abbrev Levels := List (Decimal × Decimal)

/-- The side a full list of levels describes; empty levels are dropped. -/
def bookSide (levels : Levels) : BookSide :=
  OrderedMap.ofListFilter (fun level => level.2 ≠ 0) levels

/-- Apply one level update; a zero quantity deletes its price. -/
def applyLevel (side : BookSide) (level : Decimal × Decimal) : BookSide :=
  if level.2 = 0 then side.erase level.1 else side.insert level.1 level.2

/-- Apply level updates in order. -/
def applyLevels (side : BookSide) (levels : Levels) : BookSide :=
  levels.foldl applyLevel side

/-- The levels of a side in price order. -/
def checkpointLevels (side : BookSide) : Levels := side.entries

/-- A side holding no zero quantity, as every reachable side does. -/
def Tradable (side : BookSide) : Prop :=
  ∀ level ∈ side.entries, level.2 ≠ 0

theorem tradable_empty : Tradable OrderedMap.empty := by
  intro level member
  simp [OrderedMap.empty] at member

theorem bookSide_tradable (levels : Levels) : Tradable (bookSide levels) := by
  have step : ∀ (levels : Levels) (side : BookSide), Tradable side →
      Tradable
        (levels.foldl
          (OrderedMap.insertIf fun level => level.2 ≠ 0) side) := by
    intro levels
    induction levels with
    | nil => exact fun side tradable => tradable
    | cons level rest induction =>
        intro side tradable
        refine induction _ ?_
        unfold OrderedMap.insertIf
        split
        next kept =>
          exact OrderedMap.forall_insert tradable (by simpa using kept)
        next => exact tradable
  exact step levels _ tradable_empty

theorem applyLevels_tradable
    {side : BookSide} (tradable : Tradable side) (levels : Levels) :
    Tradable (applyLevels side levels) := by
  unfold applyLevels
  induction levels generalizing side with
  | nil => exact tradable
  | cons level rest induction =>
      refine induction ?_
      unfold applyLevel
      split
      next => exact OrderedMap.forall_erase tradable
      next nonzero => exact OrderedMap.forall_insert tradable nonzero

/-- A side survives being written to a checkpoint and read back. -/
theorem bookSide_checkpointLevels
    {side : BookSide} (tradable : Tradable side) :
    bookSide (checkpointLevels side) = side :=
  OrderedMap.ofListFilter_entries _ side fun level member => by
    simpa using tradable level member

/-- How far the book of a connection may be trusted. -/
inductive L2State where
  | unanchored
  | valid
  | gapped
deriving DecidableEq, Repr

/-- The update IDs and payload by which a repeated diff is recognised. -/
structure DiffIdentity where
  firstUpdateId : Int
  finalUpdateId : Int
  previousFinalUpdateId : Int
  payloadHash : List UInt8
deriving DecidableEq

/-- One depth update with the range of its update IDs. -/
structure DepthDiff where
  connectionId : String
  receiveSeq : Nat
  receivedNs : Nat
  firstUpdateId : Int
  finalUpdateId : Int
  previousFinalUpdateId : Int
  payloadHash : List UInt8
  bids : Levels
  asks : Levels
deriving DecidableEq

def DepthDiff.identity (diff : DepthDiff) : DiffIdentity :=
  ⟨diff.firstUpdateId, diff.finalUpdateId, diff.previousFinalUpdateId,
    diff.payloadHash⟩

/-- The diff's update range contains a snapshot's update ID. -/
def DepthDiff.Bridges (diff : DepthDiff) (lastUpdateId : Int) : Prop :=
  diff.firstUpdateId ≤ lastUpdateId ∧ lastUpdateId ≤ diff.finalUpdateId

instance (diff : DepthDiff) (lastUpdateId : Int) :
    Decidable (diff.Bridges lastUpdateId) :=
  inferInstanceAs (Decidable (_ ∧ _))

/-- A full book with the last update ID it contains. -/
structure DepthSnapshot where
  connectionId : String
  receiveSeq : Nat
  receivedNs : Nat
  lastUpdateId : Int
  bids : Levels
  asks : Levels
deriving DecidableEq

/-- What a row has changed about the state of a book. -/
structure StateChange where
  connectionId : String
  atNs : Nat
  state : L2State
  updateId : Option Int
  reason : String
deriving DecidableEq

/-- The book of one connection with the diffs it buffers. -/
structure ConnectionBook where
  connectionId : String
  state : L2State := .unanchored
  bids : BookSide := OrderedMap.empty
  asks : BookSide := OrderedMap.empty
  previousUpdateId : Option Int := none
  pending : List DepthDiff := []
  seenDiffs : Finset DiffIdentity := ∅
  anchorLastUpdateId : Option Int := none
  anchorReceivedNs : Option Nat := none
deriving DecidableEq

namespace ConnectionBook

/-- Apply the levels of one diff. -/
def apply (book : ConnectionBook) (diff : DepthDiff) : ConnectionBook :=
  { book with
    bids := applyLevels book.bids diff.bids
    asks := applyLevels book.asks diff.asks
    previousUpdateId := some diff.finalUpdateId }

/-- Forget everything but the connection and the diffs already seen. -/
def invalidate (book : ConnectionBook) : ConnectionBook :=
  { book with
    state := .gapped
    bids := OrderedMap.empty
    asks := OrderedMap.empty
    previousUpdateId := none
    pending := []
    anchorLastUpdateId := none
    anchorReceivedNs := none }

/--
Apply buffered diffs while each names its predecessor; the first which does
not is returned.
-/
def applyBuffered :
    ConnectionBook → List DepthDiff → ConnectionBook × Option DepthDiff
  | book, [] => (book, none)
  | book, diff :: rest =>
      if some diff.previousFinalUpdateId ≠ book.previousUpdateId then
        (book, some diff)
      else applyBuffered (book.apply diff) rest

/-- Stable sort by receive sequence. -/
def sortBySequence (diffs : List DepthDiff) : List DepthDiff :=
  diffs.insertionSort fun left right => left.receiveSeq ≤ right.receiveSeq

/-- The buffered diffs a snapshot does not already contain, in order. -/
def candidates (diffs : List DepthDiff) (lastUpdateId : Int) :
    List DepthDiff :=
  (sortBySequence diffs).filter fun diff => lastUpdateId ≤ diff.finalUpdateId

/-- Look for a bridge between the anchoring snapshot and the buffered diffs. -/
def tryBridge (book : ConnectionBook) : ConnectionBook × Option StateChange :=
  match book.anchorLastUpdateId, book.anchorReceivedNs with
  | some anchorLastUpdateId, some anchorReceivedNs =>
      let candidates := candidates book.pending anchorLastUpdateId
      match candidates.dropWhile fun diff =>
          ¬ diff.Bridges anchorLastUpdateId with
      | [] => ({ book with pending := candidates }, none)
      | bridge :: rest =>
          match (book.apply bridge).applyBuffered rest with
          | (book, some diff) =>
              ({ book.invalidate with pending := [diff] },
                some
                  { connectionId := book.connectionId
                    atNs := diff.receivedNs
                    state := .gapped
                    updateId := some diff.finalUpdateId
                    reason := "buffered_pu_discontinuity" })
          | (book, none) =>
              ({ book with
                  pending := []
                  state := .valid
                  anchorLastUpdateId := none
                  anchorReceivedNs := none },
                some
                  { connectionId := book.connectionId
                    atNs := max anchorReceivedNs bridge.receivedNs
                    state := .valid
                    updateId := book.previousUpdateId
                    reason := "snapshot_bridge" })
  | _, _ => (book, none)

def onDiff (book : ConnectionBook) (diff : DepthDiff) :
    ConnectionBook × Option StateChange :=
  if diff.identity ∈ book.seenDiffs then (book, none)
  else
    let book := { book with seenDiffs := insert diff.identity book.seenDiffs }
    if book.state ≠ .valid then
      { book with pending := book.pending ++ [diff] }.tryBridge
    else if some diff.previousFinalUpdateId ≠ book.previousUpdateId then
      ({ book.invalidate with pending := [diff] },
        some
          { connectionId := book.connectionId
            atNs := diff.receivedNs
            state := .gapped
            updateId := some diff.finalUpdateId
            reason := "pu_discontinuity" })
    else (book.apply diff, none)

/-- A snapshot replaces both sides and anchors the book, whatever its state. -/
def onSnapshot (book : ConnectionBook) (snapshot : DepthSnapshot) :
    ConnectionBook × Option StateChange :=
  { book with
    bids := bookSide snapshot.bids
    asks := bookSide snapshot.asks
    previousUpdateId := some snapshot.lastUpdateId
    anchorLastUpdateId := some snapshot.lastUpdateId
    anchorReceivedNs := some snapshot.receivedNs }.tryBridge

end ConnectionBook

/-- A depth row of the typed day: a diff or a snapshot. -/
inductive DepthRow where
  | depth (diff : DepthDiff)
  | depthSnapshot (snapshot : DepthSnapshot)
deriving DecidableEq

namespace DepthRow

def connectionId : DepthRow → String
  | .depth diff => diff.connectionId
  | .depthSnapshot snapshot => snapshot.connectionId

def receivedNs : DepthRow → Nat
  | .depth diff => diff.receivedNs
  | .depthSnapshot snapshot => snapshot.receivedNs

end DepthRow

/-- Deliver one row to the book of its connection. -/
def ConnectionBook.onRow (book : ConnectionBook) :
    DepthRow → ConnectionBook × Option StateChange
  | .depth diff => book.onDiff diff
  | .depthSnapshot snapshot => book.onSnapshot snapshot

end ShadowDataPlane.Central
