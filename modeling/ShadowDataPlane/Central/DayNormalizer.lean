import ShadowDataPlane.Central.Deduplicator
import ShadowDataPlane.Central.TypedRow

/-!
# The normalizer of a day

`DayNormalizer.run` reads the raw chunks of a sealed day into typed files and
marks the events it has seen before; `build_d0_audit` sums up what is not
marked.

Chunks are given with the rows of their files, after `_verify_chunk` and
`_verify_parquet`; files of gaps, which the normalizer skips, are left out, as
are the start of the formal collection and the universe, which no typed row
depends on.  The typed files are written to a directory which was empty.
-/

namespace ShadowDataPlane.Central

open ShadowDataPlane.Contracts
open ShadowDataPlane.Foundation
open DecimalArithmetic

/-- A raw chunk which was verified. -/
structure RawChunk where
  chunkId : String
  rows : List RawRow

/-- `min_app_receive_realtime_ns`, which is checked against the rows. -/
def RawChunk.minRealtimeNs (chunk : RawChunk) : Nat :=
  (chunk.rows.map RawRow.appReceiveRealtimeNs).min?.getD 0

/-- The order in which chunks are read. -/
def RawChunk.Before (left right : RawChunk) : Prop :=
  left.minRealtimeNs < right.minRealtimeNs ∨
    left.minRealtimeNs = right.minRealtimeNs ∧ left.chunkId ≤ right.chunkId

instance : DecidableRel RawChunk.Before :=
  fun _ _ => inferInstanceAs (Decidable (_ ∨ _))

/-- Why the normalization of a day fails. -/
inductive NormalizeError where
  | row (problem : RowError)
  | conflictingPayload (identity : LogicalIdentity)
deriving DecidableEq, Repr

/-- The deduplicator of a day: identities and payload hashes by value. -/
abbrev DayDeduplicator := Deduplicator LogicalIdentity String

/-- The entries of a dedup checkpoint. -/
abbrev DedupCheckpoint := List (Observation LogicalIdentity String)

section Run

variable (builtins : Builtins) {δ : Type} [DecimalArithmetic δ]

/-- The mark of a typed row. -/
def TypedRow.mark (row : TypedRow δ) (isDuplicate : Bool) : TypedRow δ :=
  { row with header := { row.header with isDuplicate } }

/-- What is shown to the deduplicator for a row which has an identity. -/
def TypedRow.observation? (row : TypedRow δ) :
    Option (Observation LogicalIdentity String) :=
  (logicalIdentity row).map fun key =>
    ⟨key, row.header.payloadHash, row.header.appReceiveRealtimeNs⟩

/-- A row which was parsed is marked and kept. -/
def keepRow (dedup : DayDeduplicator) (typed : TypedRow δ) :
    Except NormalizeError (DayDeduplicator × TypedRow δ) :=
  match typed.observation? with
  | none => .ok (dedup, typed)
  | some event =>
      match dedup.observe event with
      | .error identity => .error (.conflictingPayload identity)
      | .ok (isDuplicate, after) => .ok (after, typed.mark isDuplicate)

/-- The rows of a chunk. -/
def normalizeRows (dedup : DayDeduplicator) :
    List RawRow → Except NormalizeError (DayDeduplicator × List (TypedRow δ))
  | [] => .ok (dedup, [])
  | row :: rest =>
      match parseTypedRow builtins row with
      | .error problem => .error (.row problem)
      | .ok none => normalizeRows dedup rest
      | .ok (some typed) => do
          let kept ← keepRow dedup typed
          let others ← normalizeRows kept.1 rest
          return (others.1, kept.2 :: others.2)

/-- The typed files by chunk, with the numbers of `NormalizeResult`. -/
structure TypedDay (δ : Type) where
  dedup : DayDeduplicator
  files : Dict String (List (TypedRow δ)) := Dict.empty
  rawEvents : Nat := 0
  typedEvents : Nat := 0
  duplicateEvents : Nat := 0
  outputFiles : Nat := 0

/-- One chunk; a file without rows is not written. -/
def normalizeChunk (day : TypedDay δ) (chunk : RawChunk) :
    Except NormalizeError (TypedDay δ) := do
  let done ← normalizeRows builtins day.dedup chunk.rows
  let counted := { day with
    dedup := done.1
    rawEvents := day.rawEvents + chunk.rows.length
    typedEvents := day.typedEvents + done.2.length
    duplicateEvents := day.duplicateEvents +
      done.2.countP fun row => row.header.isDuplicate }
  if done.2.isEmpty then return counted
  else
    return { counted with
      files := day.files.set chunk.chunkId done.2
      outputFiles := day.outputFiles + 1 }

/-- `DayNormalizer.run`, after the checkpoint of the day before. -/
def normalizeDay (checkpoint : DedupCheckpoint) (chunks : List RawChunk) :
    Except NormalizeError (TypedDay δ) :=
  (chunks.insertionSort RawChunk.Before).foldlM (normalizeChunk builtins)
    { dedup := Deduplicator.load checkpoint }

end Run

/-! ## The audit -/

/-- The totals of a trade stream. -/
structure TradeTotals (δ : Type) where
  events : Nat
  quantity : δ
  notional : δ
  nonRpiQuantity : δ
deriving DecidableEq

/-- The totals of a depth stream. -/
structure DepthTotals where
  events : Nat := 0
  levelUpdates : Nat := 0
deriving DecidableEq

/-- The sums of a day, one field for each audited stream. -/
structure AuditTotals (δ : Type) where
  trade : TradeTotals δ
  aggTrade : TradeTotals δ
  depth : DepthTotals := {}
  rpiDepth : DepthTotals := {}
deriving DecidableEq

section Audit

variable {δ : Type} [DecimalArithmetic δ]

/-- `_trade_totals`. -/
def tradeTotals : TradeTotals δ where
  events := 0
  quantity := ofInteger 0
  notional := ofInteger 0
  nonRpiQuantity := ofInteger 0

def TradeTotals.addTrade (totals : TradeTotals δ) (price quantity : δ)
    (nonRpiQuantity : Option δ) : TradeTotals δ where
  events := totals.events + 1
  quantity := add totals.quantity quantity
  notional := add totals.notional (mul price quantity)
  nonRpiQuantity :=
    match nonRpiQuantity with
    | none => totals.nonRpiQuantity
    | some quantity => add totals.nonRpiQuantity quantity

def DepthTotals.addDepth (totals : DepthTotals) (bids asks : List (δ × δ)) :
    DepthTotals where
  events := totals.events + 1
  levelUpdates := totals.levelUpdates + (bids.length + asks.length)

/-- One row of a typed file. -/
def AuditTotals.addRow (totals : AuditTotals δ) (row : TypedRow δ) :
    AuditTotals δ :=
  if row.header.isDuplicate then totals
  else
    match row.header.streamType, row.body with
    | .trade, .trade _ _ price quantity _ _ =>
        { totals with trade := totals.trade.addTrade price quantity none }
    | .aggTrade, .aggTrade _ _ price quantity _ _ _ _ nonRpiQuantity =>
        { totals with
          aggTrade := totals.aggTrade.addTrade price quantity nonRpiQuantity }
    | .depth, .depth _ _ _ _ _ bids asks =>
        { totals with depth := totals.depth.addDepth bids asks }
    | .rpiDepth, .depth _ _ _ _ _ bids asks =>
        { totals with rpiDepth := totals.rpiDepth.addDepth bids asks }
    | _, _ => totals

/-- The name of a typed file. -/
def typedFileName (chunkId : String) : String := chunkId ++ ".typed.parquet"

/-- The rows of all files, in the order of their names. -/
def auditedRows (files : Dict String (List (TypedRow δ))) :
    List (TypedRow δ) :=
  (files.entries.insertionSort fun left right =>
    typedFileName left.1 ≤ typedFileName right.1).flatMap Prod.snd

/-- The totals which `build_d0_audit` reports. -/
def buildD0Audit (files : Dict String (List (TypedRow δ))) : AuditTotals δ :=
  (auditedRows files).foldl AuditTotals.addRow
    { trade := tradeTotals, aggTrade := tradeTotals }

end Audit

end ShadowDataPlane.Central
