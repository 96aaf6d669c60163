import Mathlib.Data.Prod.Lex
import Mathlib.Data.String.Basic
import ShadowDataPlane.Contracts.UtcDay

/-!
# Chunks and their manifests

A chunk is a data file with a manifest beside it.  The manifest names the file,
its SHA-256 and its size, and the UTC day it belongs to; its `ChunkRefV1` part
is what the day inventory lists.

Paths are relative to the directory of the ready files.  A directory whose name
reads as a date or as a writer group is kept as such.
-/

namespace ShadowDataPlane.Contracts

/-- The writers of the collector. -/
inductive WriterGroup where
  | depth
  | tradesMarket
  | metadata
  | control
deriving DecidableEq, Repr

inductive ContentType where
  | parquet
  | gapJson
deriving DecidableEq, Repr

/-- A directory on the way to a file. -/
inductive PathPart where
  | date (utcDate : Nat)
  | writer (group : WriterGroup)
  | named (text : String)
deriving DecidableEq, Repr

/-- A path below the root, as its directories and the file name. -/
structure DataPath where
  directory : List PathPart
  name : String
deriving DecidableEq, Repr

/-- The name without its last suffix; a leading dot begins no suffix. -/
def stem (name : List Char) : List Char :=
  match (name.reverse.span (· ≠ '.')) with
  | (_, []) | ([], _) | (_, [_]) => name
  | (_, _ :: rest) => rest.reverse

/-- `with_suffix(".manifest.json")`. -/
def DataPath.manifest (path : DataPath) : DataPath :=
  { path with
    name := String.ofList (stem path.name.toList) ++ ".manifest.json" }

/-- `with_name(f".{name}.partial")`. -/
def DataPath.hidden (path : DataPath) : DataPath :=
  { path with name := "." ++ path.name ++ ".partial" }

/-- The line of a chunk in the inventory of its day. -/
structure ChunkRefV1 where
  chunkId : String
  dataPath : DataPath
  sha256 : String
  sizeBytes : Nat
  contentType : ContentType
deriving DecidableEq, Repr

/-- The key of a chunk in the inventory of its day. -/
def ChunkRefV1.identity (chunk : ChunkRefV1) : String ×ₗ String :=
  toLex (chunk.chunkId, chunk.sha256)

/-- What the manifest beside the file of a chunk says. -/
structure ChunkManifestV1 extends ChunkRefV1 where
  collectorId : String
  writerGroup : WriterGroup
  utcDate : Nat
  eventCount : Nat
  minAppReceiveRealtimeNs : Nat
  maxAppReceiveRealtimeNs : Nat
  dataContractHash : String
  universeHash : String
  createdAt : Nat
  timeRange : minAppReceiveRealtimeNs ≤ maxAppReceiveRealtimeNs := by decide
deriving DecidableEq

/-- `as_ref`. -/
def ChunkManifestV1.asRef (manifest : ChunkManifestV1) : ChunkRefV1 :=
  manifest.toChunkRefV1

/-- The acknowledgement of a chunk by its hash. -/
structure AckV1 where
  chunkId : String
  sha256 : String
  durableAt : Nat
deriving DecidableEq, Repr

/-- The sealed inventory of a day. -/
structure DayManifestV1 where
  collectorId : String
  utcDate : Nat
  sealedAt : Nat
  chunks : List ChunkRefV1
deriving DecidableEq

/-- How the bytes of a file are hashed, measured, written and parsed. -/
structure FileCodec (β : Type) where
  sha256 : β → String
  size : β → Nat
  empty : β
  manifestBytes : ChunkManifestV1 → β
  parseManifest : β → Option ChunkManifestV1
  parseDay : β → Option DayManifestV1
  parseManifest_manifestBytes :
    ∀ manifest, parseManifest (manifestBytes manifest) = some manifest

/-- Where the writers of the edge put a file of a day. -/
def relativePath (utcDate : Nat) (group : WriterGroup) (name : String) :
    DataPath where
  directory := [.date utcDate, .writer group]
  name := name

example : (relativePath 3 .control "gap-1.gap.json").manifest.name =
    "gap-1.gap.manifest.json" := by
  decide +kernel

end ShadowDataPlane.Contracts
