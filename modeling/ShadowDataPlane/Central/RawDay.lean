import ShadowDataPlane.Central.Puller
import ShadowDataPlane.Contracts.Gap
import ShadowDataPlane.Foundation.Result

/-!
# A raw day at the centre

`DayNormalizer` reads the sealed day manifest, then the manifest beside every
chunk it lists, and checks each against the day manifest, the file it stands
for and what the Parquet footer says.  `build_transport_gap_ledger` reads the
gap artifacts of the same day.

What pyarrow reads from a footer is a `ParquetFile`.  Errors keep the path
which their text ends with.
-/

namespace ShadowDataPlane.Central

open ShadowDataPlane.Foundation
open ShadowDataPlane.Contracts

/-! ## Dates -/

/-- The year, month and day of a UTC date. -/
def civilDate (utcDate : Nat) : Nat × Nat × Nat :=
  -- Years are counted from March, so that a leap day comes last.
  let days := utcDate + 719468
  let era := days / 146097
  let dayOfEra := days % 146097
  let yearOfEra :=
    (dayOfEra - dayOfEra / 1460 + dayOfEra / 36524 - dayOfEra / 146096) / 365
  let dayOfYear :=
    dayOfEra - (365 * yearOfEra + yearOfEra / 4 - yearOfEra / 100)
  let shifted := (5 * dayOfYear + 2) / 153
  let month := if shifted < 10 then shifted + 3 else shifted - 9
  (yearOfEra + era * 400 + (if month ≤ 2 then 1 else 0), month,
    dayOfYear - (153 * shifted + 2) / 5 + 1)

def padded (width : Nat) (number : Nat) : String :=
  let digits := toString number
  String.ofList (List.replicate (width - digits.length) '0') ++ digits

/-- `date.isoformat`. -/
def isoFormat (utcDate : Nat) : String :=
  let (year, month, day) := civilDate utcDate
  padded 4 year ++ "-" ++ padded 2 month ++ "-" ++ padded 2 day

example : isoFormat 20512 = "2026-02-28" ∧ isoFormat 11016 = "2000-02-29" := by
  decide +kernel

/-- The text of a `WriterGroup`. -/
def writerValue : WriterGroup → String
  | .depth => "depth"
  | .tradesMarket => "trades_market"
  | .metadata => "metadata"
  | .control => "control"

/-! ## Manifests -/

/-- Why the inventory of a day does not load. -/
inductive LoadError where
  | missingDay (place : String × DataPath)
  | invalidDay
  | identityMismatch
  | missingManifest (place : String × DataPath)
  | invalidManifest
  | disagreement (place : String × DataPath)
  | collectorMismatch (place : String × DataPath)
  | dateMismatch (place : String × DataPath)
  | pathMismatch (place : String × DataPath)
deriving DecidableEq, Repr

/-- `_day_manifest_path`. -/
def dayManifestPath (collectorId : String) (utcDate : Nat) :
    String × DataPath :=
  (collectorId, ⟨[.named "day-manifests", .date utcDate], "SEALED.json"⟩)

/-- The place of the manifest beside a chunk. -/
def manifestPath (collectorId : String) (chunk : ChunkRefV1) :
    String × DataPath :=
  manifestBeside (collectorId, chunk.dataPath)

section Loading

variable {β : Type} (codec : FileCodec β) (raw : Dict (String × DataPath) β)
  (collectorId : String) (utcDate : Nat)

/-- `_load_day_manifest`. -/
def loadDayManifest : Except LoadError DayManifestV1 :=
  match raw.get? (dayManifestPath collectorId utcDate) with
  | none => .error (.missingDay (dayManifestPath collectorId utcDate))
  | some bytes =>
      match codec.parseDay bytes with
      | none => .error .invalidDay
      | some day =>
          if day.collectorId ≠ collectorId ∨ day.utcDate ≠ utcDate then
            .error .identityMismatch
          else .ok day

/-- One turn of the loop of `_load_chunk_manifests`. -/
def loadChunkManifest (chunk : ChunkRefV1) :
    Except LoadError ChunkManifestV1 :=
  match raw.get? (manifestPath collectorId chunk) with
  | none => .error (.missingManifest (manifestPath collectorId chunk))
  | some bytes =>
      match codec.parseManifest bytes with
      | none => .error .invalidManifest
      | some manifest =>
          if manifest.asRef ≠ chunk then
            .error (.disagreement (manifestPath collectorId chunk))
          else if manifest.collectorId ≠ collectorId then
            .error (.collectorMismatch (manifestPath collectorId chunk))
          else if manifest.utcDate ≠ utcDate then
            .error (.dateMismatch (manifestPath collectorId chunk))
          else if manifest.dataPath.directory ≠
              [.date utcDate, .writer manifest.writerGroup] then
            .error (.pathMismatch (manifestPath collectorId chunk))
          else .ok manifest

/-- `_load_chunk_manifests`. -/
def loadChunkManifests (day : DayManifestV1) :
    Except LoadError (List ChunkManifestV1) :=
  day.chunks.mapM (loadChunkManifest codec raw collectorId utcDate)

variable {codec raw collectorId utcDate}

theorem loadDayManifest_eq_ok
    {bytes : β} {day : DayManifestV1}
    (found : raw.get? (dayManifestPath collectorId utcDate) = some bytes)
    (parsed : codec.parseDay bytes = some day)
    (collector : day.collectorId = collectorId)
    (date : day.utcDate = utcDate) :
    loadDayManifest codec raw collectorId utcDate = .ok day := by
  simp [loadDayManifest, found, parsed, collector, date]

theorem loadChunkManifest_ok_iff
    {chunk : ChunkRefV1} {manifest : ChunkManifestV1} :
    loadChunkManifest codec raw collectorId utcDate chunk = .ok manifest ↔
      ∃ bytes,
        raw.get? (manifestPath collectorId chunk) = some bytes ∧
          codec.parseManifest bytes = some manifest ∧
          manifest.asRef = chunk ∧ manifest.collectorId = collectorId ∧
          manifest.utcDate = utcDate ∧
          manifest.dataPath.directory =
            [.date utcDate, .writer manifest.writerGroup] := by
  unfold loadChunkManifest
  cases found : raw.get? (manifestPath collectorId chunk) with
  | none => simp
  | some bytes =>
      cases parsed : codec.parseManifest bytes with
      | none => simp [parsed]
      | some other =>
          constructor
          · intro loaded
            simp only [parsed] at loaded
            split_ifs at loaded with asRef collector date path
            cases loaded
            exact ⟨bytes, rfl, parsed, not_not.mp asRef,
              not_not.mp collector, not_not.mp date, not_not.mp path⟩
          · rintro ⟨_, ⟨⟩, same, asRef, collector, date, path⟩
            cases Option.some.inj (parsed.symm.trans same)
            simp [parsed, asRef, collector, date, path]

/-- What was loaded is what the day manifest lists. -/
theorem map_asRef_of_loaded
    {day : DayManifestV1} {manifests : List ChunkManifestV1}
    (loaded : loadChunkManifests codec raw collectorId utcDate day =
      .ok manifests) :
    manifests.map ChunkManifestV1.asRef = day.chunks := by
  have related : List.Forall₂ (fun chunk manifest =>
      chunk = ChunkManifestV1.asRef manifest) day.chunks manifests := by
    refine (mapM_forall₂ loaded).imp ?_
    intro chunk manifest one
    rcases loadChunkManifest_ok_iff.mp one with ⟨_, _, _, same, _⟩
    exact same.symm
  rw [← List.forall₂_map_right_iff, List.forall₂_eq_eq_eq] at related
  exact related.symm

theorem loadChunkManifest_eq_missing
    {chunk : ChunkRefV1}
    (missing : raw.get? (manifestPath collectorId chunk) = none) :
    loadChunkManifest codec raw collectorId utcDate chunk =
      .error (.missingManifest (manifestPath collectorId chunk)) := by
  simp [loadChunkManifest, missing]

end Loading

/-! ## Chunks -/

/-- The types of the columns of a raw file. -/
inductive ColumnType where
  | int16
  | int64
  | string
  | dictionary
  | binary
deriving DecidableEq, Repr

/-- A column of a Parquet schema. -/
structure Field where
  name : String
  type : ColumnType
  nullable : Bool := true
deriving DecidableEq, Repr

/-- `RAW_EVENT_SCHEMA_V1`. -/
def rawEventSchemaV1 : List Field :=
  [{ name := "schema_version", type := .int16, nullable := false },
    { name := "exchange_symbol", type := .string },
    { name := "stream_type", type := .dictionary, nullable := false },
    { name := "collector_id", type := .string, nullable := false },
    { name := "boot_id", type := .string, nullable := false },
    { name := "segment_id", type := .string, nullable := false },
    { name := "connection_id", type := .string, nullable := false },
    { name := "receive_seq", type := .int64, nullable := false },
    { name := "app_receive_realtime_ns", type := .int64, nullable := false },
    { name := "app_receive_monotonic_ns", type := .int64, nullable := false },
    { name := "payload_bytes", type := .binary, nullable := false },
    { name := "request_id", type := .string },
    { name := "request_realtime_ns", type := .int64 }]

/-- The least and the greatest value of a column, where both are known. -/
structure Statistics where
  min : Int
  max : Int
deriving DecidableEq, Repr

/-- The statistics of a row group, column by column. -/
structure RowGroup where
  columns : List (Option Statistics)
deriving DecidableEq, Repr

/-- What the footer of a Parquet file says. -/
structure ParquetFile where
  fields : List Field
  metadata : Dict String String
  numRows : Nat
  rowGroups : List RowGroup
deriving DecidableEq

/-- Why the file of a chunk does not fit its manifest. -/
inductive ChunkError where
  | missingFile
  | integrity
  | schema
  | metadata (keys : List String)
  | eventCount
  | noStatistics
  | timeRange
  | outsideDate
deriving DecidableEq, Repr

section Verifying

variable {β : Type} (codec : FileCodec β) (raw : Dict (String × DataPath) β)

/-- `_verify_chunk`. -/
def verifyChunk (collectorId : String) (manifest : ChunkManifestV1) :
    Except ChunkError Unit :=
  match raw.get? (collectorId, manifest.dataPath) with
  | none => .error .missingFile
  | some content =>
      if codec.size content ≠ manifest.sizeBytes ∨
          codec.sha256 content ≠ manifest.sha256 then
        .error .integrity
      else .ok ()

/-- The metadata which the file of a manifest carries. -/
def expectedMetadata (manifest : ChunkManifestV1) : List (String × String) :=
  [("chunk_id", manifest.chunkId),
    ("collector_id", manifest.collectorId),
    ("data_contract_hash", manifest.dataContractHash),
    ("universe_hash", manifest.universeHash),
    ("utc_date", isoFormat manifest.utcDate),
    ("writer_group", writerValue manifest.writerGroup)]

/-- The keys whose values differ. -/
def mismatched (file : ParquetFile) (manifest : ChunkManifestV1) :
    List String :=
  ((expectedMetadata manifest).filter fun entry =>
    file.metadata.get? entry.1 ≠ some entry.2).map Prod.fst

/-- The receive times of every row group, as far as they are known. -/
def receiveStatistics (file : ParquetFile) : List (Option Statistics) :=
  let columnIndex :=
    file.fields.findIdx fun field => field.name = "app_receive_realtime_ns"
  file.rowGroups.map fun group => (group.columns[columnIndex]?).join

/-- The last checks of `_verify_parquet`, on the receive times. -/
def verifyReceiveTimes (utcDate : Nat) (statistics : List (Option Statistics))
    (manifest : ChunkManifestV1) : Except ChunkError Unit :=
  if statistics = [] ∨ none ∈ statistics then .error .noStatistics
  else
    match (statistics.reduceOption.map Statistics.min).min?,
        (statistics.reduceOption.map Statistics.max).max? with
    | some earliest, some latest =>
        if earliest ≠ manifest.minAppReceiveRealtimeNs ∨
            latest ≠ manifest.maxAppReceiveRealtimeNs then
          .error .timeRange
        else if midnightNs utcDate ≤ earliest ∧ earliest ≤ latest ∧
            latest < midnightNs (utcDate + 1) then
          .ok ()
        else .error .outsideDate
    | _, _ => .error .noStatistics

/-- `_verify_parquet`. -/
def verifyParquet (utcDate : Nat) (file : ParquetFile)
    (manifest : ChunkManifestV1) : Except ChunkError Unit :=
  if file.fields ≠ rawEventSchemaV1 then .error .schema
  else if mismatched file manifest ≠ [] then
    .error (.metadata (mismatched file manifest))
  else if file.numRows ≠ manifest.eventCount then .error .eventCount
  else verifyReceiveTimes utcDate (receiveStatistics file) manifest

variable {codec raw}

theorem verifyChunk_eq_ok
    {collectorId : String} {manifest : ChunkManifestV1} {content : β}
    (found : raw.get? (collectorId, manifest.dataPath) = some content)
    (size : codec.size content = manifest.sizeBytes)
    (hash : codec.sha256 content = manifest.sha256) :
    verifyChunk codec raw collectorId manifest = .ok () := by
  simp [verifyChunk, found, size, hash]

end Verifying

/-! ## The gap ledger -/

/-- Why the gap ledger of a day cannot be built. -/
inductive LedgerError where
  | missingDay
  | invalidDay
  | missingArtifact (place : String × DataPath)
  | integrity (place : String × DataPath)
  | invalidEvent (place : String × DataPath)
deriving DecidableEq, Repr

section Ledger

variable {β : Type} (codec : FileCodec β) (parseGap : β → Option GapEventV1)
  (raw : Dict (String × DataPath) β) (collectorId : String)

/-- The event of a gap artifact. -/
def readArtifact (chunk : ChunkRefV1) : Except LedgerError GapEventV1 :=
  let place := (collectorId, chunk.dataPath)
  match raw.get? place with
  | none => .error (.missingArtifact place)
  | some content =>
      if codec.size content ≠ chunk.sizeBytes ∨
          codec.sha256 content ≠ chunk.sha256 then
        .error (.integrity place)
      else
        match parseGap content with
        | none => .error (.invalidEvent place)
        | some event => .ok event

/-- The chunks which are gap artifacts. -/
def gapChunks (day : DayManifestV1) : List ChunkRefV1 :=
  day.chunks.filter fun chunk => chunk.contentType = .gapJson

/-- The events which `build_transport_gap_ledger` writes. -/
def transportGapLedger (utcDate : Nat) :
    Except LedgerError (List GapEventV1) :=
  match raw.get? (dayManifestPath collectorId utcDate) with
  | none => .error .missingDay
  | some bytes =>
      match codec.parseDay bytes with
      | none => .error .invalidDay
      | some day => do
          let events ← (gapChunks day).mapM
            (readArtifact codec parseGap raw collectorId)
          return GapEventV1.sortEvents events

variable {codec parseGap raw collectorId}

/-- An artifact which is what the day manifest says can only fail to parse. -/
theorem readArtifact_error
    {chunk : ChunkRefV1} {content : β} {problem : LedgerError}
    (found : raw.get? (collectorId, chunk.dataPath) = some content)
    (size : codec.size content = chunk.sizeBytes)
    (hash : codec.sha256 content = chunk.sha256)
    (failed : readArtifact codec parseGap raw collectorId chunk =
      .error problem) :
    parseGap content = none := by
  cases parsed : parseGap content with
  | none => rfl
  | some event =>
      simp [readArtifact, found, size, hash, parsed] at failed

/-- The ledger of a day which can be read fails with one of its artifacts. -/
theorem transportGapLedger_error
    {utcDate : Nat} {bytes : β} {day : DayManifestV1} {problem : LedgerError}
    (found : raw.get? (dayManifestPath collectorId utcDate) = some bytes)
    (parsed : codec.parseDay bytes = some day)
    (failed : transportGapLedger codec parseGap raw collectorId utcDate =
      .error problem) :
    ∃ chunk ∈ gapChunks day,
      readArtifact codec parseGap raw collectorId chunk = .error problem := by
  simp only [transportGapLedger, found, parsed] at failed
  cases read : (gapChunks day).mapM
      (readArtifact codec parseGap raw collectorId) with
  | error first =>
      rw [read] at failed
      cases failed
      exact exists_error_of_mapM read
  | ok events =>
      rw [read] at failed
      cases failed

end Ledger

end ShadowDataPlane.Central
