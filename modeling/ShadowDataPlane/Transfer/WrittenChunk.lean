import Mathlib.Data.List.ReduceOption
import ShadowDataPlane.Central.RawDay
import ShadowDataPlane.Edge.ChunkIds

/-!
# What the writers write and the normalizer reads

`ChunkSession` writes its rows in batches, names itself in the metadata of the
file and puts the number of its rows and their receive times into the manifest.
`_verify_parquet` holds the footer of a file against a manifest.

Whatever the batches are, and however pyarrow splits them into row groups, the
footer of a finished chunk agrees with the manifest of that chunk and with that
of no other chunk of the pool (`written_chunk_verified_iff`).
-/

namespace ShadowDataPlane.Transfer

open ShadowDataPlane.Foundation
open ShadowDataPlane.Contracts
open ShadowDataPlane.Central
open ShadowDataPlane.Edge

/-! ## Extremes of parts -/

section Extremes

variable {α : Type*} (before : α → α → Prop)

/-- An item which comes before all items. -/
def IsExtreme (items : List α) (item : α) : Prop :=
  item ∈ items ∧ ∀ other ∈ items, before item other

variable {before}

/-- The extreme of all parts is the extreme of their extremes. -/
theorem isExtreme_flatten_iff
    (trans : ∀ first second third, before first second →
      before second third → before first third)
    (antisymm : ∀ first second, before first second →
      before second first → first = second)
    {parts : List (List α)} {extremes : List α}
    (ofPart : ∀ part ∈ parts, ∃ extreme ∈ extremes,
      IsExtreme before part extreme)
    (isPart : ∀ extreme ∈ extremes, ∃ part ∈ parts,
      IsExtreme before part extreme) (item : α) :
    IsExtreme before extremes item ↔
      IsExtreme before parts.flatten item := by
  constructor
  · rintro ⟨member, first⟩
    rcases isPart item member with ⟨part, inParts, inPart, _⟩
    refine ⟨List.mem_flatten.mpr ⟨part, inParts, inPart⟩, ?_⟩
    intro other isOther
    rcases List.mem_flatten.mp isOther with ⟨own, isOwn, inOwn⟩
    rcases ofPart own isOwn with ⟨extreme, isExtreme, _, least⟩
    exact trans _ _ _ (first extreme isExtreme) (least other inOwn)
  · rintro ⟨member, first⟩
    rcases List.mem_flatten.mp member with ⟨part, inParts, inPart⟩
    rcases ofPart part inParts with ⟨extreme, isExtreme, inOwn, least⟩
    have same : item = extreme := antisymm _ _
      (first extreme (List.mem_flatten.mpr ⟨part, inParts, inOwn⟩))
      (least item inPart)
    refine ⟨same ▸ isExtreme, ?_⟩
    intro other isOther
    rcases isPart other isOther with ⟨own, isOwn, inOther, _⟩
    exact first other (List.mem_flatten.mpr ⟨own, isOwn, inOther⟩)

end Extremes

/-! ## The footer of a file -/

/-- The receive times of rows as a column of the file has them. -/
def receiveColumn (rows : List RawEvent) : List Int :=
  rows.map fun event => (event.appReceiveRealtimeNs : Int)

/-- What pyarrow notes of the receive times of a row group. -/
def statisticsOf (part : List RawEvent) : Option Statistics :=
  match (receiveColumn part).min?, (receiveColumn part).max? with
  | some least, some greatest => some ⟨least, greatest⟩
  | _, _ => none

/-- What every chunk of a pool carries besides its own values. -/
structure PoolIdentity where
  collectorId : String
  dataContractHash : String
  chunkId : Nat → String

/-- What `finish` reads from the file and the clock. -/
structure FileFacts where
  sha256 : String
  sizeBytes : Nat
  createdAt : Nat
deriving DecidableEq

/-- The metadata of `ChunkSession`. -/
def chunkMetadata (identity : PoolIdentity) (chunk : FinishedChunk) :
    Dict String String :=
  (((((Dict.empty.set "data_contract_hash" identity.dataContractHash).set
    "universe_hash" chunk.tag.hash).set
    "collector_id" identity.collectorId).set
    "writer_group" (writerValue chunk.writerGroup)).set
    "utc_date" (isoFormat chunk.utcDate)).set
    "chunk_id" (identity.chunkId chunk.chunkId)

/-- The manifest of `finish`, which is refused if its times are reversed. -/
def finishManifest (identity : PoolIdentity) (facts : FileFacts)
    (chunk : FinishedChunk) : Option ChunkManifestV1 :=
  if ordered : chunk.minAppReceiveRealtimeNs ≤
      chunk.maxAppReceiveRealtimeNs then
    some
      { chunkId := identity.chunkId chunk.chunkId
        dataPath := relativePath chunk.utcDate chunk.writerGroup
          (identity.chunkId chunk.chunkId ++ ".parquet")
        sha256 := facts.sha256
        sizeBytes := facts.sizeBytes
        contentType := .parquet
        collectorId := identity.collectorId
        writerGroup := chunk.writerGroup
        utcDate := chunk.utcDate
        eventCount := chunk.eventCount
        minAppReceiveRealtimeNs := chunk.minAppReceiveRealtimeNs
        maxAppReceiveRealtimeNs := chunk.maxAppReceiveRealtimeNs
        dataContractHash := identity.dataContractHash
        universeHash := chunk.tag.hash
        createdAt := facts.createdAt
        timeRange := ordered }
  else none

/-- A file with these rows, in row groups none of which is empty. -/
structure Holds (parts : List (List RawEvent)) (file : ParquetFile) :
    Prop where
  nonempty : ∀ part ∈ parts, part ≠ []
  numRows : file.numRows = parts.flatten.length
  statistics : receiveStatistics file = parts.map statisticsOf

/-- What pyarrow writes for a chunk whose rows it was given in parts. -/
structure Written (identity : PoolIdentity) (chunk : FinishedChunk)
    (parts : List (List RawEvent)) (file : ParquetFile) : Prop
    extends Holds parts file where
  rows : parts.flatten = chunk.rows
  fields : file.fields = rawEventSchemaV1
  metadata : file.metadata = chunkMetadata identity chunk

/-! ## What the check accepts -/

section Accepting

variable {parts : List (List RawEvent)} {file : ParquetFile}
variable {manifest : ChunkManifestV1} {utcDate : Nat}

theorem isExtreme_min?_iff {items : List Int} {item : Int} :
    items.min? = some item ↔ IsExtreme (· ≤ ·) items item :=
  List.min?_eq_some_iff

theorem isExtreme_max?_iff {items : List Int} {item : Int} :
    items.max? = some item ↔ IsExtreme (· ≥ ·) items item :=
  List.max?_eq_some_iff

theorem receiveColumn_min?_iff {rows : List RawEvent} {instant : Nat} :
    (receiveColumn rows).min? = some (instant : Int) ↔
      (receiveTimes rows).min? = some instant := by
  rw [List.min?_eq_some_iff, List.min?_eq_some_iff]
  simp [receiveColumn, receiveTimes]

theorem receiveColumn_max?_iff {rows : List RawEvent} {instant : Nat} :
    (receiveColumn rows).max? = some (instant : Int) ↔
      (receiveTimes rows).max? = some instant := by
  rw [List.max?_eq_some_iff, List.max?_eq_some_iff]
  simp [receiveColumn, receiveTimes]

/-- The statistics of rows, of which there are some. -/
theorem exists_statisticsOf {part : List RawEvent} (nonempty : part ≠ []) :
    ∃ known, statisticsOf part = some known ∧
      IsExtreme (· ≤ ·) (receiveColumn part) known.min ∧
      IsExtreme (· ≥ ·) (receiveColumn part) known.max := by
  have some_ : receiveColumn part ≠ [] := by
    simpa [receiveColumn] using nonempty
  rcases Option.ne_none_iff_exists'.mp (mt List.min?_eq_none_iff.mp some_)
    with ⟨least, isLeast⟩
  rcases Option.ne_none_iff_exists'.mp (mt List.max?_eq_none_iff.mp some_)
    with ⟨greatest, isGreatest⟩
  refine ⟨⟨least, greatest⟩, ?_, isExtreme_min?_iff.mp isLeast,
    isExtreme_max?_iff.mp isGreatest⟩
  simp only [statisticsOf, isLeast, isGreatest]

theorem receiveColumn_flatten (parts : List (List RawEvent)) :
    receiveColumn parts.flatten = (parts.map receiveColumn).flatten :=
  List.map_flatten

/-- What is known of a file are the extremes of its row groups. -/
theorem Holds.mem_known_iff (holds : Holds parts file) {known : Statistics} :
    known ∈ (receiveStatistics file).reduceOption ↔
      ∃ part ∈ parts, statisticsOf part = some known := by
  rw [holds.statistics, List.reduceOption_mem_iff, List.mem_map]

theorem Holds.earliest_iff (holds : Holds parts file) {instant : Int} :
    ((receiveStatistics file).reduceOption.map Statistics.min).min? =
        some instant ↔
      (receiveColumn parts.flatten).min? = some instant := by
  rw [isExtreme_min?_iff, isExtreme_min?_iff, receiveColumn_flatten]
  apply isExtreme_flatten_iff
  · exact fun _ _ _ => le_trans
  · exact fun _ _ => le_antisymm
  · intro part inParts
    rcases List.mem_map.mp inParts with ⟨rows, isPart, rfl⟩
    rcases exists_statisticsOf (holds.nonempty rows isPart) with
      ⟨known, isKnown, least, _⟩
    exact ⟨known.min, List.mem_map_of_mem
      (holds.mem_known_iff.mpr ⟨rows, isPart, isKnown⟩), least⟩
  · intro extreme isExtreme
    rcases List.mem_map.mp isExtreme with ⟨known, isKnown, rfl⟩
    rcases holds.mem_known_iff.mp isKnown with ⟨rows, isPart, same⟩
    rcases exists_statisticsOf (holds.nonempty rows isPart) with
      ⟨other, isOther, least, _⟩
    cases Option.some.inj (same.symm.trans isOther)
    exact ⟨_, List.mem_map_of_mem isPart, least⟩

theorem Holds.latest_iff (holds : Holds parts file) {instant : Int} :
    ((receiveStatistics file).reduceOption.map Statistics.max).max? =
        some instant ↔
      (receiveColumn parts.flatten).max? = some instant := by
  rw [isExtreme_max?_iff, isExtreme_max?_iff, receiveColumn_flatten]
  apply isExtreme_flatten_iff
  · exact fun _ _ _ first second => le_trans second first
  · exact fun _ _ first second => le_antisymm second first
  · intro part inParts
    rcases List.mem_map.mp inParts with ⟨rows, isPart, rfl⟩
    rcases exists_statisticsOf (holds.nonempty rows isPart) with
      ⟨known, isKnown, _, greatest⟩
    exact ⟨known.max, List.mem_map_of_mem
      (holds.mem_known_iff.mpr ⟨rows, isPart, isKnown⟩), greatest⟩
  · intro extreme isExtreme
    rcases List.mem_map.mp isExtreme with ⟨known, isKnown, rfl⟩
    rcases holds.mem_known_iff.mp isKnown with ⟨rows, isPart, same⟩
    rcases exists_statisticsOf (holds.nonempty rows isPart) with
      ⟨other, isOther, _, greatest⟩
    cases Option.some.inj (same.symm.trans isOther)
    exact ⟨_, List.mem_map_of_mem isPart, greatest⟩

/-- No statistics are missing, and there are some if there are rows. -/
theorem Holds.statistics_missing_iff (holds : Holds parts file) :
    (receiveStatistics file = [] ∨ none ∈ receiveStatistics file) ↔
      parts.flatten = [] := by
  have noneMissing : none ∉ receiveStatistics file := by
    rw [holds.statistics, List.mem_map]
    rintro ⟨part, isPart, missing⟩
    rcases exists_statisticsOf (holds.nonempty part isPart) with
      ⟨known, isKnown, _⟩
    rw [missing] at isKnown
    cases isKnown
  rw [or_iff_left noneMissing, holds.statistics, List.map_eq_nil_iff,
    List.flatten_eq_nil_iff]
  constructor
  · rintro rfl part ⟨⟩
  · intro empty
    refine List.eq_nil_iff_forall_not_mem.mpr fun part isPart => ?_
    exact holds.nonempty part isPart (empty part isPart)

/-- The first and the last row are of the day exactly if all are. -/
theorem range_of_day_iff
    {rows : List RawEvent} {earliest latest : Nat}
    (isEarliest : (receiveTimes rows).min? = some earliest)
    (isLatest : (receiveTimes rows).max? = some latest) :
    midnightNs utcDate ≤ earliest ∧ latest < midnightNs (utcDate + 1) ↔
      ∀ event ∈ rows, event.receiveDate = utcDate := by
  rcases List.min?_eq_some_iff.mp isEarliest with ⟨first, least⟩
  rcases List.max?_eq_some_iff.mp isLatest with ⟨last, greatest⟩
  constructor
  · rintro ⟨since, before⟩ event member
    have isTime : event.appReceiveRealtimeNs ∈ receiveTimes rows :=
      List.mem_map_of_mem member
    exact dateOfNs_eq_iff.mpr ⟨since.trans (least _ isTime),
      (greatest _ isTime).trans_lt before⟩
  · intro dated
    rcases List.mem_map.mp first with ⟨start, isStart, rfl⟩
    rcases List.mem_map.mp last with ⟨stop, isStop, rfl⟩
    exact ⟨(dateOfNs_eq_iff.mp (dated start isStart)).1,
      (dateOfNs_eq_iff.mp (dated stop isStop)).2⟩

theorem verifyReceiveTimes_ok_iff (holds : Holds parts file) :
    verifyReceiveTimes utcDate (receiveStatistics file) manifest = .ok () ↔
      (receiveTimes parts.flatten).min? =
          some manifest.minAppReceiveRealtimeNs ∧
        (receiveTimes parts.flatten).max? =
          some manifest.maxAppReceiveRealtimeNs ∧
        ∀ event ∈ parts.flatten, event.receiveDate = utcDate := by
  by_cases empty : parts.flatten = []
  · have missing := holds.statistics_missing_iff.mpr empty
    simp [verifyReceiveTimes, missing, empty, receiveTimes]
  · have known := mt holds.statistics_missing_iff.mp empty
    have some_ : receiveColumn parts.flatten ≠ [] := by
      simpa [receiveColumn] using empty
    rcases Option.ne_none_iff_exists'.mp (mt List.min?_eq_none_iff.mp some_)
      with ⟨earliest, isEarliest⟩
    rcases Option.ne_none_iff_exists'.mp (mt List.max?_eq_none_iff.mp some_)
      with ⟨latest, isLatest⟩
    rw [← receiveColumn_min?_iff, ← receiveColumn_max?_iff]
    simp only [verifyReceiveTimes, if_neg known,
      holds.earliest_iff.mpr isEarliest, holds.latest_iff.mpr isLatest,
      isEarliest, isLatest, Option.some.injEq]
    constructor
    · intro accepted
      split_ifs at accepted with range ofDay
      rcases not_or.mp range with ⟨sameEarliest, sameLatest⟩
      rw [not_not] at sameEarliest sameLatest
      subst sameEarliest sameLatest
      refine ⟨rfl, rfl, (range_of_day_iff
        (receiveColumn_min?_iff.mp isEarliest)
        (receiveColumn_max?_iff.mp isLatest)).mp ⟨?_, ?_⟩⟩
      · exact_mod_cast ofDay.1
      · exact_mod_cast ofDay.2.2
    · rintro ⟨rfl, rfl, dated⟩
      have ofDay := (range_of_day_iff (receiveColumn_min?_iff.mp isEarliest)
        (receiveColumn_max?_iff.mp isLatest)).mpr dated
      have ordered := manifest.timeRange
      rw [if_neg (by simp), if_pos]
      exact ⟨by exact_mod_cast ofDay.1, by exact_mod_cast ordered,
        by exact_mod_cast ofDay.2⟩

/--
The check accepts a file if and only if its schema, its metadata, the number
and the range of its rows are those of the manifest, and all rows are of the
day.
-/
theorem verifyParquet_ok_iff (holds : Holds parts file) :
    verifyParquet utcDate file manifest = .ok () ↔
      file.fields = rawEventSchemaV1 ∧ mismatched file manifest = [] ∧
        parts.flatten.length = manifest.eventCount ∧
        (receiveTimes parts.flatten).min? =
          some manifest.minAppReceiveRealtimeNs ∧
        (receiveTimes parts.flatten).max? =
          some manifest.maxAppReceiveRealtimeNs ∧
        ∀ event ∈ parts.flatten, event.receiveDate = utcDate := by
  rw [← verifyReceiveTimes_ok_iff holds, ← holds.numRows]
  unfold verifyParquet
  split_ifs with schema metadata count
  · simp [schema]
  · simp [metadata]
  · simp [count]
  · simp only [not_not.mp schema, not_not.mp metadata, not_not.mp count,
      true_and]

end Accepting

/-! ## The chunks of a pool -/

section Pool

variable {identity : PoolIdentity} {chunk other : FinishedChunk}
variable {parts : List (List RawEvent)} {file : ParquetFile}
variable {facts : FileFacts} {manifest : ChunkManifestV1}

/-- The metadata of a file is that of the manifest of its chunk. -/
theorem mismatched_own
    (metadata : file.metadata = chunkMetadata identity chunk)
    (finished : finishManifest identity facts chunk = some manifest) :
    mismatched file manifest = [] := by
  unfold finishManifest at finished
  split at finished
  next =>
    cases finished
    simp [mismatched, expectedMetadata, metadata, chunkMetadata,
      Dict.get?_set]
  next => cases finished

/-- A file without mismatches has the id of the manifest. -/
theorem chunkId_of_mismatched
    (metadata : file.metadata = chunkMetadata identity chunk)
    (agrees : mismatched file manifest = []) :
    identity.chunkId chunk.chunkId = manifest.chunkId := by
  rw [mismatched, List.map_eq_nil_iff, List.filter_eq_nil_iff] at agrees
  have entry := agrees ("chunk_id", manifest.chunkId)
    (by simp [expectedMetadata])
  simpa [metadata, chunkMetadata] using entry

theorem exists_finishManifest
    {limits : ChunkLimits} (own : ChunkExact limits chunk)
    (identity : PoolIdentity) (facts : FileFacts) :
    ∃ manifest, finishManifest identity facts chunk = some manifest ∧
      manifest.chunkId = identity.chunkId chunk.chunkId ∧
      manifest.utcDate = chunk.utcDate ∧
      manifest.eventCount = chunk.eventCount ∧
      manifest.minAppReceiveRealtimeNs = chunk.minAppReceiveRealtimeNs ∧
      manifest.maxAppReceiveRealtimeNs = chunk.maxAppReceiveRealtimeNs := by
  have ordered : chunk.minAppReceiveRealtimeNs ≤
      chunk.maxAppReceiveRealtimeNs :=
    (List.min?_eq_some_iff.mp own.earliest).2 _
      (List.max?_eq_some_iff.mp own.latest).1
  unfold finishManifest
  rw [dif_pos ordered]
  exact ⟨_, rfl, rfl, rfl, rfl, rfl, rfl⟩

/--
In every run of the writer pool, however a chunk was flushed and split into row
groups: the manifest of a finished chunk can be built, and the normalizer
accepts the file of a chunk with it if and only if it is that chunk's.
-/
theorem written_chunk_verified_iff
    (limits : ChunkLimits) (maxBytes : Nat) (universeHash : String)
    {labels : List PoolLabel} {final : PoolState}
    (reached : runFrom (poolStep limits maxBytes) (.started universeHash)
      labels = some final)
    (unique : Function.Injective identity.chunkId)
    {left right : WriterGroup} (isLeft : left ∈ queuedGroups)
    (isRight : right ∈ queuedGroups)
    (isChunk : chunk ∈ (final.writers left).finished)
    (isOther : other ∈ (final.writers right).finished)
    (written : Written identity chunk parts file) (facts : FileFacts) :
    ∃ manifest, finishManifest identity facts other = some manifest ∧
      (verifyParquet manifest.utcDate file manifest = .ok () ↔
        chunk = other) := by
  rcases IdsSound.run reached with ⟨sound, ids⟩
  have exactly : ∀ group ∈ queuedGroups,
      ∀ finished ∈ (final.writers group).finished,
        ChunkExact limits finished := fun group isQueued finished member =>
    ((sound.writers group isQueued).partitioned.exactly finished member).1
  rcases exists_finishManifest (exactly right isRight other isOther) identity
    facts with ⟨manifest, finished, sameId, date, count, earliest, latest⟩
  refine ⟨manifest, finished, ?_⟩
  rw [verifyParquet_ok_iff written.toHolds, written.rows]
  constructor
  · rintro ⟨_, agrees, _⟩
    have text := chunkId_of_mismatched written.metadata agrees
    rw [sameId] at text
    exact ids.eq_of_chunkId isChunk isOther (unique text)
  · rintro rfl
    have own := exactly left isLeft chunk isChunk
    rw [date, count, earliest, latest]
    exact ⟨written.fields, mismatched_own written.metadata finished,
      own.count.symm, own.earliest, own.latest, own.date⟩

end Pool

/-! ## A run -/

/-- The file which pyarrow writes for two batches of one row each. -/
def rotatedParts : List (List RawEvent) :=
  [[depthEvent 5], [depthEvent 7]]

def sampleIdentity : PoolIdentity where
  collectorId := "collector"
  dataContractHash := "contract"
  chunkId number := "chunk-00" ++ String.ofList (List.replicate number 'x')

def rotatedChunk : FinishedChunk where
  chunkId := 0
  writerGroup := .depth
  utcDate := 0
  tag := ⟨0, "first"⟩
  eventCount := 2
  minAppReceiveRealtimeNs := 5
  maxAppReceiveRealtimeNs := 7
  rows := [depthEvent 5, depthEvent 7]

def rotatedFile : ParquetFile where
  fields := rawEventSchemaV1
  metadata := chunkMetadata sampleIdentity rotatedChunk
  numRows := 2
  rowGroups := rotatedParts.map fun part =>
    ⟨List.replicate 8 none ++ [statisticsOf part] ++ List.replicate 4 none⟩

theorem sampleIdentity_injective :
    Function.Injective sampleIdentity.chunkId := by
  intro left right same
  have lengths := congrArg (fun text : String => text.toList.length) same
  simpa [sampleIdentity] using lengths

/-- Behind the run's first `rotate` its third event becomes a chunk, too. -/
def rotatedTwice : List PoolLabel :=
  rotatedRun ++ .rotate "third" :: List.replicate 5 (.work .depth false)

theorem rotatedTwice_runs :
    (runFrom (poolStep smallLimits 10000) (.started "first")
      rotatedTwice).isSome := by
  decide +kernel

def rotatedTwiceFinal : PoolState :=
  (runFrom (poolStep smallLimits 10000) (.started "first") rotatedTwice).get
    rotatedTwice_runs

def laterChunk : FinishedChunk where
  chunkId := 1
  writerGroup := .depth
  utcDate := 0
  tag := ⟨1, "second"⟩
  eventCount := 1
  minAppReceiveRealtimeNs := 9
  maxAppReceiveRealtimeNs := 9
  rows := [depthEvent 9]

/-- The file of a chunk passes with its own manifest, and with no other. -/
theorem written_chunk_verified_rotated :
    (∃ manifest,
      finishManifest sampleIdentity ⟨"", 0, 0⟩ rotatedChunk = some manifest ∧
        verifyParquet manifest.utcDate rotatedFile manifest = .ok ()) ∧
      ∃ manifest,
        finishManifest sampleIdentity ⟨"", 0, 0⟩ laterChunk =
            some manifest ∧
          verifyParquet manifest.utcDate rotatedFile manifest ≠ .ok () := by
  have depthQueued : WriterGroup.depth ∈ queuedGroups := by
    decide
  have isChunk : rotatedChunk ∈
      (rotatedTwiceFinal.writers .depth).finished := by
    decide +kernel
  have isLater : laterChunk ∈
      (rotatedTwiceFinal.writers .depth).finished := by
    decide +kernel
  have written : Written sampleIdentity rotatedChunk rotatedParts
      rotatedFile :=
    { nonempty := by decide
      numRows := by decide
      statistics := by decide +kernel
      rows := rfl
      fields := rfl
      metadata := rfl }
  constructor
  · rcases written_chunk_verified_iff smallLimits 10000 "first"
        (Option.some_get rotatedTwice_runs).symm sampleIdentity_injective
        depthQueued depthQueued isChunk isChunk written ⟨"", 0, 0⟩ with
      ⟨manifest, finished, accepted⟩
    exact ⟨manifest, finished, accepted.mpr rfl⟩
  · rcases written_chunk_verified_iff smallLimits 10000 "first"
        (Option.some_get rotatedTwice_runs).symm sampleIdentity_injective
        depthQueued depthQueued isChunk isLater written ⟨"", 0, 0⟩ with
      ⟨manifest, finished, accepted⟩
    refine ⟨manifest, finished, fun isOk => ?_⟩
    have same : rotatedChunk = laterChunk := accepted.mp isOk
    exact absurd same (by decide)

end ShadowDataPlane.Transfer
