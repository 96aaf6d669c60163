import ShadowDataPlane.Edge.DayInventory
import ShadowDataPlane.Edge.SealedChunks

/-!
# The files of a sealed day

`_seal` does not see the chunks which the pool has recorded: it reads the
journal of the day and the manifests in the ready directory and among the
acknowledged ones, and writes the list in the order of the chunks' identities.

A pool with its files makes every step of the pool together with what the step
writes, while gap artifacts are published and acknowledgements move manifests.
Behind the barrier the list which a seal writes is that of the recorded chunks
in another order, and so its chunks hold every accepted event of the day
(`sealed_day_complete`).
-/

namespace ShadowDataPlane.Edge

open ShadowDataPlane.Foundation
open ShadowDataPlane.Contracts

/-! ## The files of the pool -/

/-- How the files of the chunks are named; gap artifacts have other ids. -/
structure ChunkFiles where
  manifest : FinishedChunk → ChunkManifestV1
  isChunkId : String → Bool
  utcDate : ∀ chunk, (manifest chunk).utcDate = chunk.utcDate
  directory : ∀ chunk, (manifest chunk).dataPath.directory =
    [.date (manifest chunk).utcDate, .writer (manifest chunk).writerGroup]
  contentType : ∀ chunk, (manifest chunk).contentType = .parquet
  chunkId : ∀ chunk, isChunkId (manifest chunk).chunkId = true
  apart : ∀ chunk other, (manifest chunk).chunkId = (manifest other).chunkId →
    chunk.chunkId = other.chunkId

/-- The line of a chunk in the inventory of its day. -/
def ChunkFiles.ref (files : ChunkFiles) (chunk : FinishedChunk) :
    ChunkRefV1 :=
  (files.manifest chunk).asRef

/-- The manifest of an artifact of the gap journal. -/
def ChunkFiles.IsArtifact (files : ChunkFiles)
    (manifest : ChunkManifestV1) : Prop :=
  manifest.contentType = .gapJson ∧
    manifest.dataPath.directory =
      [.date manifest.utcDate, .writer manifest.writerGroup] ∧
    files.isChunkId manifest.chunkId = false

instance (files : ChunkFiles) : DecidablePred files.IsArtifact :=
  fun _ => inferInstanceAs (Decidable (_ ∧ _ ∧ _))

/-- `record` behind `finish`. -/
def recordFile (disk : InventoryDisk) (manifest : ChunkManifestV1) :
    InventoryDisk :=
  if disk.DayIsSealed manifest.utcDate then disk
  else appendJournal (openJournal disk manifest.utcDate) manifest

/-- `record_generated`, which nothing comes between for the lock. -/
def generateFile (disk : InventoryDisk) (manifest : ChunkManifestV1) :
    InventoryDisk :=
  if disk.DayIsSealed manifest.utcDate then disk
  else recordFile (writeManifest disk manifest) manifest

/-- `_seal`, which nothing comes between for the lock. -/
def sealFiles (disk : InventoryDisk) (utcDate : Nat) : InventoryDisk :=
  [SealStage.writeSealed, .cleanJournal, .cleanAcked].foldl
    (fun disk stage => (sealStep disk utcDate stage).1) disk

/-- The pool with the files below the data root. -/
structure FiledPool where
  pool : PoolState
  disk : InventoryDisk := {}

/-- The steps of the pool and of its neighbours on the same disk. -/
inductive FileLabel where
  | pool (label : PoolLabel)
  /-- The gap journal publishes an artifact. -/
  | generate (manifest : ChunkManifestV1)
  /-- An acknowledgement is applied to the chunk of this manifest. -/
  | collect (path : DataPath)
deriving DecidableEq

/-- What a step of the pool writes. -/
def filesAfter (files : ChunkFiles) (before after : PoolState)
    (disk : InventoryDisk) : PoolLabel → InventoryDisk
  | .work group _ =>
      match (before.writers group).unrecorded,
          (after.writers group).unrecorded with
      | chunk :: _, _ => recordFile disk (files.manifest chunk)
      | [], chunk :: _ => writeManifest disk (files.manifest chunk)
      | [], [] => disk
  | .sealDay utcDate => sealFiles disk utcDate
  | .put _ | .rotate _ | .cancelRotate | .returnRotate | .stop
  | .timeout _ _ => disk

/-- A step of the pool with what it writes, or of one of its neighbours. -/
def filedStep (limits : ChunkLimits) (maxBytes : Nat) (files : ChunkFiles)
    (state : FiledPool) : FileLabel → Option FiledPool
  | .pool label =>
      (poolStep limits maxBytes state.pool label).map fun pool =>
        { pool, disk := filesAfter files state.pool pool state.disk label }
  | .generate manifest =>
      if files.IsArtifact manifest then
        some { state with disk := generateFile state.disk manifest }
      else none
  | .collect path =>
      some { state with disk := collectManifest state.disk path }

/-- `BehindBarrier` of the steps which the pool makes. -/
def FiledBehind (state : FiledPool) : FileLabel → Prop
  | .pool label => BehindBarrier state.pool label
  | .generate _ | .collect _ => True

instance (state : FiledPool) :
    (label : FileLabel) → Decidable (FiledBehind state label)
  | .pool label => inferInstanceAs (Decidable (BehindBarrier _ label))
  | .generate _ | .collect _ => inferInstanceAs (Decidable True)

/-! ## What is on disk -/

/-- The inventory is sorted, and its chunks are these in some order. -/
structure Lists (files : ChunkFiles) (inventory : List ChunkRefV1)
    (chunks : List FinishedChunk) : Prop where
  sorted : (inventory.map ChunkRefV1.identity).Pairwise (· < ·)
  chunks : (inventory.filter fun ref => ref.contentType = .parquet).Perm
    (chunks.map files.ref)

/-- The manifest of a finished chunk or of a gap artifact. -/
def ChunkFiles.Known (files : ChunkFiles) (pool : PoolState)
    (manifest : ChunkManifestV1) : Prop :=
  (∃ group ∈ queuedGroups, ∃ chunk ∈ (pool.writers group).finished,
    manifest = files.manifest chunk) ∨ files.IsArtifact manifest

/-- What the files stand for at every moment. -/
structure FiledSound (files : ChunkFiles) (state : FiledPool) : Prop where
  holds : DiskHolds (files.Known state.pool) state.disk
  journals : ∀ utcDate, ¬ state.disk.DayIsSealed utcDate →
    ∀ chunk ∈ state.pool.index.refs utcDate,
      ∃ lines, state.disk.journals.get? utcDate = some lines ∧
        files.ref chunk ∈ lines
  sealedDays : ∀ utcDate, Option.Rel (Lists files)
    (state.disk.sealedDays.get? utcDate)
    (state.pool.index.sealedDays.get? utcDate)

section Files

variable {files : ChunkFiles} {pool : PoolState} {disk : InventoryDisk}
variable {manifest : ChunkManifestV1} {utcDate : Nat}

theorem ChunkFiles.Known.placed (known : files.Known pool manifest) :
    manifest.dataPath.directory =
      [.date manifest.utcDate, .writer manifest.writerGroup] := by
  rcases known with ⟨_, _, chunk, _, rfl⟩ | artifact
  · exact files.directory chunk
  · exact artifact.2.1

theorem ChunkFiles.Known.mono
    {after : PoolState} (known : files.Known pool manifest)
    (grows : ∀ group ∈ queuedGroups,
      (pool.writers group).finished ⊆ (after.writers group).finished) :
    files.Known after manifest := by
  rcases known with ⟨group, isQueued, chunk, isFinished, rfl⟩ | artifact
  · exact Or.inl ⟨group, isQueued, chunk, grows group isQueued isFinished, rfl⟩
  · exact Or.inr artifact

theorem FiledSound.dayIsSealed_iff
    {state : FiledPool} (sound : FiledSound files state) :
    state.disk.DayIsSealed utcDate ↔ state.pool.index.DayIsSealed utcDate := by
  have related := sound.sealedDays utcDate
  rw [InventoryDisk.DayIsSealed, DayIndex.DayIsSealed]
  generalize state.disk.sealedDays.get? utcDate = inventory at related ⊢
  generalize state.pool.index.sealedDays.get? utcDate = chunks at related ⊢
  cases related <;> simp

/-! ## Reading the files of a day -/

/-- No chunk is recorded twice. -/
theorem nodup_refs
    (ids : IdsSound pool) (seals : SealsComplete pool) (utcDate : Nat) :
    (pool.index.refs utcDate).Nodup := by
  rw [List.nodup_iff_count_le_one]
  intro chunk
  by_cases isQueued : chunk.writerGroup ∈ queuedGroups
  · have distinct : (pool.writers chunk.writerGroup).finished.Nodup :=
      ((List.nodup_append.mp (ids.distinct chunk.writerGroup)).1).of_map _
    rw [seals.finished _ isQueued] at distinct
    have once := List.nodup_iff_count_le_one.mp
      ((List.nodup_append.mp distinct).1.filter
        fun other => other.utcDate = utcDate) chunk
    rw [filter_recordedBy seals.dated, List.count_filter (by simp)] at once
    exact once
  · rw [List.count_eq_zero.mpr]
    · exact Nat.zero_le 1
    · intro isRef
      rcases List.mem_map.mp isRef with ⟨entry, isEntry, rfl⟩
      exact isQueued (seals.queued entry (List.mem_of_mem_filter isEntry))

theorem mem_finished_of_refs
    (seals : SealsComplete pool) {chunk : FinishedChunk}
    (isRef : chunk ∈ pool.index.refs utcDate) :
    ∃ group ∈ queuedGroups, chunk ∈ (pool.writers group).finished := by
  rcases List.mem_map.mp isRef with ⟨entry, isEntry, rfl⟩
  have isRecorded := List.mem_of_mem_filter isEntry
  have isQueued := seals.queued entry isRecorded
  refine ⟨_, isQueued, ?_⟩
  rw [seals.finished _ isQueued]
  apply List.mem_append_left
  exact List.mem_filter.mpr ⟨List.mem_map_of_mem isRecorded, by simp⟩

/-- Once nothing of the day is pending, its chunks are all recorded. -/
theorem mem_refs_of_finished
    {limits : ChunkLimits} (sound : PoolSound limits pool)
    (seals : SealsComplete pool)
    {group : WriterGroup} (isQueued : group ∈ queuedGroups)
    (nothing : (pool.writers group).pendingRows.filter
      (fun event => event.receiveDate = utcDate) = [])
    {chunk : FinishedChunk}
    (isFinished : chunk ∈ (pool.writers group).finished)
    (isDate : chunk.utcDate = utcDate) :
    chunk ∈ pool.index.refs utcDate := by
  rw [seals.finished group isQueued] at isFinished
  rcases List.mem_append.mp isFinished with isRecorded | isUnrecorded
  · rcases List.mem_map.mp (List.mem_of_mem_filter isRecorded) with
      ⟨entry, isEntry, rfl⟩
    refine List.mem_map.mpr ⟨entry, List.mem_filter.mpr ⟨isEntry, ?_⟩, rfl⟩
    simp [seals.dated entry isEntry, isDate]
  · exact absurd nothing
      (seals.unrecorded_pending sound isQueued isUnrecorded isDate)

/-- If nothing of the day is pending, `_read_refs` finds its recorded chunks. -/
theorem FiledSound.lists
    {limits : ChunkLimits} {state : FiledPool}
    (held : FiledSound files state) (sound : PoolSound limits state.pool)
    (ids : IdsSound state.pool) (seals : SealsComplete state.pool)
    (isOpen : ¬ state.disk.DayIsSealed utcDate)
    (nothing : ∀ group ∈ queuedGroups,
      (state.pool.writers group).pendingRows.filter
        (fun event => event.receiveDate = utcDate) = []) :
    Lists files (readRefs state.disk utcDate)
      (state.pool.index.refs utcDate) := by
  have sorted := readRefs_sorted state.disk utcDate
  have known {ref : ChunkRefV1} (listed : ref ∈ readRefs state.disk utcDate) :=
    held.holds.mem_readRefs (fun _ isKnown => isKnown.placed) listed
  have sameChunk {chunk other : FinishedChunk} {group : WriterGroup}
      (isRef : chunk ∈ state.pool.index.refs utcDate)
      (isFinished : other ∈ (state.pool.writers group).finished)
      (sameId : (files.manifest other).chunkId =
        (files.manifest chunk).chunkId) : other = chunk := by
    rcases mem_finished_of_refs seals isRef with ⟨_, _, isOwn⟩
    exact ids.eq_of_chunkId isFinished isOwn (files.apart _ _ sameId)
  refine ⟨sorted, ?_⟩
  rw [List.perm_ext_iff_of_nodup]
  · intro ref
    rw [List.mem_filter, decide_eq_true_eq, List.mem_map]
    constructor
    · rintro ⟨listed, isParquet⟩
      rcases known listed with ⟨manifest, isKnown, rfl, isDate⟩
      rcases isKnown with ⟨group, isQueued, chunk, isFinished, rfl⟩ | artifact
      · exact ⟨chunk, mem_refs_of_finished sound seals isQueued
          (nothing group isQueued) isFinished
          ((files.utcDate chunk).symm.trans isDate), rfl⟩
      · cases artifact.1.symm.trans isParquet
    · rintro ⟨chunk, isRef, rfl⟩
      refine ⟨?_, files.contentType chunk⟩
      rcases held.journals utcDate isOpen chunk isRef with
        ⟨lines, journal, isLine⟩
      have member : files.ref chunk ∈ lines ++
          (readyManifests state.disk utcDate).map ChunkManifestV1.asRef ++
          (ackedManifests state.disk utcDate).map ChunkManifestV1.asRef :=
        List.mem_append_left _ (List.mem_append_left _ isLine)
      rcases exists_mem_inventoryOf member with ⟨listed, isListed, sameIdentity⟩
      have inInventory : listed ∈ readRefs state.disk utcDate := by
        rw [readRefs, journal]
        exact isListed
      have sameId : listed.chunkId = (files.manifest chunk).chunkId :=
        congrArg (fun key => (ofLex key).1) sameIdentity
      rcases known inInventory with ⟨manifest, isKnown, rfl, _⟩
      rcases isKnown with ⟨group, _, other, isFinished, rfl⟩ | artifact
      · rw [← sameChunk isRef isFinished sameId]
        exact inInventory
      · have isChunk := files.chunkId chunk
        rw [← sameId] at isChunk
        cases artifact.2.2.symm.trans isChunk
  · have distinct : (readRefs state.disk utcDate).Nodup :=
      List.Nodup.of_map _ (sorted.imp fun before => ne_of_lt before)
    exact distinct.filter _
  · refine (nodup_refs ids seals utcDate).map_on ?_
    intro chunk isRef other isOther sameRef
    rcases mem_finished_of_refs seals isRef with ⟨_, _, isFinished⟩
    exact sameChunk isOther isFinished
      (congrArg ChunkRefV1.chunkId sameRef)

/-! ## Steps of the files -/

variable {known : ChunkManifestV1 → Prop}

@[simp]
theorem sealedDays_recordFile (disk : InventoryDisk)
    (manifest : ChunkManifestV1) :
    (recordFile disk manifest).sealedDays = disk.sealedDays := by
  unfold recordFile
  split <;> rfl

@[simp]
theorem sealedDays_generateFile (disk : InventoryDisk)
    (manifest : ChunkManifestV1) :
    (generateFile disk manifest).sealedDays = disk.sealedDays := by
  unfold generateFile
  split
  · rfl
  · rw [sealedDays_recordFile]
    rfl

@[simp]
theorem sealedDays_collectManifest (disk : InventoryDisk) (path : DataPath) :
    (collectManifest disk path).sealedDays = disk.sealedDays := by
  unfold collectManifest
  split
  · rfl
  · split <;> rfl

theorem DiskHolds.recordFile
    (holds : DiskHolds known disk) (isKnown : known manifest) :
    DiskHolds known (recordFile disk manifest) := by
  unfold Edge.recordFile
  split
  · exact holds
  · exact (holds.openJournal _).appendJournal isKnown

theorem DiskHolds.generateFile
    (holds : DiskHolds known disk) (isKnown : known manifest) :
    DiskHolds known (generateFile disk manifest) := by
  unfold Edge.generateFile
  split
  · exact holds
  · exact (holds.writeManifest isKnown).recordFile isKnown

theorem DiskHolds.sealFiles
    (holds : DiskHolds known disk) (utcDate : Nat) :
    DiskHolds known (sealFiles disk utcDate) :=
  ((holds.sealStep utcDate _).sealStep utcDate _).sealStep utcDate _

/-- The journals have what they had. -/
def JournalsGrow (disk after : InventoryDisk) : Prop :=
  ∀ utcDate lines, disk.journals.get? utcDate = some lines →
    ∃ more, after.journals.get? utcDate = some more ∧ lines ⊆ more

theorem journalsGrow_of_eq
    {after : InventoryDisk} (same : after.journals = disk.journals) :
    JournalsGrow disk after := by
  intro date lines journal
  exact ⟨lines, by rw [same, journal], List.Subset.refl _⟩

/-- The journal of the chunk's day ends with the chunk. -/
theorem get?_recordFile
    (isOpen : ¬ disk.DayIsSealed manifest.utcDate) (utcDate : Nat) :
    (recordFile disk manifest).journals.get? utcDate =
      if utcDate = manifest.utcDate then
        some ((disk.journals.get? utcDate).getD [] ++ [manifest.asRef])
      else disk.journals.get? utcDate := by
  rw [recordFile, if_neg isOpen, appendJournal, openJournal]
  simp only [Dict.get?_set]
  split
  next same => simp [same]
  next => rfl

theorem journalsGrow_recordFile (disk : InventoryDisk)
    (manifest : ChunkManifestV1) :
    JournalsGrow disk (recordFile disk manifest) := by
  by_cases isSealed : disk.DayIsSealed manifest.utcDate
  · rw [recordFile, if_pos isSealed]
    exact journalsGrow_of_eq rfl
  · intro date lines journal
    rw [get?_recordFile isSealed, journal]
    split
    · exact ⟨_, rfl, List.subset_append_left _ _⟩
    · exact ⟨lines, rfl, List.Subset.refl _⟩

theorem journalsGrow_generateFile (disk : InventoryDisk)
    (manifest : ChunkManifestV1) :
    JournalsGrow disk (generateFile disk manifest) := by
  unfold generateFile
  split
  · exact journalsGrow_of_eq rfl
  · exact journalsGrow_recordFile (writeManifest disk manifest) manifest

theorem journalsGrow_collectManifest (disk : InventoryDisk)
    (path : DataPath) : JournalsGrow disk (collectManifest disk path) := by
  apply journalsGrow_of_eq
  unfold collectManifest
  split
  · rfl
  · split <;> rfl

variable {state after : FiledPool}

/-- Files are written, and no chunk is recorded and no day sealed. -/
theorem FiledSound.grow
    (held : FiledSound files state)
    (index : after.pool.index = state.pool.index)
    (sealedDays : after.disk.sealedDays = state.disk.sealedDays)
    (journals : JournalsGrow state.disk after.disk)
    (holds : DiskHolds (files.Known after.pool) after.disk) :
    FiledSound files after where
  holds := holds
  journals date isOpen chunk isRef := by
    rw [InventoryDisk.DayIsSealed, sealedDays] at isOpen
    rw [index] at isRef
    rcases held.journals date isOpen chunk isRef with
      ⟨lines, journal, isLine⟩
    rcases journals date lines journal with ⟨more, isMore, grows⟩
    exact ⟨more, isMore, grows isLine⟩
  sealedDays date := by
    rw [sealedDays, index]
    exact held.sealedDays date

/-- The chunk which is recorded gets its line. -/
theorem FiledSound.record
    (held : FiledSound files state) {chunk : FinishedChunk}
    (isKnown : files.Known after.pool (files.manifest chunk))
    (grows : ∀ group ∈ queuedGroups,
      (state.pool.writers group).finished ⊆
        (after.pool.writers group).finished)
    (recorded : state.pool.index.recordGenerated chunk.utcDate chunk =
      .ok after.pool.index)
    (disk : after.disk = recordFile state.disk (files.manifest chunk)) :
    FiledSound files after := by
  have isOpen : ¬ state.disk.DayIsSealed (files.manifest chunk).utcDate := by
    rw [held.dayIsSealed_iff, files.utcDate]
    exact (DayIndex.recordGenerated_eq_ok_iff.mp recorded).1
  refine ⟨?_, ?_, ?_⟩
  · rw [disk]
    exact (held.holds.mono fun _ known => known.mono grows).recordFile isKnown
  · intro date isUnsealed other isRef
    rw [disk, InventoryDisk.DayIsSealed, sealedDays_recordFile] at isUnsealed
    rw [DayIndex.refs_recordGenerated recorded] at isRef
    have old : other ∈ state.pool.index.refs date →
        ∃ lines, after.disk.journals.get? date = some lines ∧
          files.ref other ∈ lines := by
      intro isOld
      rcases held.journals date isUnsealed other isOld with
        ⟨lines, journal, isLine⟩
      rcases journalsGrow_recordFile _ (files.manifest chunk) date lines
        journal with ⟨more, isMore, grows⟩
      exact ⟨more, by rw [disk, isMore], grows isLine⟩
    split at isRef
    next isNew =>
      rcases List.mem_append.mp isRef with isOld | isLast
      · exact old isOld
      · cases List.mem_singleton.mp isLast
        have isDate : date = (files.manifest chunk).utcDate :=
          isNew.1.trans (files.utcDate chunk).symm
        rw [disk, get?_recordFile isOpen, if_pos isDate]
        exact ⟨_, rfl, List.mem_append_right _ List.mem_cons_self⟩
    next => exact old isRef
  · intro date
    rw [disk, sealedDays_recordFile,
      DayIndex.sealedDays_recordGenerated recorded]
    exact held.sealedDays date

theorem get?_sealFiles (disk : InventoryDisk) (utcDate date : Nat) :
    (sealFiles disk utcDate).sealedDays.get? date =
      if date = utcDate ∧ ¬ disk.DayIsSealed utcDate then
        some (readRefs disk utcDate)
      else disk.sealedDays.get? date := by
  simp only [sealFiles, List.foldl_cons, List.foldl_nil, sealStep]
  split
  next isSealed => simp [isSealed]
  next isOpen =>
    rw [Dict.get?_set]
    simp [isOpen]

theorem journals_sealFiles
    (disk : InventoryDisk) {utcDate date : Nat} (other : date ≠ utcDate) :
    (sealFiles disk utcDate).journals.get? date =
      disk.journals.get? date := by
  simp only [sealFiles, List.foldl_cons, List.foldl_nil, sealStep]
  rw [Dict.get?_erase, if_neg other]
  split <;> rfl

/-- A seal lists what the index has recorded. -/
theorem FiledSound.sealDay
    (held : FiledSound files state)
    (lists : ¬ state.disk.DayIsSealed utcDate →
      Lists files (readRefs state.disk utcDate)
        (state.pool.index.refs utcDate)) :
    FiledSound files
      { pool := { state.pool with index := state.pool.index.sealDay utcDate }
        disk := sealFiles state.disk utcDate } where
  holds := held.holds.sealFiles utcDate
  journals := by
    intro date isOpen chunk isRef
    rw [InventoryDisk.DayIsSealed, get?_sealFiles] at isOpen
    rw [DayIndex.refs_sealDay] at isRef
    split at isOpen
    next => exact absurd rfl isOpen
    next others =>
      have other : date ≠ utcDate := by
        rintro rfl
        exact others ⟨rfl, isOpen⟩
      rw [journals_sealFiles state.disk other]
      exact held.journals date isOpen chunk isRef
  sealedDays := by
    intro date
    rw [get?_sealFiles]
    unfold DayIndex.sealDay
    by_cases isSealed : state.disk.DayIsSealed utcDate
    · rw [if_neg (fun both => both.2 isSealed),
        if_pos (held.dayIsSealed_iff.mp isSealed)]
      exact held.sealedDays date
    · rw [if_neg (mt held.dayIsSealed_iff.mpr isSealed)]
      simp only [Dict.get?_set]
      by_cases same : date = utcDate
      · rw [if_pos ⟨same, isSealed⟩, if_pos same]
        exact .some (lists isSealed)
      · rw [if_neg (fun both => same both.1), if_neg same]
        exact held.sealedDays date

/-! ## Whole runs -/

variable {limits : ChunkLimits} {maxBytes : Nat}

/-- A step of the pool which writes nothing. -/
theorem FiledSound.same
    (held : FiledSound files state) {pool : PoolState}
    (index : pool.index = state.pool.index)
    (finished : ∀ group,
      (pool.writers group).finished =
        (state.pool.writers group).finished) :
    FiledSound files { state with pool } :=
  held.grow index rfl (journalsGrow_of_eq rfl)
    (held.holds.mono fun _ known => known.mono fun group _ =>
      (finished group).symm ▸ List.Subset.refl _)

theorem FiledSound.work
    (held : FiledSound files state)
    (kept : BehindSound limits state.pool) {group : WriterGroup}
    (isQueued : group ∈ queuedGroups) {tooOld : Bool} {pool : PoolState}
    (worked : state.pool.workStep limits group tooOld = some pool) :
    FiledSound files
      { pool
        disk := filesAfter files state.pool pool state.disk
          (.work group tooOld) } := by
  rcases workStep_cases worked with
    ⟨waits, idles | ⟨chunk, closes⟩⟩ |
      ⟨chunk, resume, isStage, refused | ⟨index, recorded, idles⟩⟩
  · simp only [filesAfter, waits, idles.idle]
    exact held.same idles.index idles.finished
  · simp only [filesAfter, waits, closes.unrecorded]
    have grows : ∀ other ∈ queuedGroups,
        (state.pool.writers other).finished ⊆
          (pool.writers other).finished := by
      intro other _
      by_cases here : other = group
      · rw [here, closes.finished]
        exact List.subset_append_left _ _
      · rw [(closes.others other here).1]
        exact List.Subset.refl _
    have isKnown : files.Known pool (files.manifest chunk) := by
      refine Or.inl ⟨group, isQueued, chunk, ?_, rfl⟩
      rw [closes.finished]
      exact List.mem_append_right _ List.mem_cons_self
    exact held.grow closes.index rfl (journalsGrow_of_eq rfl)
      ((held.holds.mono fun _ known => known.mono grows).writeManifest
        isKnown)
  · rcases refused with ⟨problem, refused⟩
    have isOpen := kept.seals.record_open kept.sound isQueued
      (unrecorded_of_stage isStage)
    simp [DayIndex.recordGenerated, isOpen] at refused
    split_ifs at refused
  · have isUnrecorded := unrecorded_of_stage isStage
    have pending : (state.pool.writers group).unrecorded = [chunk] := by
      rw [Writer.unrecorded, isStage]
    simp only [filesAfter, pending]
    have grows : ∀ other ∈ queuedGroups,
        (state.pool.writers other).finished ⊆
          (pool.writers other).finished := by
      intro other _
      rw [idles.finished]
      exact List.Subset.refl _
    have isKnown : files.Known pool (files.manifest chunk) := by
      refine Or.inl ⟨group, isQueued, chunk, grows group isQueued ?_, rfl⟩
      rw [kept.seals.finished group isQueued]
      exact List.mem_append_right _ isUnrecorded
    have isIndex : pool.index = index := idles.index
    exact held.record isKnown grows (isIndex ▸ recorded) rfl

theorem FiledSound.step
    {label : FileLabel} (held : FiledSound files state)
    (kept : BehindSound limits state.pool)
    (behind : FiledBehind state label)
    (stepped : filedStep limits maxBytes files state label = some after) :
    FiledSound files after := by
  cases label with
  | generate manifest =>
      simp only [filedStep, Option.ite_none_right_eq_some] at stepped
      rcases stepped with ⟨artifact, ⟨⟩⟩
      exact held.grow rfl (sealedDays_generateFile _ _)
        (journalsGrow_generateFile _ _)
        (held.holds.generateFile (Or.inr artifact))
  | collect path =>
      cases stepped
      exact held.grow rfl (sealedDays_collectManifest _ _)
        (journalsGrow_collectManifest _ _) (held.holds.collectManifest path)
  | pool label =>
      rcases Option.map_eq_some_iff.mp stepped with ⟨pool, worked, rfl⟩
      cases label with
      | put event =>
          simp only [poolStep] at worked
          split_ifs at worked
          · cases worked
            exact held
          · cases worked
            refine held.same rfl fun group => ?_
            by_cases here : group = event.writerGroup
            · rw [here, PoolState.accept, setWriter_self]
            · rw [PoolState.accept, setWriter_other _ _ here]
      | rotate universeHash =>
          simp only [poolStep, Option.ite_none_right_eq_some] at worked
          rcases worked with ⟨_, ⟨⟩⟩
          refine held.same rfl fun group => ?_
          simp only [PoolState.beginRotate]
          split <;> rfl
      | cancelRotate =>
          rcases Option.map_eq_some_iff.mp worked with ⟨rotation, _, rfl⟩
          exact held.same rfl fun _ => rfl
      | returnRotate =>
          simp only [poolStep] at worked
          split at worked
          next =>
            cases worked
            exact held.same rfl fun _ => rfl
          next => cases worked
      | stop =>
          cases worked
          refine held.same rfl fun group => ?_
          simp only [PoolState.beginStop]
          split <;> rfl
      | timeout group tooOld =>
          simp only [poolStep] at worked
          split_ifs at worked
          · cases worked
            have idles : Idles group state.pool _ :=
              idles_beginFinish state.pool .wait
            exact held.same idles.index idles.finished
          · cases worked
            exact held
      | work group tooOld =>
          simp only [poolStep, Option.ite_none_right_eq_some] at worked
          exact held.work kept worked.1 worked.2
      | sealDay utcDate =>
          cases worked
          refine held.sealDay fun isOpen => ?_
          rcases behind with already | passed
          · exact absurd (held.dayIsSealed_iff.mpr already) isOpen
          · exact held.lists kept.sound kept.ids kept.seals isOpen
              fun group isQueued =>
                kept.seals.nothing_pending kept.sound kept.ids isQueued passed

theorem filedSound_started (files : ChunkFiles) (universeHash : String) :
    FiledSound files { pool := .started universeHash } where
  holds := by
    constructor
    · rintro path manifest ⟨⟩
    · rintro date name manifest ⟨⟩
    · rintro date lines ⟨⟩
  journals := by
    rintro date _ chunk ⟨⟩
  sealedDays _ := .none

/-- At every moment of such a run the files stand for the pool's chunks. -/
theorem FiledSound.run
    {universeHash : String} {labels : List FileLabel} {final : FiledPool}
    (behind : StepsMeet (filedStep limits maxBytes files) FiledBehind
      { pool := .started universeHash } labels)
    (reached : runFrom (filedStep limits maxBytes files)
      { pool := .started universeHash } labels = some final) :
    BehindSound limits final.pool ∧ FiledSound files final := by
  have preserved : ∀ before label after,
      BehindSound limits before.pool ∧ FiledSound files before →
        FiledBehind before label →
          filedStep limits maxBytes files before label = some after →
            BehindSound limits after.pool ∧ FiledSound files after := by
    rintro before label after ⟨kept, held⟩ behind stepped
    refine ⟨?_, held.step kept behind stepped⟩
    cases label with
    | generate manifest =>
        simp only [filedStep, Option.ite_none_right_eq_some] at stepped
        rcases stepped with ⟨_, ⟨⟩⟩
        exact kept
    | collect path =>
        cases stepped
        exact kept
    | pool label =>
        rcases Option.map_eq_some_iff.mp stepped with ⟨pool, worked, rfl⟩
        exact kept.step behind worked
  exact invariant_of_run preserved
    ⟨behindSound_started limits universeHash,
      filedSound_started files universeHash⟩ behind reached

end Files

/--
Behind the barrier the inventory of a sealed day lists chunks of the writers,
sorted by their identities, whose rows in the order of recording are exactly the
accepted events of the date, in order; and no writer is about to record a chunk
of a sealed day.
-/
theorem sealed_day_complete
    {limits : ChunkLimits} {maxBytes : Nat} (files : ChunkFiles)
    {universeHash : String} {labels : List FileLabel} {final : FiledPool}
    (behind : StepsMeet (filedStep limits maxBytes files) FiledBehind
      { pool := .started universeHash } labels)
    (reached : runFrom (filedStep limits maxBytes files)
      { pool := .started universeHash } labels = some final) :
    (∀ utcDate inventory,
      final.disk.sealedDays.get? utcDate = some inventory →
        ∃ chunks, Lists files inventory chunks ∧
          ∀ group ∈ queuedGroups, rowsOf chunks group =
            (final.pool.writers group).acceptedOn utcDate) ∧
      ∀ group ∈ queuedGroups, ∀ chunk resume,
        (final.pool.writers group).stage = .record chunk resume →
          ¬ final.disk.DayIsSealed chunk.utcDate := by
  rcases FiledSound.run behind reached with ⟨kept, held⟩
  constructor
  · intro utcDate inventory found
    have related := held.sealedDays utcDate
    rw [found] at related
    cases sealedHere : final.pool.index.sealedDays.get? utcDate with
    | none =>
        rw [sealedHere] at related
        cases related
    | some chunks =>
        rw [sealedHere] at related
        cases related with
        | some lists =>
            have isSealed : final.pool.index.DayIsSealed utcDate := by
              rw [DayIndex.DayIsSealed, sealedHere]
              rfl
            refine ⟨chunks, lists, fun group isQueued => ?_⟩
            rw [kept.seals.agree utcDate chunks sealedHere]
            exact (kept.seals.complete utcDate isSealed group isQueued).symm
  · intro group isQueued chunk resume isStage
    rw [held.dayIsSealed_iff]
    exact kept.seals.record_open kept.sound isQueued
      (unrecorded_of_stage isStage)

/-! ## Two chunks of a day -/

/-- The later a chunk is drawn, the earlier its id sorts, if there are two. -/
def sampleChunkId : Nat → String
  | 0 => "chunk-00"
  | count + 1 =>
      "chunk-" ++ String.ofList ('-' :: List.replicate (count + 1) '-')

theorem sampleChunkId_injective : Function.Injective sampleChunkId := by
  intro left right same
  have lists := congrArg String.toList same
  cases left with
  | zero => cases right <;> simp [sampleChunkId] at lists ⊢
  | succ left =>
      cases right with
      | zero => simp [sampleChunkId] at lists
      | succ right => simpa [sampleChunkId] using congrArg List.length lists

def sampleFiles : ChunkFiles where
  manifest chunk :=
    { chunkId := sampleChunkId chunk.chunkId
      dataPath := relativePath chunk.utcDate chunk.writerGroup
        (sampleChunkId chunk.chunkId ++ ".parquet")
      sha256 := "abc"
      sizeBytes := 100
      contentType := .parquet
      collectorId := "collector"
      writerGroup := chunk.writerGroup
      utcDate := chunk.utcDate
      eventCount := chunk.eventCount
      minAppReceiveRealtimeNs := 0
      maxAppReceiveRealtimeNs := chunk.maxAppReceiveRealtimeNs
      dataContractHash := "contract"
      universeHash := chunk.tag.hash
      createdAt := 0
      timeRange := Nat.zero_le _ }
  isChunkId name := name.toList.head? = some 'c'
  utcDate _ := rfl
  directory _ := rfl
  contentType _ := rfl
  chunkId chunk := by
    cases chunk.chunkId <;> simp [sampleChunkId]
  apart _ _ same := sampleChunkId_injective same

/-- An artifact of the gap journal for day 0. -/
def sampleArtifact : ChunkManifestV1 where
  chunkId := "gap-depth-5-open"
  dataPath := relativePath 0 .control "gap-depth-5-open.gap.json"
  sha256 := "def"
  sizeBytes := 50
  contentType := .gapJson
  collectorId := "collector"
  writerGroup := .control
  utcDate := 0
  eventCount := 1
  minAppReceiveRealtimeNs := 5
  maxAppReceiveRealtimeNs := 5
  dataContractHash := "contract"
  universeHash := "first"
  createdAt := 0
  timeRange := le_refl _

/-- An event is put, and a `rotate` returns behind it. -/
def rotateBehind (event : RawEvent) (universeHash : String) :
    List FileLabel :=
  [.pool (.put event), .pool (.rotate universeHash)] ++
    List.replicate 7 (.pool (.work .depth false)) ++
    [.pool (.work .tradesMarket false), .pool (.work .metadata false),
      .pool .returnRotate]

/-- Two chunks and an artifact, an acknowledgement, and the seal. -/
def sealedRun : List FileLabel :=
  rotateBehind (depthEvent 5) "second" ++ [.generate sampleArtifact] ++
    rotateBehind (depthEvent 7) "third" ++
    [.collect (relativePath 0 .depth "chunk-00.manifest.json"),
      .pool (.sealDay 0), .pool (.put (depthEvent (midnightNs 1)))]

theorem sealedRun_runs :
    (runFrom (filedStep smallLimits 10000 sampleFiles)
      { pool := .started "first" } sealedRun).isSome := by
  decide +kernel

def sealedFinal : FiledPool :=
  (runFrom (filedStep smallLimits 10000 sampleFiles)
    { pool := .started "first" } sealedRun).get sealedRun_runs

/-- The inventory has the artifact too, and the second chunk comes first. -/
theorem sealed_day_complete_rotated :
    ∃ inventory chunks,
      sealedFinal.disk.sealedDays.get? 0 = some inventory ∧
        inventory.map ChunkRefV1.chunkId =
          ["chunk---", "chunk-00", "gap-depth-5-open"] ∧
        Lists sampleFiles inventory chunks ∧
        rowsOf chunks .depth = [depthEvent 5, depthEvent 7] := by
  have behind : StepsMeet (filedStep smallLimits 10000 sampleFiles)
      FiledBehind { pool := .started "first" } sealedRun := by
    decide +kernel
  have complete := (sealed_day_complete sampleFiles behind
    (Option.some_get sealedRun_runs).symm).1
  have isSealed : (sealedFinal.disk.sealedDays.get? 0).map
      (List.map ChunkRefV1.chunkId) =
        some ["chunk---", "chunk-00", "gap-depth-5-open"] := by
    decide +kernel
  rcases Option.map_eq_some_iff.mp isSealed with ⟨inventory, found, isNamed⟩
  rcases complete 0 inventory found with ⟨chunks, lists, rows⟩
  refine ⟨inventory, chunks, found, isNamed, lists, ?_⟩
  rw [rows .depth (by decide)]
  decide +kernel

end ShadowDataPlane.Edge
