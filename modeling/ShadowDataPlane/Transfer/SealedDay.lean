import ShadowDataPlane.Central.RawDay
import ShadowDataPlane.Edge.DayInventory
import ShadowDataPlane.Transfer.StoreIntegrity

/-!
# A sealed day at the centre

The edge seals the inventory of a day; the puller mirrors the ready directory,
takes over chunks and publishes the day; the normalizer and the gap ledger read
what the centre holds.  Edge and centre take turns in any order, and both may
crash between two durable steps.

A day which stands at the centre is the one the edge sealed, and every check of
the readers passes but one: `_publish_complete_day` looks for the data of the
chunks and not for their manifests, so `_load_chunk_manifests` may find one
missing (`sealed_day_loads`, `sealed_day_unloadable`).  What was acknowledged
is never missing.
-/

namespace ShadowDataPlane.Transfer

open ShadowDataPlane.Foundation
open ShadowDataPlane.Contracts
open ShadowDataPlane.Central
open ShadowDataPlane.Edge

/-! ## The names of chunks -/

/-- The file name of a Parquet chunk or of a gap artifact. -/
def chunkFileName (manifest : ChunkManifestV1) : String :=
  manifest.chunkId ++
    match manifest.contentType with
    | .parquet => ".parquet"
    | .gapJson => ".gap.json"

/-- The manifest names a file as the writers and the gap journal do. -/
structure ChunkNamed (collectorId : String) (manifest : ChunkManifestV1) :
    Prop where
  collector : manifest.collectorId = collectorId
  path : manifest.dataPath = relativePath manifest.utcDate
    manifest.writerGroup (chunkFileName manifest)

instance (collectorId : String) (manifest : ChunkManifestV1) :
    Decidable (ChunkNamed collectorId manifest) :=
  decidable_of_iff
    (manifest.collectorId = collectorId ∧
      manifest.dataPath = relativePath manifest.utcDate manifest.writerGroup
        (chunkFileName manifest))
    ⟨fun both => ⟨both.1, both.2⟩, fun named => ⟨named.collector, named.path⟩⟩

/-- One file name or one chunk id for both. -/
def SharesName (left right : ChunkManifestV1) : Prop :=
  SameFile left right ∨ left.chunkId = right.chunkId

instance (left right : ChunkManifestV1) : Decidable (SharesName left right) :=
  inferInstanceAs (Decidable (_ ∨ _))

/--
A manifest which the edge is about to write: it is named as its files are, and
a name is used again for the same chunk only, as a gap artifact is.
-/
def Named (collectorId : String) (history : InventoryHistory)
    (manifest : ChunkManifestV1) : Prop :=
  ChunkNamed collectorId manifest ∧
    ∀ other ∈ history.manifests, SharesName manifest other →
      other.asRef = manifest.asRef

instance (collectorId : String) (history : InventoryHistory)
    (manifest : ChunkManifestV1) :
    Decidable (Named collectorId history manifest) :=
  inferInstanceAs (Decidable (_ ∧ ∀ other ∈ _, _))

section Names

variable {collectorId : String} {manifest : ChunkManifestV1}

/-- A chunk's name ends like the name of its kind, so not otherwise. -/
theorem ChunkNamed.not_suffix
    (named : ChunkNamed collectorId manifest) {ending : List Char}
    (parquet : ¬ (ending <:+ ".parquet".toList ∨
      ".parquet".toList <:+ ending))
    (gapJson : ¬ (ending <:+ ".gap.json".toList ∨
      ".gap.json".toList <:+ ending)) :
    ¬ ending <:+ manifest.dataPath.name.toList := by
  intro isSuffix
  rw [named.path] at isSuffix
  simp only [relativePath, chunkFileName, String.toList_append] at isSuffix
  cases kind : manifest.contentType with
  | parquet =>
      rw [kind] at isSuffix
      exact parquet
        (List.suffix_or_suffix_of_suffix isSuffix (List.suffix_append _ _))
  | gapJson =>
      rw [kind] at isSuffix
      exact gapJson
        (List.suffix_or_suffix_of_suffix isSuffix (List.suffix_append _ _))

theorem ChunkNamed.storable (named : ChunkNamed collectorId manifest) :
    Storable manifest.dataPath := by
  refine ⟨?_, fun hidden => ?_⟩
  · rw [named.path]
    trivial
  · exact named.not_suffix (by decide +kernel) (by decide +kernel)
      hidden.suffix

theorem ChunkNamed.not_namesChunk
    (named : ChunkNamed collectorId manifest) :
    ¬ namesChunk manifest.dataPath := by
  intro isManifest
  simp only [namesChunk, List.isSuffixOf_iff_suffix] at isManifest
  exact named.not_suffix (by decide +kernel) (by decide +kernel) isManifest

end Names

/-! ## What the edge has published -/

/-- The manifests the edge writes, and the inventories it seals. -/
structure EdgeNamed (collectorId : String) (history : InventoryHistory) :
    Prop where
  sound : InventorySound history
  named : ∀ manifest ∈ history.manifests, ChunkNamed collectorId manifest
  single : ∀ left ∈ history.manifests, ∀ right ∈ history.manifests,
    SharesName left right → left.asRef = right.asRef
  listed : ∀ utcDate inventory,
    history.disk.sealedDays.get? utcDate = some inventory →
      ∀ chunk ∈ inventory, ∃ manifest ∈ history.published,
        manifest.asRef = chunk ∧ manifest.utcDate = utcDate

/-- Nothing which was published or sealed is taken back. -/
structure EdgeGrows (before after : InventoryHistory) : Prop where
  published : before.published ⊆ after.published
  sealedDays : ∀ utcDate inventory,
    before.disk.sealedDays.get? utcDate = some inventory →
      after.disk.sealedDays.get? utcDate = some inventory

theorem EdgeGrows.refl (history : InventoryHistory) :
    EdgeGrows history history :=
  ⟨List.Subset.refl _, fun _ _ isSealed => isSealed⟩

theorem EdgeGrows.trans
    {first second third : InventoryHistory}
    (earlier : EdgeGrows first second) (later : EdgeGrows second third) :
    EdgeGrows first third :=
  ⟨List.Subset.trans earlier.published later.published,
    fun utcDate inventory isSealed =>
      later.sealedDays utcDate inventory
        (earlier.sealedDays utcDate inventory isSealed)⟩

/-- The manifest of a call which a label starts. -/
def startedManifest : InventoryLabel → Option ChunkManifestV1
  | .finish manifest | .recordGenerated manifest => some manifest
  | .sealDay _ | .collect _ | .work _ | .cancel _ | .crash => none

section Publishing

variable {collectorId : String} {before after : InventoryHistory}
variable {label : InventoryLabel}

theorem SharesName.symm
    {left right : ChunkManifestV1} (shared : SharesName left right) :
    SharesName right left := by
  rcases shared with ⟨sameDate, sameName⟩ | sameId
  · exact Or.inl ⟨sameDate.symm, sameName.symm⟩
  · exact Or.inr sameId.symm

theorem manifest?_taskWork
    (disk : InventoryDisk) (task : IndexTask) :
    ∀ next ∈ (taskWork disk task).2, next.manifest? = task.manifest? := by
  intro next isNext
  cases task with
  | finish manifest stage =>
      simp only [taskWork] at isNext
      split at isNext
      · cases isNext
      · rcases Option.map_eq_some_iff.mp isNext with ⟨stage, _, rfl⟩
        rfl
  | recordGenerated manifest stage =>
      simp only [taskWork] at isNext
      split at isNext
      · cases isNext
      · rcases Option.map_eq_some_iff.mp isNext with ⟨stage, _, rfl⟩
        rfl
  | sealDay utcDate stage =>
      rcases Option.map_eq_some_iff.mp isNext with ⟨stage, _, rfl⟩
      rfl

/-- A step only brings the manifest of the call which it starts. -/
theorem manifests_indexStep
    (stepped : indexStep before label = some after) :
    ∀ manifest ∈ after.manifests,
      manifest ∈ before.manifests ∨ startedManifest label = some manifest := by
  intro manifest member
  cases label with
  | finish started | recordGenerated started =>
      simp only [indexStep, Option.ite_none_right_eq_some] at stepped
      rcases stepped with ⟨_, ⟨⟩⟩
      simp only [InventoryHistory.manifests, List.filterMap_append,
        ← List.append_assoc] at member
      rcases List.mem_append.mp member with old | new
      · exact Or.inl old
      · exact Or.inr (by simpa [IndexTask.manifest?, startedManifest,
          eq_comm] using new)
  | sealDay utcDate =>
      cases stepped
      apply Or.inl
      simpa [InventoryHistory.manifests, List.filterMap_append,
        IndexTask.manifest?] using member
  | collect path =>
      cases stepped
      exact Or.inl member
  | cancel position =>
      cases stepped
      apply Or.inl
      rcases List.mem_append.mp member with written | pending
      · exact List.mem_append_left _ written
      · exact List.mem_append_right _
          (((List.eraseIdx_sublist _ _).filterMap _).subset pending)
  | crash =>
      cases stepped
      apply Or.inl
      simp only [InventoryHistory.manifests, List.filterMap_nil,
        List.append_nil] at member
      exact List.mem_append_left _ member
  | work position =>
      simp only [indexStep, Option.map_eq_some_iff] at stepped
      rcases stepped with ⟨task, turn, rfl⟩
      have isTask : task ∈ before.tasks := List.mem_of_getElem? turn
      have known : ∀ other, task.manifest? = some other →
          other ∈ before.manifests := fun other isManifest =>
        List.mem_append_right _
          (List.mem_filterMap.mpr ⟨task, isTask, isManifest⟩)
      apply Or.inl
      rcases List.mem_append.mp member with written | pending
      · rcases List.mem_append.mp written with old | new
        · exact List.mem_append_left _ old
        · exact known manifest (IndexTask.manifest_of_writes new)
      · rcases List.mem_filterMap.mp pending with ⟨other, isOther, isManifest⟩
        rcases List.mem_append.mp isOther with waiting | isNext
        · exact List.mem_append_right _ (List.mem_filterMap.mpr
            ⟨other, (List.eraseIdx_sublist _ _).subset waiting, isManifest⟩)
        · rw [manifest?_taskWork _ _ other (Option.mem_toList.mp isNext)]
            at isManifest
          exact known manifest isManifest

theorem edgeGrows_indexStep
    (stepped : indexStep before label = some after) :
    EdgeGrows before after where
  published := by
    cases label with
    | finish _ | recordGenerated _ =>
        simp only [indexStep, Option.ite_none_right_eq_some] at stepped
        rcases stepped with ⟨_, ⟨⟩⟩
        exact List.Subset.refl _
    | sealDay _ | collect _ | cancel _ | crash =>
        cases stepped
        exact List.Subset.refl _
    | work position =>
        simp only [indexStep, Option.map_eq_some_iff] at stepped
        rcases stepped with ⟨task, _, rfl⟩
        exact List.subset_append_left _ _
  sealedDays utcDate inventory isSealed := by
    have sealedAs : SealedAs utcDate inventory before := isSealed
    exact sealedAs.step stepped

/-- A day is sealed with what `_read_refs` finds. -/
theorem sealed_of_taskWork
    {disk : InventoryDisk} {task : IndexTask} {utcDate : Nat}
    {inventory : List ChunkRefV1}
    (isSealed : (taskWork disk task).1.sealedDays.get? utcDate =
      some inventory) :
    disk.sealedDays.get? utcDate = some inventory ∨
      inventory = readRefs disk utcDate := by
  cases task with
  | finish manifest stage =>
      cases stage with
      | writeManifest | openJournal | append => exact Or.inl isSealed
      | checkSealed =>
          apply Or.inl
          simp only [taskWork, finishStep] at isSealed
          split_ifs at isSealed <;> exact isSealed
  | recordGenerated manifest stage =>
      cases stage with
      | writeManifest | openJournal | append => exact Or.inl isSealed
      | checkSealed =>
          apply Or.inl
          simp only [taskWork, recordGeneratedStep] at isSealed
          split_ifs at isSealed <;> exact isSealed
  | sealDay other stage =>
      cases stage with
      | cleanJournal | cleanAcked => exact Or.inl isSealed
      | writeSealed =>
          simp only [taskWork, sealStep] at isSealed
          split at isSealed
          next => exact Or.inl isSealed
          next =>
            rw [Dict.get?_set] at isSealed
            split at isSealed
            next same =>
              rw [same]
              exact Or.inr (Option.some.inj isSealed).symm
            next => exact Or.inl isSealed

theorem sealed_of_indexStep
    (stepped : indexStep before label = some after) {utcDate : Nat}
    {inventory : List ChunkRefV1}
    (isSealed : after.disk.sealedDays.get? utcDate = some inventory) :
    before.disk.sealedDays.get? utcDate = some inventory ∨
      inventory = readRefs before.disk utcDate := by
  cases label with
  | finish _ | recordGenerated _ =>
      simp only [indexStep, Option.ite_none_right_eq_some] at stepped
      rcases stepped with ⟨_, ⟨⟩⟩
      exact Or.inl isSealed
  | sealDay _ | cancel _ | crash =>
      cases stepped
      exact Or.inl isSealed
  | collect path =>
      cases stepped
      apply Or.inl
      change (collectManifest before.disk path).sealedDays.get? utcDate =
        some inventory at isSealed
      unfold collectManifest at isSealed
      split at isSealed
      · exact isSealed
      · split at isSealed <;> exact isSealed
  | work position =>
      simp only [indexStep, Option.map_eq_some_iff] at stepped
      rcases stepped with ⟨task, _, rfl⟩
      exact sealed_of_taskWork isSealed

theorem EdgeNamed.step
    (edge : EdgeNamed collectorId before)
    (named : ∀ manifest ∈ startedManifest label,
      Named collectorId before manifest)
    (stepped : indexStep before label = some after) :
    EdgeNamed collectorId after where
  sound := edge.sound.step stepped
  named := by
    intro manifest member
    rcases manifests_indexStep stepped manifest member with old | new
    · exact edge.named manifest old
    · exact (named manifest new).1
  single := by
    intro left isLeft right isRight shared
    rcases manifests_indexStep stepped left isLeft with oldLeft | newLeft
    · rcases manifests_indexStep stepped right isRight with
        oldRight | newRight
      · exact edge.single left oldLeft right oldRight shared
      · exact (named right newRight).2 left oldLeft shared.symm
    · rcases manifests_indexStep stepped right isRight with
        oldRight | newRight
      · exact ((named left newLeft).2 right oldRight shared).symm
      · rw [Option.some.inj (newLeft.symm.trans newRight)]
  listed := by
    intro utcDate inventory isSealed chunk isListed
    have grows := (edgeGrows_indexStep stepped).published
    rcases sealed_of_indexStep stepped isSealed with old | rfl
    · rcases edge.listed utcDate inventory old chunk isListed with
        ⟨manifest, isPublished, same⟩
      exact ⟨manifest, grows isPublished, same⟩
    · have apart : ManifestsApart before.published :=
        edge.sound.apart.subset (List.subset_append_left _ _)
      rcases edge.sound.disk.mem_readRefs apart.placed isListed with
        ⟨manifest, isPublished, same⟩
      exact ⟨manifest, grows isPublished, same⟩

theorem edgeNamed_start : EdgeNamed collectorId {} where
  sound := inventorySound_start
  named := by
    rintro manifest ⟨⟩
  single := by
    rintro left ⟨⟩
  listed := by
    rintro utcDate inventory ⟨⟩

end Publishing

/-! ## Edge and centre -/

/-- The day index of the edge, and the puller. -/
structure SealingState (β : Type) where
  edge : InventoryHistory := {}
  centre : PullerState β := {}
deriving DecidableEq

/-- The steps of the edge and of the centre. -/
inductive SealingLabel (β : Type) where
  | edge (label : InventoryLabel)
  | centre (label : PullerLabel β)
deriving DecidableEq

section System

variable {β : Type} (codec : FileCodec β) (collectorId : String)

/-- The bytes of a manifest or of a day which the edge has published. -/
def PublishedBytes (edge : InventoryHistory) (bytes : β) : Prop :=
  (∀ manifest ∈ codec.parseManifest bytes, manifest ∈ edge.published) ∧
    ∀ day ∈ codec.parseDay bytes, day.collectorId = collectorId ∧
      edge.disk.sealedDays.get? day.utcDate = some day.chunks

/-- What rsync brings is what the edge has in its ready directory. -/
def Mirrored (edge : InventoryHistory) (files : Dict DataPath β) : Prop :=
  ∀ entry ∈ files.entries, PublishedBytes codec collectorId edge entry.2

instance (edge : InventoryHistory) (bytes : β) :
    Decidable (PublishedBytes codec collectorId edge bytes) :=
  inferInstanceAs (Decidable (_ ∧ _))

instance (edge : InventoryHistory) (files : Dict DataPath β) :
    Decidable (Mirrored codec collectorId edge files) :=
  List.decidableBAll _ _

variable [DecidableEq β]

def sealingStep (state : SealingState β) :
    SealingLabel β → Option (SealingState β)
  | .edge label =>
      if ∀ manifest ∈ startedManifest label,
          Named collectorId state.edge manifest then
        (indexStep state.edge label).map fun edge => { state with edge }
      else none
  | .centre (.mirror files) =>
      if Mirrored codec collectorId state.edge files then
        (pullerStep codec state.centre (.mirror files)).map fun centre =>
          { state with centre }
      else none
  | .centre label =>
      (pullerStep codec state.centre label).map fun centre =>
        { state with centre }

end System

/-! ## What stands at the centre -/

section Centre

variable {β : Type} (codec : FileCodec β) (collectorId : String)

/-- Manifests stand beside their chunks, and days under their dates. -/
structure Made (edge : InventoryHistory) (place : String × DataPath)
    (bytes : β) : Prop where
  published : PublishedBytes codec collectorId edge bytes
  manifest : namesChunk place.2 → ∃ manifest,
    codec.parseManifest bytes = some manifest ∧
      place = manifestBeside (destination manifest)
  day : ∀ owner utcDate, place = sealedPlace owner utcDate → ∃ day,
    codec.parseDay bytes = some day ∧ day.collectorId = owner ∧
      day.utcDate = utcDate

/-- A file which is neither a manifest nor a day. -/
def Plain (place : String × DataPath) : Prop :=
  WriterForm place.2 ∧ ¬ namesChunk place.2

/-- What may stand under a final name. -/
def Placeable (edge : InventoryHistory) (place : String × DataPath)
    (bytes : β) : Prop :=
  Plain place ∨ Made codec collectorId edge place bytes

/-- The manifest which a stage carries was published. -/
def IngestMade (edge : InventoryHistory) : IngestStage β → Prop
  | .readManifest => True
  | .checkDestination manifest bytes | .openPartial manifest bytes
  | .download manifest bytes | .verifyPartial manifest bytes
  | .replacePartial manifest bytes | .checkManifest manifest bytes
  | .writeManifest manifest bytes | .replaceManifest manifest bytes =>
      PublishedBytes codec collectorId edge bytes ∧
        manifest ∈ edge.published
  | .writeAck manifest => manifest ∈ edge.published

def DayMade (edge : InventoryHistory) (raw : RawFiles β) :
    DayStage β → Prop
  | .readDay => True
  | .writeDay place bytes => Made codec collectorId edge place bytes
  | .replaceDay place => ∀ bytes,
      raw.get? (hiddenBeside place) = some bytes →
        Made codec collectorId edge place bytes

def TaskMade (edge : InventoryHistory) (raw : RawFiles β) :
    PullTask β → Prop
  | .ingest _ stage => IngestMade codec collectorId edge stage
  | .publishDay _ stage => DayMade codec collectorId edge raw stage

/-- What every run of edge and centre guarantees. -/
structure SealingSound (state : SealingState β) : Prop where
  edge : EdgeNamed collectorId state.edge
  store : StoreSound codec state.centre
  mirror : Mirrored codec collectorId state.edge state.centre.central.mirror
  raw : ∀ place bytes, ¬ Hidden place.2 →
    state.centre.central.raw.get? place = some bytes →
      Placeable codec collectorId state.edge place bytes
  task : ∀ task ∈ state.centre.task,
    TaskMade codec collectorId state.edge state.centre.central.raw task
  pending : ∀ task ∈ state.centre.pending, ∀ raw,
    TaskMade codec collectorId state.edge raw task

variable {codec collectorId}
variable {edge later : InventoryHistory} {place : String × DataPath}
variable {bytes : β} {raw after : RawFiles β}

theorem PublishedBytes.mono
    (published : PublishedBytes codec collectorId edge bytes)
    (grows : EdgeGrows edge later) :
    PublishedBytes codec collectorId later bytes := by
  refine ⟨fun manifest parsed => grows.published (published.1 manifest parsed),
    fun day parsed => ?_⟩
  rcases published.2 day parsed with ⟨collector, isSealed⟩
  exact ⟨collector, grows.sealedDays _ _ isSealed⟩

theorem Made.mono
    (made : Made codec collectorId edge place bytes)
    (grows : EdgeGrows edge later) :
    Made codec collectorId later place bytes :=
  { made with published := made.published.mono grows }

theorem Placeable.mono
    (placeable : Placeable codec collectorId edge place bytes)
    (grows : EdgeGrows edge later) :
    Placeable codec collectorId later place bytes :=
  placeable.imp_right fun made => made.mono grows

theorem TaskMade.mono
    {task : PullTask β} (made : TaskMade codec collectorId edge raw task)
    (grows : EdgeGrows edge later) :
    TaskMade codec collectorId later raw task := by
  cases task with
  | ingest path stage =>
      cases stage with
      | readManifest => trivial
      | writeAck => exact grows.published made
      | checkDestination | openPartial | download | verifyPartial
      | replacePartial | checkManifest | writeManifest | replaceManifest =>
          exact ⟨made.1.mono grows, grows.published made.2⟩
  | publishDay path stage =>
      cases stage with
      | readDay => trivial
      | writeDay => exact Made.mono made grows
      | replaceDay => exact fun bytes found => (made bytes found).mono grows

/-- A mirror of what the edge has published names its data paths. -/
theorem Mirrored.namesOnly
    {files : Dict DataPath β}
    (mirrored : Mirrored codec collectorId edge files)
    (named : EdgeNamed collectorId edge) :
    NamesOnly codec Storable files := by
  have storable : ∀ manifest ∈ edge.published, Storable manifest.dataPath :=
    fun manifest isPublished =>
      (named.named manifest (List.mem_append_left _ isPublished)).storable
  intro entry listed
  rcases mirrored entry listed with ⟨manifests, days⟩
  refine ⟨fun manifest parsed => storable manifest (manifests manifest parsed),
    ?_⟩
  intro day parsed chunk isChunk
  rcases named.listed day.utcDate day.chunks (days day parsed).2 chunk isChunk
    with ⟨manifest, isPublished, rfl, _⟩
  exact storable manifest isPublished

theorem mirrorsName_of_mirrored
    {label : PullerLabel β} (named : EdgeNamed collectorId edge)
    (mirrored : ∀ files, label = .mirror files →
      Mirrored codec collectorId edge files) :
    MirrorsName codec Storable label := by
  cases label with
  | mirror files => exact (mirrored files rfl).namesOnly named
  | tick _ | run _ | work | fail _ | crash _ | unstage _ => trivial

/-! ## What the readers find -/

variable {state : SealingState β}

/-- What the normalizer and the gap ledger make of a day. -/
structure Readable (codec : FileCodec β) (parseGap : β → Option GapEventV1)
    (collectorId : String) (edge : InventoryHistory) (raw : RawFiles β)
    (utcDate : Nat) (day : DayManifestV1) : Prop where
  loaded : loadDayManifest codec raw collectorId utcDate = .ok day
  inventory : edge.disk.sealedDays.get? utcDate = some day.chunks
  manifests : ∀ manifests,
    loadChunkManifests codec raw collectorId utcDate day = .ok manifests →
      manifests.map ChunkManifestV1.asRef = day.chunks ∧
        ∀ manifest ∈ manifests, manifest ∈ edge.published ∧
          verifyChunk codec raw collectorId manifest = .ok ()
  missing : ∀ problem,
    loadChunkManifests codec raw collectorId utcDate day = .error problem →
      ∃ chunk ∈ day.chunks,
        problem = .missingManifest (manifestPath collectorId chunk) ∧
          raw.get? (manifestPath collectorId chunk) = none
  ledger : ∀ problem,
    transportGapLedger codec parseGap raw collectorId utcDate =
        .error problem →
      ∃ chunk ∈ gapChunks day, ∃ content,
        raw.get? (collectorId, chunk.dataPath) = some content ∧
          parseGap content = none

/-- The sealed day is what the edge sealed. -/
theorem SealingSound.day
    (sound : SealingSound codec collectorId state) {utcDate : Nat}
    (found : state.centre.central.raw.get? (sealedPlace collectorId utcDate) =
      some bytes) :
    ∃ day, codec.parseDay bytes = some day ∧ day.collectorId = collectorId ∧
      day.utcDate = utcDate ∧
      state.edge.disk.sealedDays.get? utcDate = some day.chunks := by
  rcases sound.raw _ bytes (not_hidden_sealedPlace _ _) found with
    plain | made
  · exact plain.1.elim
  · rcases made.day _ _ rfl with ⟨day, parsed, collector, rfl⟩
    exact ⟨day, parsed, collector, rfl, (made.published.2 day parsed).2⟩

/-- A manifest which stands beside the place of a chunk is that chunk's. -/
theorem SealingSound.chunkManifest
    (sound : SealingSound codec collectorId state)
    {manifest : ChunkManifestV1} (published : manifest ∈ state.edge.published)
    (found : state.centre.central.raw.get?
      (manifestPath collectorId manifest.asRef) = some bytes) :
    ∃ beside ∈ state.edge.published,
      codec.parseManifest bytes = some beside ∧
        beside.asRef = manifest.asRef ∧ beside.utcDate = manifest.utcDate := by
  have isManifest : namesChunk (manifestPath collectorId manifest.asRef).2 :=
    namesChunk_manifest manifest.dataPath
  rcases sound.raw (manifestPath collectorId manifest.asRef) bytes
    (not_hidden_manifest manifest.dataPath) found with plain | made
  · exact absurd isManifest plain.2
  · rcases made.manifest isManifest with ⟨beside, parsed, samePlace⟩
    have isPublished := made.published.1 beside parsed
    have known : ∀ other ∈ state.edge.published,
        other ∈ state.edge.manifests :=
      fun other member => List.mem_append_left _ member
    have samePath : manifest.dataPath.manifest = beside.dataPath.manifest :=
      congrArg Prod.snd samePlace
    have sameDirectory : manifest.dataPath.manifest.directory =
        beside.dataPath.manifest.directory := by
      rw [samePath]
    change manifest.dataPath.directory = beside.dataPath.directory
      at sameDirectory
    have placed := sound.edge.sound.apart.placed
    rw [placed manifest (known manifest published),
      placed beside (known beside isPublished)] at sameDirectory
    have sameDate : beside.utcDate = manifest.utcDate := by
      have heads := (List.cons.inj sameDirectory).1
      exact (PathPart.date.inj heads).symm
    refine ⟨beside, isPublished, parsed, ?_, sameDate⟩
    exact sound.edge.single beside (known beside isPublished) manifest
      (known manifest published)
      (Or.inl ⟨sameDate, (congrArg DataPath.name samePath).symm⟩)

theorem SealingSound.loads_chunk
    (sound : SealingSound codec collectorId state)
    {manifest : ChunkManifestV1} (published : manifest ∈ state.edge.published)
    (found : state.centre.central.raw.get?
      (manifestPath collectorId manifest.asRef) = some bytes) :
    ∃ beside ∈ state.edge.published,
      loadChunkManifest codec state.centre.central.raw collectorId
        manifest.utcDate manifest.asRef = .ok beside := by
  rcases sound.chunkManifest published found with
    ⟨beside, isPublished, parsed, sameRef, sameDate⟩
  have known : beside ∈ state.edge.manifests :=
    List.mem_append_left _ isPublished
  refine ⟨beside, isPublished, loadChunkManifest_ok_iff.mpr
    ⟨bytes, found, parsed, sameRef, (sound.edge.named beside known).collector,
      sameDate, ?_⟩⟩
  rw [sound.edge.sound.apart.placed beside known, sameDate]

/-- What was acknowledged has its manifest beside it. -/
theorem SealingSound.staged
    (sound : SealingSound codec collectorId state)
    {later : SealingState β} (grows : EdgeGrows state.edge later.edge)
    (soundLater : EdgeNamed collectorId later.edge)
    (kept : RawKept state.centre.central.raw later.centre.central.raw)
    {manifest : ChunkManifestV1} (published : manifest ∈ later.edge.published)
    {key : String} {ack : AckV1}
    (staged : state.centre.central.staged.get? key = some ack)
    (sameId : ack.chunkId = manifest.chunkId) :
    (later.centre.central.raw.get?
      (manifestPath collectorId manifest.asRef)).isSome := by
  rcases sound.store.acks key ack staged with
    ⟨beside, bytes, _, parsed, isId, _, _, found⟩
  have isManifest : namesChunk (manifestBeside (destination beside)).2 :=
    namesChunk_manifest beside.dataPath
  rcases sound.raw (manifestBeside (destination beside)) bytes
    (not_hidden_manifest beside.dataPath) found with plain | made
  · exact absurd isManifest plain.2
  · have isPublished := made.published.1 beside parsed
    have sameRef : beside.asRef = manifest.asRef :=
      soundLater.single beside
        (List.mem_append_left _ (grows.published isPublished)) manifest
        (List.mem_append_left _ published) (Or.inr (isId.trans sameId))
    have samePlace : manifestBeside (destination beside) =
        manifestPath collectorId manifest.asRef := by
      rw [← sameRef, destination, (sound.edge.named beside
        (List.mem_append_left _ isPublished)).collector]
      rfl
    rw [← samePlace]
    exact Option.isSome_iff_exists.mpr
      ⟨bytes, kept (manifestBeside (destination beside)) bytes
        (not_hidden_manifest beside.dataPath) found⟩

theorem SealingSound.readable
    (sound : SealingSound codec collectorId state)
    (parseGap : β → Option GapEventV1) {utcDate : Nat}
    (found : state.centre.central.raw.get? (sealedPlace collectorId utcDate) =
      some bytes) :
    ∃ day, Readable codec parseGap collectorId state.edge
      state.centre.central.raw utcDate day := by
  rcases sound.day found with ⟨day, parsed, collector, date, isSealed⟩
  rcases sound.store.days _ bytes found collectorId utcDate rfl with
    ⟨other, sameDay, _, _, chunks⟩
  cases Option.some.inj (parsed.symm.trans sameDay)
  have listed := sound.edge.listed utcDate day.chunks isSealed
  refine ⟨day, loadDayManifest_eq_ok found parsed collector date, isSealed,
    ?_, ?_, ?_⟩
  · intro manifests loaded
    refine ⟨map_asRef_of_loaded loaded, ?_⟩
    intro manifest isManifest
    rcases exists_of_mem_mapM loaded isManifest with ⟨chunk, isChunk, one⟩
    rcases listed chunk isChunk with ⟨known, isPublished, rfl, rfl⟩
    rcases loadChunkManifest_ok_iff.mp one with
      ⟨content, stands, parsedManifest, sameRef, _⟩
    rcases sound.chunkManifest isPublished stands with
      ⟨beside, besidePublished, sameManifest, _, _⟩
    cases Option.some.inj (parsedManifest.symm.trans sameManifest)
    refine ⟨besidePublished, ?_⟩
    rcases chunks known.asRef isChunk with ⟨_, data, here, size, hash⟩
    rw [← sameRef] at here size hash
    exact verifyChunk_eq_ok here size hash
  · intro problem failed
    rcases exists_error_of_mapM failed with ⟨chunk, isChunk, one⟩
    refine ⟨chunk, isChunk, ?_⟩
    rcases listed chunk isChunk with ⟨known, isPublished, rfl, rfl⟩
    cases stands : state.centre.central.raw.get?
        (manifestPath collectorId known.asRef) with
    | none =>
        rw [loadChunkManifest_eq_missing stands] at one
        cases one
        exact ⟨rfl, rfl⟩
    | some content =>
        rcases sound.loads_chunk isPublished stands with ⟨beside, _, loads⟩
        rw [loads] at one
        cases one
  · intro problem failed
    rcases transportGapLedger_error found parsed failed with
      ⟨chunk, isGap, one⟩
    refine ⟨chunk, isGap, ?_⟩
    rcases chunks chunk (List.mem_of_mem_filter isGap) with
      ⟨_, content, here, size, hash⟩
    exact ⟨content, here, readArtifact_error here size hash one⟩

/-! ## One step of the puller -/

/-- What comes under a final name may stand there. -/
def Places (codec : FileCodec β) (collectorId : String)
    (edge : InventoryHistory) (before after : RawFiles β) : Prop :=
  ∀ place bytes, ¬ Hidden place.2 → after.get? place = some bytes →
    before.get? place = some bytes ∨
      Placeable codec collectorId edge place bytes

theorem places_refl : Places codec collectorId edge raw raw :=
  fun _ _ _ found => Or.inl found

theorem places_hidden :
    Places codec collectorId edge raw
      (raw.set (hiddenBeside place) bytes) := by
  intro other content visible found
  rw [Dict.get?_set] at found
  split at found
  next same =>
    rw [same] at visible
    exact absurd (hidden_hidden place.2) visible
  next => exact Or.inl found

theorem places_rename
    (renamed : renameHidden raw place = .ok after)
    (placeable : ∀ bytes, raw.get? (hiddenBeside place) = some bytes →
      Placeable codec collectorId edge place bytes) :
    Places codec collectorId edge raw after := by
  unfold renameHidden at renamed
  split at renamed
  next => cases renamed
  next content hidden =>
    cases renamed
    intro other bytes visible found
    rw [Dict.get?_set] at found
    split at found
    next same =>
      cases found
      rw [same]
      exact Or.inr (placeable content hidden)
    next =>
      rw [Dict.get?_erase] at found
      split at found
      next => cases found
      next => exact Or.inl found

/-- A manifest which was published may stand beside its chunk. -/
theorem made_manifest
    {manifest : ChunkManifestV1}
    (published : PublishedBytes codec collectorId edge bytes)
    (storable : Storable manifest.dataPath)
    (parsed : codec.parseManifest bytes = some manifest) :
    Made codec collectorId edge (manifestBeside (destination manifest))
      bytes where
  published := published
  manifest := fun _ => ⟨manifest, parsed, rfl⟩
  day := by
    intro owner utcDate isSealed
    have form : WriterForm (manifestBeside (destination manifest)).2 :=
      storable.1
    rw [isSealed] at form
    exact form.elim

theorem places_interrupted (state : PullerState β) (written : Option β) :
    Places codec collectorId edge state.central.raw
      (interrupted state written).raw := by
  unfold interrupted
  split
  next place bytes isWriting =>
    rcases Option.bind_eq_some_iff.mp isWriting with ⟨task, _, writes⟩
    have hidden : ∃ target, place = hiddenBeside target := by
      unfold PullTask.writing at writes
      split at writes
      all_goals first
        | cases writes
          exact ⟨_, rfl⟩
        | cases writes
    rcases hidden with ⟨target, rfl⟩
    exact places_hidden
  next => exact places_refl

theorem taskMade_start
    {files : List DataPath} {task : PullTask β}
    (isTask : task ∈ pullTasks files) :
    TaskMade codec collectorId edge raw task := by
  rcases List.mem_append.mp isTask with isChunk | isDay
  · rcases List.mem_map.mp isChunk with ⟨path, _, rfl⟩
    trivial
  · rcases List.mem_map.mp isDay with ⟨path, _, rfl⟩
    trivial

theorem sealingSound_start :
    SealingSound codec collectorId ({} : SealingState β) where
  edge := edgeNamed_start
  store := storeSound_start
  mirror := by
    rintro entry ⟨⟩
  raw := by
    rintro place bytes _ ⟨⟩
  task := by
    rintro task ⟨⟩
  pending := by
    rintro task ⟨⟩

variable [DecidableEq β]

theorem ingestStep_made
    {before after : CentralDisk β} {path : DataPath} {nowNs : Nat}
    {stage : IngestStage β} {next : Option (IngestStage β)}
    (named : EdgeNamed collectorId edge)
    (mirrored : Mirrored codec collectorId edge before.mirror)
    (stores : IngestStores codec before.raw stage)
    (made : IngestMade codec collectorId edge stage)
    (completed :
      ingestStep codec before path nowNs stage = .ok (after, next)) :
    Places codec collectorId edge before.raw after.raw ∧
      ∀ later ∈ next, IngestMade codec collectorId edge later := by
  cases ingestStep_effect completed with
  | readManifest found parsed _ =>
      refine ⟨places_refl, ?_⟩
      rintro later ⟨⟩
      have published := mirrored _ ((Dict.mem_entries_iff _).mpr found)
      exact ⟨published, published.1 _ parsed⟩
  | destinationFree | destinationVerified | verifyPartial | manifestFree =>
      refine ⟨places_refl, ?_⟩
      rintro later ⟨⟩
      exact made
  | openPartial | download | writeManifest =>
      refine ⟨places_hidden, ?_⟩
      rintro later ⟨⟩
      exact made
  | manifestSame =>
      refine ⟨places_refl, ?_⟩
      rintro later ⟨⟩
      exact made.2
  | @replacePartial manifest bytes raw renamed =>
      constructor
      · apply places_rename renamed
        intro content _
        have chunk :=
          named.named manifest (List.mem_append_left _ made.2)
        exact Or.inl ⟨stores.1.1, chunk.not_namesChunk⟩
      · rintro later ⟨⟩
        exact made
  | @replaceManifest manifest bytes raw renamed =>
      constructor
      · apply places_rename renamed
        intro content hidden
        rcases stores with ⟨storable, parsed, _, _, written⟩
        cases Option.some.inj (written.symm.trans hidden)
        exact Or.inr (made_manifest made.1 storable parsed)
      · rintro later ⟨⟩
        exact made.2
  | writeAck => exact ⟨places_refl, by rintro later ⟨⟩⟩

theorem publishDayStep_made
    {before after : CentralDisk β} {path : DataPath}
    {stage : DayStage β} {next : Option (DayStage β)}
    (mirrored : Mirrored codec collectorId edge before.mirror)
    (made : DayMade codec collectorId edge before.raw stage)
    (completed : publishDayStep codec before path stage = .ok (after, next)) :
    Places codec collectorId edge before.raw after.raw ∧
      ∀ later ∈ next, DayMade codec collectorId edge after.raw later := by
  cases publishDayStep_effect completed with
  | unchanged => exact ⟨places_refl, by rintro later ⟨⟩⟩
  | @readDay day bytes found parsed _ _ _ =>
      refine ⟨places_refl, ?_⟩
      rintro later ⟨⟩
      exact {
        published := mirrored _ ((Dict.mem_entries_iff _).mpr found)
        manifest := fun isManifest => absurd isManifest (by
          show ¬ (".manifest.json".toList.isSuffixOf "SEALED.json".toList)
          decide +kernel)
        day := by
          rintro owner utcDate ⟨⟩
          exact ⟨day, parsed, rfl, rfl⟩ }
  | writeDay =>
      refine ⟨places_hidden, ?_⟩
      rintro later ⟨⟩ bytes found
      rw [Dict.get?_set_self] at found
      cases found
      exact made
  | replaceDay renamed =>
      refine ⟨places_rename renamed fun bytes hidden =>
        Or.inr (made bytes hidden), by rintro later ⟨⟩⟩

theorem pullStep_made
    {before after : CentralDisk β} {nowNs : Nat} {task : PullTask β}
    {next : Option (PullTask β)} (named : EdgeNamed collectorId edge)
    (mirrored : Mirrored codec collectorId edge before.mirror)
    (stores : TaskStores codec before.raw task)
    (made : TaskMade codec collectorId edge before.raw task)
    (completed : pullStep codec before nowNs task = .ok (after, next)) :
    Places codec collectorId edge before.raw after.raw ∧
      ∀ later ∈ next, TaskMade codec collectorId edge after.raw later := by
  cases task with
  | ingest path stage =>
      simp only [pullStep] at completed
      split at completed
      next => cases completed
      next disk stages stepped =>
        cases completed
        rcases ingestStep_made named mirrored stores made stepped with
          ⟨places, madeNext⟩
        refine ⟨places, ?_⟩
        intro later isNext
        rcases Option.map_eq_some_iff.mp isNext with ⟨stage, isStage, rfl⟩
        exact madeNext stage isStage
  | publishDay path stage =>
      simp only [pullStep] at completed
      split at completed
      next => cases completed
      next disk stages stepped =>
        cases completed
        rcases publishDayStep_made mirrored made stepped with
          ⟨places, madeNext⟩
        refine ⟨places, ?_⟩
        intro later isNext
        rcases Option.map_eq_some_iff.mp isNext with ⟨stage, isStage, rfl⟩
        exact madeNext stage isStage

/-! ## Whole runs -/

section Runs

variable {before state final : SealingState β}

/-- The puller has gone on, over a mirror which may have changed. -/
theorem SealingSound.pulled
    {centre : PullerState β} {label : PullerLabel β}
    (sound : SealingSound codec collectorId before)
    (names : MirrorsName codec Storable label)
    (stepped : pullerStep codec before.centre label = some centre)
    (mirror : Mirrored codec collectorId before.edge centre.central.mirror)
    (places : Places codec collectorId before.edge
      before.centre.central.raw centre.central.raw)
    (task : ∀ task ∈ centre.task,
      TaskMade codec collectorId before.edge centre.central.raw task)
    (pending : ∀ task ∈ centre.pending, ∀ raw,
      TaskMade codec collectorId before.edge raw task) :
    SealingSound codec collectorId { before with centre } where
  edge := sound.edge
  store := (sound.store.step names stepped).1
  mirror := mirror
  raw := by
    intro place bytes visible found
    rcases places place bytes visible found with old | new
    · exact sound.raw place bytes visible old
    · exact new
  task := task
  pending := pending

theorem SealingSound.work
    {centre : PullerState β}
    (sound : SealingSound codec collectorId before)
    (worked : pullerStep codec before.centre .work = some centre) :
    SealingSound codec collectorId { before with centre } := by
  have stepped := worked
  change pullerWork codec before.centre = some centre at worked
  unfold pullerWork at worked
  split at worked
  next => cases worked
  next task rest _ isPending =>
    cases worked
    have waiting : ∀ other ∈ task :: rest, ∀ raw,
        TaskMade codec collectorId before.edge raw other := by
      rw [← isPending]
      exact sound.pending
    refine sound.pulled (by trivial) stepped sound.mirror places_refl ?_ ?_
    · rintro other ⟨⟩
      exact waiting task List.mem_cons_self _
    · exact fun other inRest => waiting other (List.mem_cons_of_mem _ inRest)
  next task isTask =>
    split at worked
    next =>
      cases worked
      exact sound.pulled (by trivial) stepped sound.mirror places_refl
        (by rintro task ⟨⟩) sound.pending
    next central next pulled =>
      cases worked
      rcases pullStep_made sound.edge sound.mirror
          (sound.store.task task isTask) (sound.task task isTask) pulled with
        ⟨places, madeNext⟩
      have sameMirror : central.mirror = before.centre.central.mirror :=
        (pullStep_stores sound.store.mirror (sound.store.task task isTask)
          pulled).1.mirror
      refine sound.pulled (by trivial) stepped ?_ places madeNext sound.pending
      show Mirrored codec collectorId before.edge central.mirror
      rw [sameMirror]
      exact sound.mirror

/-- An inversion of `sealingStep`. -/
theorem sealingStep_cases
    {label : SealingLabel β} {after : SealingState β}
    (stepped : sealingStep codec collectorId before label = some after) :
    (∃ started edge,
      (∀ manifest ∈ startedManifest started,
        Named collectorId before.edge manifest) ∧
        indexStep before.edge started = some edge ∧
        after = { before with edge }) ∨
      ∃ pulled centre,
        (∀ files, pulled = .mirror files →
          Mirrored codec collectorId before.edge files) ∧
          pullerStep codec before.centre pulled = some centre ∧
          after = { before with centre } := by
  unfold sealingStep at stepped
  split at stepped
  next started =>
    simp only [Option.ite_none_right_eq_some,
      Option.map_eq_some_iff] at stepped
    rcases stepped with ⟨named, edge, worked, rfl⟩
    exact Or.inl ⟨started, edge, named, worked, rfl⟩
  next files =>
    simp only [Option.ite_none_right_eq_some,
      Option.map_eq_some_iff] at stepped
    rcases stepped with ⟨mirrored, centre, pulled, rfl⟩
    refine Or.inr ⟨.mirror files, centre, ?_, pulled, rfl⟩
    rintro other ⟨⟩
    exact mirrored
  next pulled notMirror =>
    rcases Option.map_eq_some_iff.mp stepped with ⟨centre, worked, rfl⟩
    refine Or.inr ⟨pulled, centre, ?_, worked, rfl⟩
    rintro files rfl
    exact absurd rfl (notMirror files)

theorem SealingSound.centre
    {label : PullerLabel β} {centre : PullerState β}
    (sound : SealingSound codec collectorId before)
    (mirrored : ∀ files, label = .mirror files →
      Mirrored codec collectorId before.edge files)
    (stepped : pullerStep codec before.centre label = some centre) :
    SealingSound codec collectorId { before with centre } := by
  have names : MirrorsName codec Storable label :=
    mirrorsName_of_mirrored sound.edge mirrored
  cases label with
  | work => exact sound.work stepped
  | mirror files =>
      have changed := stepped
      cases changed
      exact sound.pulled names stepped (mirrored files rfl) places_refl
        sound.task sound.pending
  | tick _ | unstage _ =>
      have changed := stepped
      cases changed
      exact sound.pulled names stepped sound.mirror places_refl
        sound.task sound.pending
  | run files =>
      have changed := stepped
      simp only [pullerStep, Option.ite_none_right_eq_some] at changed
      rcases changed with ⟨_, ⟨⟩⟩
      exact sound.pulled names stepped sound.mirror places_refl
        sound.task fun task isTask _ => taskMade_start isTask
  | fail written | crash written =>
      have stored : Stores codec before.centre.central
          (interrupted before.centre written) :=
        stores_interrupted before.centre written
      have changed := stepped
      cases changed
      refine sound.pulled names stepped ?_
        (places_interrupted before.centre written) (by rintro task ⟨⟩) ?_
      · rw [stored.mirror]
        exact sound.mirror
      · first
          | exact sound.pending
          | rintro task ⟨⟩

/-- Every step keeps the invariant, and what was sealed or stored. -/
theorem SealingSound.step
    {label : SealingLabel β} {after : SealingState β}
    (sound : SealingSound codec collectorId before)
    (stepped : sealingStep codec collectorId before label = some after) :
    SealingSound codec collectorId after ∧
      EdgeGrows before.edge after.edge ∧
      RawKept before.centre.central.raw after.centre.central.raw := by
  rcases sealingStep_cases stepped with
    ⟨started, edge, named, worked, rfl⟩ |
      ⟨pulled, centre, mirrored, worked, rfl⟩
  · have grows := edgeGrows_indexStep worked
    refine ⟨?_, grows, rawKept_refl _⟩
    exact {
      edge := sound.edge.step named worked
      store := sound.store
      mirror := fun entry listed => (sound.mirror entry listed).mono grows
      raw := fun place bytes visible found =>
        (sound.raw place bytes visible found).mono grows
      task := fun task isTask => (sound.task task isTask).mono grows
      pending := fun task isPending raw =>
        (sound.pending task isPending raw).mono grows }
  · refine ⟨sound.centre mirrored worked, EdgeGrows.refl _, ?_⟩
    exact (sound.store.step (mirrorsName_of_mirrored sound.edge mirrored)
      worked).2

theorem SealingSound.run
    {labels : List (SealingLabel β)}
    (sound : SealingSound codec collectorId before)
    (reached :
      runFrom (sealingStep codec collectorId) before labels = some final) :
    SealingSound codec collectorId final ∧
      EdgeGrows before.edge final.edge ∧
      RawKept before.centre.central.raw final.centre.central.raw := by
  have preserved : ∀ state label after,
      (SealingSound codec collectorId state ∧
        EdgeGrows before.edge state.edge ∧
        RawKept before.centre.central.raw state.centre.central.raw) →
      True → sealingStep codec collectorId state label = some after →
        SealingSound codec collectorId after ∧
          EdgeGrows before.edge after.edge ∧
          RawKept before.centre.central.raw after.centre.central.raw := by
    rintro state label after ⟨isSound, grown, keptSoFar⟩ _ stepped
    rcases isSound.step stepped with ⟨soundAfter, grows, kept⟩
    exact ⟨soundAfter, grown.trans grows, keptSoFar.trans kept⟩
  exact invariant_of_run preserved
    ⟨sound, EdgeGrows.refl _, rawKept_refl _⟩ (stepsMeet_true _ labels)
    reached

/-- At some moment of the run an acknowledgement of the chunk was staged. -/
def StagedDuring (codec : FileCodec β) (collectorId : String)
    (labels : List (SealingLabel β)) (chunk : ChunkRefV1) : Prop :=
  ∃ earlier later middle, labels = earlier ++ later ∧
    runFrom (sealingStep codec collectorId) {} earlier = some middle ∧
    ∃ key ack, middle.centre.central.staged.get? key = some ack ∧
      ack.chunkId = chunk.chunkId

/--
In every run of edge and centre, a day which stands at the centre is the one
which the edge sealed.  The gap ledger only fails on an artifact which is no
event, and the normalizer loads the day, with manifests which the edge has
published for files which are here, unless a manifest is missing; and none is
missing of a chunk which has been acknowledged at any moment.
-/
theorem sealed_day_loads
    (codec : FileCodec β) (parseGap : β → Option GapEventV1)
    {labels : List (SealingLabel β)}
    (reached :
      runFrom (sealingStep codec collectorId) {} labels = some final)
    {utcDate : Nat}
    (isSealed : (final.centre.central.raw.get?
      (sealedPlace collectorId utcDate)).isSome) :
    ∃ day, Readable codec parseGap collectorId final.edge
        final.centre.central.raw utcDate day ∧
      (∀ chunk ∈ day.chunks, StagedDuring codec collectorId labels chunk →
        (final.centre.central.raw.get?
          (manifestPath collectorId chunk)).isSome) ∧
      ((∀ chunk ∈ day.chunks, StagedDuring codec collectorId labels chunk) →
        ∃ manifests, loadChunkManifests codec final.centre.central.raw
          collectorId utcDate day = .ok manifests) := by
  have sound : SealingSound codec collectorId final :=
    (sealingSound_start.run reached).1
  rcases Option.isSome_iff_exists.mp isSealed with ⟨bytes, found⟩
  rcases sound.readable parseGap found with ⟨day, readable⟩
  have present : ∀ chunk ∈ day.chunks,
      StagedDuring codec collectorId labels chunk →
        (final.centre.central.raw.get?
          (manifestPath collectorId chunk)).isSome := by
    rintro chunk isChunk
      ⟨earlier, later, middle, rfl, started, key, ack, staged, sameId⟩
    rw [runFrom_append, started] at reached
    have soundMiddle : SealingSound codec collectorId middle :=
      (sealingSound_start.run started).1
    rcases soundMiddle.run reached with ⟨_, grows, kept⟩
    rcases sound.edge.listed utcDate day.chunks readable.inventory chunk
      isChunk with ⟨manifest, isPublished, rfl, _⟩
    exact soundMiddle.staged grows sound.edge kept isPublished staged sameId
  refine ⟨day, readable, present, fun staged => ?_⟩
  cases loaded : loadChunkManifests codec final.centre.central.raw
      collectorId utcDate day with
  | ok manifests => exact ⟨manifests, rfl⟩
  | error problem =>
      rcases readable.missing problem loaded with ⟨chunk, isChunk, _, absent⟩
      have here := present chunk isChunk (staged chunk isChunk)
      rw [absent] at here
      cases here

end Runs

end Centre

/-! ## A day with a gap artifact -/

def artifactPath : DataPath :=
  relativePath 3 .control "gap-0001-open.gap.json"

def artifactManifest : ChunkManifestV1 :=
  { sampleManifest "gap-0001-open" "opened" artifactPath with
    contentType := .gapJson
    writerGroup := .control }

def artifactGap : GapEventV1 where
  gapId := "gap-0001"
  state := .opened
  reason := .connectionLost
  observedAtRealtimeNs := midnightNs 3 + 300
  closedUnaffected := GapEventV1.unaffected .opened

/-- The only gap event which the sample reads. -/
def sampleParseGap (file : SampleFile) : Option GapEventV1 :=
  if file = .text "opened" then some artifactGap else none

/-- A chunk and a gap artifact of day 3 are recorded, sealed and taken over. -/
def loadedRun : List (SealingLabel SampleFile) :=
  let manifest := sampleManifest "chunk-first" "abc" firstPath
  .edge (.finish manifest) :: List.replicate 4 (.edge (.work 0)) ++
    .edge (.recordGenerated artifactManifest) ::
      List.replicate 4 (.edge (.work 0)) ++
    [.edge (.sealDay 3), .edge (.work 0),
      .centre (.mirror (((((Dict.empty.set firstPath.manifest
        (.manifest manifest)).set firstPath (.text "abc")).set
        artifactPath.manifest (.manifest artifactManifest)).set
        artifactPath (.text "opened")).set sealedPath
        (.day ⟨"collector", 3, 0, [manifest.asRef, artifactManifest.asRef]⟩))),
      .centre (.run [firstPath.manifest, artifactPath.manifest, sealedPath])] ++
    List.replicate 26 (.centre .work)

theorem loadedRun_runs :
    (runFrom (sealingStep sampleCodec "collector") {} loadedRun).isSome := by
  decide +kernel

def loadedFinal : SealingState SampleFile :=
  (runFrom (sealingStep sampleCodec "collector") {} loadedRun).get
    loadedRun_runs

theorem loadedFinal_sealed :
    loadedFinal.edge.disk.sealedDays.get? 3 =
      some [(sampleManifest "chunk-first" "abc" firstPath).asRef,
        artifactManifest.asRef] := by
  decide +kernel

theorem loadedFinal_staged :
    ∀ chunk ∈ [(sampleManifest "chunk-first" "abc" firstPath).asRef,
      artifactManifest.asRef],
      (loadedFinal.centre.central.staged.get? chunk.chunkId).map
        AckV1.chunkId = some chunk.chunkId := by
  decide +kernel

/-- The day loads with both manifests, and its ledger has the gap event. -/
theorem sealed_day_loads_loaded :
    ∃ day manifests, Readable sampleCodec sampleParseGap "collector"
        loadedFinal.edge loadedFinal.centre.central.raw 3 day ∧
      loadChunkManifests sampleCodec loadedFinal.centre.central.raw
        "collector" 3 day = .ok manifests ∧
      manifests.map ChunkManifestV1.asRef =
        [(sampleManifest "chunk-first" "abc" firstPath).asRef,
          artifactManifest.asRef] ∧
      transportGapLedger sampleCodec sampleParseGap
        loadedFinal.centre.central.raw "collector" 3 =
          .ok [artifactGap] := by
  have isSealed : (loadedFinal.centre.central.raw.get?
      (sealedPlace "collector" 3)).isSome := by
    decide +kernel
  have reached : runFrom (sealingStep sampleCodec "collector") {} loadedRun =
      some loadedFinal := (Option.some_get loadedRun_runs).symm
  rcases sealed_day_loads sampleCodec sampleParseGap reached isSealed with
    ⟨day, readable, _, loads⟩
  have chunks := readable.inventory
  rw [loadedFinal_sealed] at chunks
  have isChunks := Option.some.inj chunks
  have staged : ∀ chunk ∈ day.chunks,
      StagedDuring sampleCodec "collector" loadedRun chunk := by
    intro chunk isChunk
    rw [← isChunks] at isChunk
    rcases Option.map_eq_some_iff.mp (loadedFinal_staged chunk isChunk) with
      ⟨ack, found, sameId⟩
    exact ⟨loadedRun, [], loadedFinal, (List.append_nil _).symm, reached, _,
      ack, found, sameId⟩
  rcases loads staged with ⟨manifests, loaded⟩
  refine ⟨day, manifests, readable, loaded, ?_, by decide +kernel⟩
  rw [isChunks]
  exact (readable.manifests manifests loaded).1

/-! ## A day which cannot be loaded -/

/-- The edge records a chunk of day 3 and seals the day; rsync brings both. -/
def sealAndMirror : List (SealingLabel SampleFile) :=
  let manifest := sampleManifest "chunk-first" "abc" firstPath
  [.edge (.finish manifest), .edge (.work 0), .edge (.work 0),
    .edge (.work 0), .edge (.work 0), .edge (.sealDay 3), .edge (.work 0),
    .centre (.mirror (((Dict.empty.set firstPath.manifest
      (.manifest manifest)).set firstPath (.text "abc")).set sealedPath
      (.day ⟨"collector", 3, 0, [manifest.asRef]⟩))),
    .centre (.run [firstPath.manifest, sealedPath])]

/-- Writing the manifest of the chunk fails once its data is here. -/
def unloadableRun : List (SealingLabel SampleFile) :=
  sealAndMirror ++ List.replicate 8 (.centre .work) ++
    [.centre (.fail none)] ++ List.replicate 4 (.centre .work)

/-- The day is published all the same, and cannot be loaded. -/
theorem sealed_day_unloadable :
    ∃ final ∈ runFrom (sealingStep sampleCodec "collector") {} unloadableRun,
      ∃ day ∈ (loadDayManifest sampleCodec final.centre.central.raw
          "collector" 3).toOption,
        loadChunkManifests sampleCodec final.centre.central.raw "collector" 3
            day =
          .error (.missingManifest ("collector", firstPath.manifest)) := by
  decide +kernel

end ShadowDataPlane.Transfer
