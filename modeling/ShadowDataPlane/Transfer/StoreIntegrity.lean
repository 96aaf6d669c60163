import ShadowDataPlane.Transfer.Republication

/-!
# The integrity of the central store

`CentralPuller.run` lists the ready files of its mirror, takes over every chunk
whose manifest it sees, and then publishes every day whose manifest it sees.
Runs follow one another; a run may crash before any durable step and in the
middle of writing a hidden file, and the mirror may change at any time.

Whatever the mirror holds, a published day and an acknowledged chunk keep what
they promise, as long as the data paths of the mirror lie in the directories of
the edge's writers and are not names under which the puller itself writes
first.
-/

namespace ShadowDataPlane.Transfer

open ShadowDataPlane.Foundation
open ShadowDataPlane.Contracts
open ShadowDataPlane.Central

/-- A puller, in the middle of a run or between two. -/
structure PullerState (β : Type) where
  central : CentralDisk β := {}
  task : Option (PullTask β) := none
  pending : List (PullTask β) := []
  nowNs : Nat := 0
deriving DecidableEq

/-- The steps of the puller, its mirrors and what may end a run. -/
inductive PullerLabel (β : Type) where
  | tick (nowNs : Nat)
  | mirror (files : Dict DataPath β)
  /-- `run`, with what `list_files` shows. -/
  | run (files : List DataPath)
  | work
  /-- An `OSError`, which may leave a half-written hidden file. -/
  | fail (written : Option β)
  | crash (written : Option β)
  /-- An ACK which was pushed is unlinked. -/
  | unstage (chunkId : String)
deriving DecidableEq

/-- `path.endswith(".manifest.json")`. -/
def namesChunk (path : DataPath) : Bool :=
  ".manifest.json".toList.isSuffixOf path.name.toList

theorem namesChunk_manifest (path : DataPath) :
    namesChunk path.manifest = true := by
  have isSuffix : ".manifest.json".toList <:+
      (path.manifest).name.toList := by
    simp only [DataPath.manifest, String.toList_append]
    exact List.suffix_append _ _
  exact List.isSuffixOf_iff_suffix.mpr isSuffix

/-- `path.endswith("/SEALED.json")`. -/
def namesDay (path : DataPath) : Bool := path.name = "SEALED.json"

/-- The calls of a run, in order. -/
def pullTasks {β : Type} (files : List DataPath) : List (PullTask β) :=
  (files.filter namesChunk).map (fun path => .ingest path .readManifest) ++
    (files.filter namesDay).map fun path => .publishDay path .readDay

/-- The hidden file which the next step of a task writes. -/
def PullTask.writing {β : Type} : PullTask β → Option (String × DataPath)
  | .ingest _ (.openPartial manifest _)
  | .ingest _ (.download manifest _) =>
      some (hiddenBeside (destination manifest))
  | .ingest _ (.writeManifest manifest _) =>
      some (hiddenBeside (manifestBeside (destination manifest)))
  | .publishDay _ (.writeDay place _) => some (hiddenBeside place)
  | _ => none

section System

variable {β : Type} [DecidableEq β] (codec : FileCodec β)

/-- What an interrupted write leaves. -/
def interrupted (state : PullerState β) (written : Option β) :
    CentralDisk β :=
  match state.task.bind PullTask.writing, written with
  | some place, some bytes =>
      { state.central with raw := state.central.raw.set place bytes }
  | _, _ => state.central

def pullerWork (state : PullerState β) : Option (PullerState β) :=
  match state.task, state.pending with
  | none, [] => none
  | none, task :: rest => some { state with task := some task, pending := rest }
  | some task, _ =>
      match pullStep codec state.central state.nowNs task with
      | .error _ => some { state with task := none }
      | .ok (central, next) => some { state with central, task := next }

def pullerStep (state : PullerState β) :
    PullerLabel β → Option (PullerState β)
  | .tick nowNs => some { state with nowNs }
  | .mirror files =>
      some { state with central := { state.central with mirror := files } }
  | .run files =>
      if state.task = none ∧ state.pending = [] then
        some { state with pending := pullTasks files }
      else none
  | .work => pullerWork codec state
  | .fail written =>
      some { state with central := interrupted state written, task := none }
  | .crash written =>
      some
        { state with
          central := interrupted state written
          task := none
          pending := [] }
  | .unstage chunkId =>
      some
        { state with
          central :=
            { state.central with
              staged := state.central.staged.erase chunkId } }

end System

/-! ## Mirrors -/

/-- The directories into which the writers of the edge put their chunks. -/
def WriterForm (path : DataPath) : Prop :=
  match path.directory with
  | [.date _, .writer _] => True
  | _ => False

instance (path : DataPath) : Decidable (WriterForm path) := by
  unfold WriterForm
  split <;> infer_instance

section Mirrors

variable {β : Type} (codec : FileCodec β)

/-- All data paths which a mirror names have a property. -/
def NamesOnly (allowed : DataPath → Prop) (files : Dict DataPath β) : Prop :=
  ∀ entry ∈ files.entries,
    (∀ manifest ∈ codec.parseManifest entry.2, allowed manifest.dataPath) ∧
      ∀ day ∈ codec.parseDay entry.2, ∀ chunk ∈ day.chunks,
        allowed chunk.dataPath

instance (allowed : DataPath → Prop) [DecidablePred allowed]
    (files : Dict DataPath β) : Decidable (NamesOnly codec allowed files) :=
  List.decidableBAll _ _

/-- Every mirror of a run names only such data paths. -/
def MirrorsName (allowed : DataPath → Prop) : PullerLabel β → Prop
  | .mirror files => NamesOnly codec allowed files
  | _ => True

instance (allowed : DataPath → Prop) [DecidablePred allowed] :
    DecidablePred (MirrorsName codec allowed)
  | .mirror _ => inferInstanceAs (Decidable (NamesOnly ..))
  | .tick _ | .run _ | .work | .fail _ | .crash _ | .unstage _ =>
      inferInstanceAs (Decidable True)

/-- A path in a writer's directory which is no hidden name. -/
def Storable (path : DataPath) : Prop := WriterForm path ∧ ¬ Hidden path

instance : DecidablePred Storable :=
  fun _ => inferInstanceAs (Decidable (_ ∧ _))

end Mirrors

/-! ## What the store promises -/

section Promises

variable {β : Type} (codec : FileCodec β)

/-- A chunk is here, with the size and the hash it is listed with. -/
def ChunkHere (raw : RawFiles β) (collectorId : String) (chunk : ChunkRefV1) :
    Prop :=
  ∃ content, raw.get? (collectorId, chunk.dataPath) = some content ∧
    codec.size content = chunk.sizeBytes ∧
    codec.sha256 content = chunk.sha256

/-- Where the manifest of a sealed day is published. -/
def sealedPlace (collectorId : String) (utcDate : Nat) : String × DataPath :=
  (collectorId,
    ⟨[.named "day-manifests", .date utcDate], "SEALED.json"⟩)

/-- The file lists chunks which are all here. -/
def DayHere (raw : RawFiles β) (collectorId : String) (utcDate : Nat)
    (bytes : β) : Prop :=
  ∃ day, codec.parseDay bytes = some day ∧ day.collectorId = collectorId ∧
    day.utcDate = utcDate ∧
    ∀ chunk ∈ day.chunks, ChunkHere codec raw collectorId chunk

/-- The chunk of an ACK is here, with the manifest for which it was staged. -/
def AckHere (raw : RawFiles β) (ack : AckV1) (manifest : ChunkManifestV1)
    (bytes : β) : Prop :=
  codec.parseManifest bytes = some manifest ∧
    manifest.chunkId = ack.chunkId ∧ manifest.sha256 = ack.sha256 ∧
    ChunkHere codec raw manifest.collectorId manifest.asRef ∧
    raw.get? (manifestBeside (destination manifest)) = some bytes

end Promises

/-! ## The invariant -/

section Invariant

variable {β : Type} (codec : FileCodec β)

/-- A published day whose chunks stand under final names. -/
def DayKept (raw : RawFiles β) (collectorId : String) (utcDate : Nat)
    (bytes : β) : Prop :=
  ∃ day, codec.parseDay bytes = some day ∧ day.collectorId = collectorId ∧
    day.utcDate = utcDate ∧
    ∀ chunk ∈ day.chunks, ¬ Hidden chunk.dataPath ∧
      ChunkHere codec raw collectorId chunk

/-- What may stand at a place: a published day only with its chunks. -/
def Publishable (raw : RawFiles β) (place : String × DataPath) (bytes : β) :
    Prop :=
  ∀ collectorId utcDate, place = sealedPlace collectorId utcDate →
    DayKept codec raw collectorId utcDate bytes

/-- An acknowledged chunk which stands under a final name. -/
def AckKept (raw : RawFiles β) (ack : AckV1) : Prop :=
  ∃ manifest bytes, Storable manifest.dataPath ∧
    AckHere codec raw ack manifest bytes

/-- Where a stage has come in taking over a manifest. -/
def IngestStores (raw : RawFiles β) : IngestStage β → Prop
  | .readManifest => True
  | .checkDestination manifest bytes =>
      Storable manifest.dataPath ∧ codec.parseManifest bytes = some manifest
  | .openPartial manifest bytes | .download manifest bytes
  | .verifyPartial manifest bytes =>
      Storable manifest.dataPath ∧
        codec.parseManifest bytes = some manifest ∧
        raw.get? (destination manifest) = none
  | .replacePartial manifest bytes =>
      Storable manifest.dataPath ∧
        codec.parseManifest bytes = some manifest ∧
        raw.get? (destination manifest) = none ∧
        ∃ content,
          raw.get? (hiddenBeside (destination manifest)) = some content ∧
            codec.size content = manifest.sizeBytes ∧
            codec.sha256 content = manifest.sha256
  | .checkManifest manifest bytes =>
      Storable manifest.dataPath ∧
        codec.parseManifest bytes = some manifest ∧
        ChunkHere codec raw manifest.collectorId manifest.asRef
  | .writeManifest manifest bytes =>
      Storable manifest.dataPath ∧
        codec.parseManifest bytes = some manifest ∧
        ChunkHere codec raw manifest.collectorId manifest.asRef ∧
        raw.get? (manifestBeside (destination manifest)) = none
  | .replaceManifest manifest bytes =>
      Storable manifest.dataPath ∧
        codec.parseManifest bytes = some manifest ∧
        ChunkHere codec raw manifest.collectorId manifest.asRef ∧
        raw.get? (manifestBeside (destination manifest)) = none ∧
        raw.get? (hiddenBeside (manifestBeside (destination manifest))) =
          some bytes
  | .writeAck manifest =>
      Storable manifest.dataPath ∧
        ∃ bytes, codec.parseManifest bytes = some manifest ∧
          ChunkHere codec raw manifest.collectorId manifest.asRef ∧
          raw.get? (manifestBeside (destination manifest)) = some bytes

/-- Where a stage has come in publishing a day. -/
def DayStores (raw : RawFiles β) : DayStage β → Prop
  | .readDay => True
  | .writeDay place bytes =>
      raw.get? place = none ∧ ¬ Hidden place.2 ∧
        Publishable codec raw place bytes
  | .replaceDay place =>
      raw.get? place = none ∧ ¬ Hidden place.2 ∧
        ∃ bytes, raw.get? (hiddenBeside place) = some bytes ∧
          Publishable codec raw place bytes

def TaskStores (raw : RawFiles β) : PullTask β → Prop
  | .ingest _ stage => IngestStores codec raw stage
  | .publishDay _ stage => DayStores codec raw stage

/-- What every run guarantees. -/
structure StoreSound (state : PullerState β) : Prop where
  mirror : NamesOnly codec Storable state.central.mirror
  days : ∀ place bytes, state.central.raw.get? place = some bytes →
    Publishable codec state.central.raw place bytes
  acks : ∀ chunkId ack, state.central.staged.get? chunkId = some ack →
    AckKept codec state.central.raw ack
  task : ∀ task ∈ state.task, TaskStores codec state.central.raw task
  pending : ∀ task ∈ state.pending, ∀ raw, TaskStores codec raw task

variable {codec} {raw after : RawFiles β}

theorem ChunkHere.mono
    {collectorId : String} {chunk : ChunkRefV1}
    (here : ChunkHere codec raw collectorId chunk)
    (visible : ¬ Hidden chunk.dataPath) (kept : RawKept raw after) :
    ChunkHere codec after collectorId chunk := by
  rcases here with ⟨content, found, same⟩
  exact ⟨content, kept _ content visible found, same⟩

theorem DayKept.mono
    {collectorId : String} {utcDate : Nat} {bytes : β}
    (day : DayKept codec raw collectorId utcDate bytes)
    (kept : RawKept raw after) :
    DayKept codec after collectorId utcDate bytes := by
  rcases day with ⟨day, parsed, collector, date, chunks⟩
  refine ⟨day, parsed, collector, date, ?_⟩
  intro chunk isChunk
  rcases chunks chunk isChunk with ⟨visible, here⟩
  exact ⟨visible, here.mono visible kept⟩

theorem Publishable.mono
    {place : String × DataPath} {bytes : β}
    (publishable : Publishable codec raw place bytes)
    (kept : RawKept raw after) : Publishable codec after place bytes :=
  fun collectorId utcDate isSealed =>
    (publishable collectorId utcDate isSealed).mono kept

theorem AckHere.mono
    {ack : AckV1} {manifest : ChunkManifestV1} {bytes : β}
    (here : AckHere codec raw ack manifest bytes)
    (visible : ¬ Hidden manifest.dataPath) (kept : RawKept raw after) :
    AckHere codec after ack manifest bytes := by
  rcases here with ⟨parsed, chunkId, sha256, chunk, beside⟩
  exact ⟨parsed, chunkId, sha256, chunk.mono visible kept,
    kept _ bytes (not_hidden_manifest manifest.dataPath) beside⟩

/-- A writer's directory is not that of the published days. -/
theorem publishable_of_writerForm
    {place : String × DataPath} (form : WriterForm place.2) (bytes : β) :
    Publishable codec raw place bytes := by
  rintro collectorId utcDate rfl
  exact form.elim

/-! ## One step -/

/-- Final names keep their files, and new ones only get what they may. -/
structure Stores (codec : FileCodec β) (before after : CentralDisk β) :
    Prop where
  kept : RawKept before.raw after.raw
  placed : ∀ place bytes, ¬ Hidden place.2 →
    after.raw.get? place = some bytes →
      before.raw.get? place = some bytes ∨
        Publishable codec after.raw place bytes
  mirror : after.mirror = before.mirror
  acks : ∀ chunkId ack, after.staged.get? chunkId = some ack →
    before.staged.get? chunkId = some ack ∨ AckKept codec after.raw ack

theorem Stores.refl (codec : FileCodec β) (disk : CentralDisk β) :
    Stores codec disk disk :=
  ⟨rawKept_refl _, fun _ _ _ found => Or.inl found, rfl,
    fun _ _ found => Or.inl found⟩

/-- A hidden file is written. -/
theorem stores_hidden
    (disk : CentralDisk β) (place : String × DataPath) (bytes : β) :
    Stores codec disk
      { disk with raw := disk.raw.set (hiddenBeside place) bytes } where
  kept := rawKept_hidden _ _ _
  placed other content visible found := by
    rw [Dict.get?_set] at found
    split at found
    next same =>
      rw [same] at visible
      exact absurd (hidden_hidden place.2) visible
    next => exact Or.inl found
  mirror := rfl
  acks _ _ found := Or.inl found

/-- A hidden file takes its final name. -/
theorem stores_rename
    {disk : CentralDisk β} {place : String × DataPath} {raw : RawFiles β}
    {bytes : β} (renamed : renameHidden disk.raw place = .ok raw)
    (free : disk.raw.get? place = none)
    (hidden : disk.raw.get? (hiddenBeside place) = some bytes)
    (publishable : Publishable codec disk.raw place bytes) :
    Stores codec disk { disk with raw } ∧ raw.get? place = some bytes := by
  have effect := renameHidden_ok renamed free
  unfold renameHidden at renamed
  rw [hidden] at renamed
  cases renamed
  refine ⟨⟨effect.1, ?_, rfl, fun _ _ found => Or.inl found⟩,
    Dict.get?_set_self _ _ _⟩
  intro other content visible found
  rw [Dict.get?_set] at found
  split at found
  next same =>
    cases found
    rw [same]
    exact Or.inr (publishable.mono effect.1)
  next =>
    rw [Dict.get?_erase] at found
    split at found
    next => cases found
    next => exact Or.inl found

theorem not_hidden_sealedPlace (collectorId : String) (utcDate : Nat) :
    ¬ Hidden (sealedPlace collectorId utcDate).2 := by
  show ¬ (['.'] <+: "SEALED.json".toList ∧
    ".partial".toList <:+ "SEALED.json".toList.tail)
  decide +kernel

theorem publishable_of_hidden
    {place : String × DataPath} (hidden : Hidden place.2) (bytes : β) :
    Publishable codec raw place bytes := by
  rintro collectorId utcDate rfl
  exact absurd hidden (not_hidden_sealedPlace collectorId utcDate)

theorem verifyLocal_iff
    {content : β} {chunk : ChunkRefV1} :
    verifyLocal codec content chunk = .ok () ↔
      codec.size content = chunk.sizeBytes ∧
        codec.sha256 content = chunk.sha256 := by
  unfold verifyLocal
  split
  next wrongSize => simp [wrongSize]
  next size =>
    split
    next wrongHash => simp [wrongHash]
    next hash => simpa using ⟨not_not.mp size, not_not.mp hash⟩

/-- What `chunksPresent` has looked at is here. -/
theorem chunkHere_of_chunksPresent
    {collectorId : String} {chunks : List ChunkRefV1}
    (present : chunksPresent codec raw collectorId chunks = .ok true) :
    ∀ chunk ∈ chunks, ChunkHere codec raw collectorId chunk := by
  induction chunks with
  | nil =>
      intro chunk isChunk
      cases isChunk
  | cons head rest induction =>
      unfold chunksPresent at present
      split at present
      next => cases present
      next content found =>
        split at present
        next => cases present
        next size =>
          split at present
          next => cases present
          next hash =>
            intro chunk isChunk
            rcases List.mem_cons.mp isChunk with rfl | inRest
            · exact ⟨content, found, not_not.mp size, not_not.mp hash⟩
            · exact induction present chunk inRest

variable [DecidableEq β]

theorem ingestStep_stores
    {before after : CentralDisk β} {path : DataPath} {nowNs : Nat}
    {stage : IngestStage β} {next : Option (IngestStage β)}
    (names : NamesOnly codec Storable before.mirror)
    (stores : IngestStores codec before.raw stage)
    (completed :
      ingestStep codec before path nowNs stage = .ok (after, next)) :
    Stores codec before after ∧
      ∀ later ∈ next, IngestStores codec after.raw later := by
  cases ingestStep_effect completed with
  | readManifest found parsed _ =>
      refine ⟨Stores.refl .., ?_⟩
      rintro later ⟨⟩
      have listed := (Dict.mem_entries_iff _).mpr found
      exact ⟨(names _ listed).1 _ parsed, parsed⟩
  | destinationFree free =>
      refine ⟨Stores.refl .., ?_⟩
      rintro later ⟨⟩
      exact ⟨stores.1, stores.2, free⟩
  | destinationVerified found verified =>
      refine ⟨Stores.refl .., ?_⟩
      rintro later ⟨⟩
      exact ⟨stores.1, stores.2, _, found, verifyLocal_iff.mp verified⟩
  | openPartial =>
      refine ⟨stores_hidden _ _ _, ?_⟩
      rintro later ⟨⟩
      refine ⟨stores.1, stores.2.1, ?_⟩
      rw [Dict.get?_set, if_neg (hiddenBeside_ne _).symm]
      exact stores.2.2
  | download =>
      refine ⟨stores_hidden _ _ _, ?_⟩
      rintro later ⟨⟩
      refine ⟨stores.1, stores.2.1, ?_⟩
      rw [Dict.get?_set, if_neg (hiddenBeside_ne _).symm]
      exact stores.2.2
  | verifyPartial hidden verified =>
      refine ⟨Stores.refl .., ?_⟩
      rintro later ⟨⟩
      exact ⟨stores.1, stores.2.1, stores.2.2, _, hidden,
        verifyLocal_iff.mp verified⟩
  | replacePartial renamed =>
      rcases stores with ⟨storable, parsed, free, content, hidden, verified⟩
      rcases stores_rename renamed free hidden
          (publishable_of_writerForm storable.1 content) with
        ⟨stored, placed⟩
      refine ⟨stored, ?_⟩
      rintro later ⟨⟩
      exact ⟨storable, parsed, content, placed, verified⟩
  | manifestFree free =>
      refine ⟨Stores.refl .., ?_⟩
      rintro later ⟨⟩
      exact ⟨stores.1, stores.2.1, stores.2.2, free⟩
  | manifestSame found =>
      refine ⟨Stores.refl .., ?_⟩
      rintro later ⟨⟩
      exact ⟨stores.1, _, stores.2.1, stores.2.2, found⟩
  | @writeManifest manifest bytes =>
      have stored : Stores codec before _ := stores_hidden before
        (manifestBeside (destination manifest)) bytes
      refine ⟨stored, ?_⟩
      rintro later ⟨⟩
      refine ⟨stores.1, stores.2.1,
        stores.2.2.1.mono stores.1.2 stored.kept, ?_,
        Dict.get?_set_self _ _ _⟩
      rw [Dict.get?_set, if_neg (hiddenBeside_ne _).symm]
      exact stores.2.2.2
  | @replaceManifest manifest bytes raw renamed =>
      rcases stores with ⟨storable, parsed, here, free, hidden⟩
      rcases stores_rename renamed free hidden
          (publishable_of_writerForm storable.1 bytes) with
        ⟨stored, placed⟩
      refine ⟨stored, ?_⟩
      rintro later ⟨⟩
      exact ⟨storable, bytes, parsed, here.mono storable.2 stored.kept,
        placed⟩
  | @writeAck manifest =>
      refine ⟨{ Stores.refl codec before with acks := ?_ },
        by rintro later ⟨⟩⟩
      rcases stores with ⟨storable, bytes, parsed, here, beside⟩
      intro chunkId ack found
      rw [Dict.get?_set] at found
      split at found
      next =>
        cases found
        exact Or.inr
          ⟨manifest, bytes, storable, parsed, rfl, rfl, here, beside⟩
      next => exact Or.inl found

theorem publishDayStep_stores
    {before after : CentralDisk β} {path : DataPath}
    {stage : DayStage β} {next : Option (DayStage β)}
    (names : NamesOnly codec Storable before.mirror)
    (stores : DayStores codec before.raw stage)
    (completed : publishDayStep codec before path stage = .ok (after, next)) :
    Stores codec before after ∧
      ∀ later ∈ next, DayStores codec after.raw later := by
  cases publishDayStep_effect completed with
  | unchanged => exact ⟨Stores.refl .., by rintro later ⟨⟩⟩
  | @readDay day bytes found parsed _ free present =>
      refine ⟨Stores.refl .., ?_⟩
      rintro later ⟨⟩
      refine ⟨free, not_hidden_sealedPlace _ _, ?_⟩
      intro collectorId utcDate isPlace
      cases isPlace
      have listed := (Dict.mem_entries_iff _).mpr found
      refine ⟨day, parsed, rfl, rfl, fun chunk isChunk => ⟨?_, ?_⟩⟩
      · exact ((names _ listed).2 day parsed chunk isChunk).2
      · exact chunkHere_of_chunksPresent present chunk isChunk
  | @writeDay place bytes =>
      have stored : Stores codec before _ := stores_hidden before place bytes
      refine ⟨stored, ?_⟩
      rintro later ⟨⟩
      refine ⟨?_, stores.2.1, bytes, Dict.get?_set_self _ _ _,
        stores.2.2.mono stored.kept⟩
      rw [Dict.get?_set, if_neg (hiddenBeside_ne _).symm]
      exact stores.1
  | replaceDay renamed =>
      rcases stores with ⟨free, _, bytes, hidden, publishable⟩
      exact ⟨(stores_rename renamed free hidden publishable).1,
        by rintro later ⟨⟩⟩

theorem pullStep_stores
    {before after : CentralDisk β} {nowNs : Nat} {task : PullTask β}
    {next : Option (PullTask β)}
    (names : NamesOnly codec Storable before.mirror)
    (stores : TaskStores codec before.raw task)
    (completed : pullStep codec before nowNs task = .ok (after, next)) :
    Stores codec before after ∧
      ∀ later ∈ next, TaskStores codec after.raw later := by
  cases task with
  | ingest path stage =>
      simp only [pullStep] at completed
      split at completed
      next => cases completed
      next disk stages stepped =>
        cases completed
        rcases ingestStep_stores names stores stepped with ⟨stored, soundNext⟩
        refine ⟨stored, ?_⟩
        intro later isNext
        rcases Option.map_eq_some_iff.mp isNext with ⟨stage, isStage, rfl⟩
        exact soundNext stage isStage
  | publishDay path stage =>
      simp only [pullStep] at completed
      split at completed
      next => cases completed
      next disk stages stepped =>
        cases completed
        rcases publishDayStep_stores names stores stepped with
          ⟨stored, soundNext⟩
        refine ⟨stored, ?_⟩
        intro later isNext
        rcases Option.map_eq_some_iff.mp isNext with ⟨stage, isStage, rfl⟩
        exact soundNext stage isStage

end Invariant

/-! ## Whole runs -/

section Runs

variable {β : Type} {codec : FileCodec β} {raw : RawFiles β}

theorem taskStores_start
    {files : List DataPath} {task : PullTask β}
    (isTask : task ∈ pullTasks files) : TaskStores codec raw task := by
  rcases List.mem_append.mp isTask with isChunk | isDay
  · rcases List.mem_map.mp isChunk with ⟨path, _, rfl⟩
    trivial
  · rcases List.mem_map.mp isDay with ⟨path, _, rfl⟩
    trivial

/-- An interrupted write only changes a hidden file. -/
theorem stores_interrupted (state : PullerState β) (written : Option β) :
    Stores codec state.central (interrupted state written) := by
  unfold interrupted
  split
  next place bytes isWriting =>
    rcases Option.bind_eq_some_iff.mp isWriting with ⟨task, _, writes⟩
    have hidden : ∃ target, place = hiddenBeside target := by
      unfold PullTask.writing at writes
      split at writes
      all_goals first
        | cases writes
          exact ⟨_, rfl⟩
        | cases writes
    rcases hidden with ⟨target, rfl⟩
    exact stores_hidden _ _ _
  next => exact Stores.refl ..

/-- What the store promises is still promised after a step. -/
theorem StoreSound.stored
    {before after : PullerState β} (sound : StoreSound codec before)
    (stored : Stores codec before.central after.central)
    (task : ∀ task ∈ after.task, TaskStores codec after.central.raw task)
    (pending : ∀ task ∈ after.pending, ∀ raw, TaskStores codec raw task) :
    StoreSound codec after where
  mirror := by
    rw [stored.mirror]
    exact sound.mirror
  days place bytes found := by
    by_cases hidden : Hidden place.2
    · exact publishable_of_hidden hidden bytes
    · rcases stored.placed place bytes hidden found with old | new
      · exact (sound.days place bytes old).mono stored.kept
      · exact new
  acks chunkId ack found := by
    rcases stored.acks chunkId ack found with old | new
    · rcases sound.acks chunkId ack old with
        ⟨manifest, bytes, storable, here⟩
      exact ⟨manifest, bytes, storable, here.mono storable.2 stored.kept⟩
    · exact new
  task := task
  pending := pending

theorem storeSound_start : StoreSound codec ({} : PullerState β) where
  mirror := by
    rintro entry ⟨⟩
  days := by
    rintro place bytes ⟨⟩
  acks := by
    rintro chunkId ack ⟨⟩
  task := by
    rintro task ⟨⟩
  pending := by
    rintro task ⟨⟩

variable [DecidableEq β]

theorem StoreSound.work
    {before after : PullerState β} (sound : StoreSound codec before)
    (worked : pullerWork codec before = some after) :
    StoreSound codec after ∧ RawKept before.central.raw after.central.raw := by
  unfold pullerWork at worked
  split at worked
  next => cases worked
  next task rest _ isPending =>
    cases worked
    have waiting (other : PullTask β) (isOther : other ∈ task :: rest) :
        ∀ raw, TaskStores codec raw other :=
      sound.pending other (isPending ▸ isOther)
    refine ⟨sound.stored (Stores.refl ..) ?_ ?_, rawKept_refl _⟩
    · rintro other ⟨⟩
      exact waiting task List.mem_cons_self _
    · intro other inRest
      exact waiting other (List.mem_cons_of_mem _ inRest)
  next task isTask =>
    split at worked
    next => 
      cases worked
      exact ⟨sound.stored (Stores.refl ..) (by rintro task ⟨⟩) sound.pending,
        rawKept_refl _⟩
    next central next stepped =>
      cases worked
      rcases pullStep_stores sound.mirror (sound.task task isTask) stepped with
        ⟨stored, soundNext⟩
      exact ⟨sound.stored stored soundNext sound.pending, stored.kept⟩

/-- Every step keeps the invariant and the files under final names. -/
theorem StoreSound.step
    {before after : PullerState β} {label : PullerLabel β}
    (sound : StoreSound codec before)
    (names : MirrorsName codec Storable label)
    (stepped : pullerStep codec before label = some after) :
    StoreSound codec after ∧ RawKept before.central.raw after.central.raw := by
  cases label with
  | tick nowNs =>
      cases stepped
      exact ⟨sound.stored (Stores.refl ..) sound.task sound.pending,
        rawKept_refl _⟩
  | mirror files =>
      cases stepped
      exact ⟨{ sound with mirror := names }, rawKept_refl _⟩
  | run files =>
      simp only [pullerStep, Option.ite_none_right_eq_some] at stepped
      rcases stepped with ⟨⟨idle, _⟩, ⟨⟩⟩
      exact ⟨sound.stored (Stores.refl ..) sound.task
        fun task isTask raw => taskStores_start isTask, rawKept_refl _⟩
  | work => exact sound.work stepped
  | fail written =>
      cases stepped
      have stored : Stores codec before.central _ :=
        stores_interrupted before written
      exact ⟨sound.stored stored (by rintro task ⟨⟩) sound.pending, stored.kept⟩
  | crash written =>
      cases stepped
      have stored : Stores codec before.central _ :=
        stores_interrupted before written
      exact ⟨sound.stored stored (by rintro task ⟨⟩) (by rintro task ⟨⟩),
        stored.kept⟩
  | unstage chunkId =>
      cases stepped
      refine ⟨{ sound with acks := ?_ }, rawKept_refl _⟩
      intro other ack found
      rw [Dict.get?_erase] at found
      split at found
      next => cases found
      next => exact sound.acks other ack found

/-- A run keeps the invariant and the files under final names. -/
theorem StoreSound.run
    {start final : PullerState β} {labels : List (PullerLabel β)}
    (sound : StoreSound codec start)
    (names : ∀ label ∈ labels, MirrorsName codec Storable label)
    (reached : runFrom (pullerStep codec) start labels = some final) :
    StoreSound codec final ∧ RawKept start.central.raw final.central.raw := by
  have preserved : ∀ before label after,
      (StoreSound codec before ∧
        RawKept start.central.raw before.central.raw) →
      MirrorsName codec Storable label →
        pullerStep codec before label = some after →
          StoreSound codec after ∧
            RawKept start.central.raw after.central.raw := by
    rintro before label after ⟨isSound, keptSoFar⟩ allowed stepped
    rcases isSound.step allowed stepped with ⟨soundAfter, kept⟩
    exact ⟨soundAfter, keptSoFar.trans kept⟩
  exact invariant_of_run preserved ⟨sound, rawKept_refl _⟩
    (stepsMeet_of_forall (fun label isLabel _ => names label isLabel) start)
    reached

/--
In every run over mirrors which name storable data paths only: what is sealed
or staged at some moment is still what it was at every later one.
-/
theorem central_store_integrity
    (codec : FileCodec β) {first later : List (PullerLabel β)}
    {middle final : PullerState β}
    (names : ∀ label ∈ first ++ later, MirrorsName codec Storable label)
    (reached : runFrom (pullerStep codec) {} first = some middle)
    (continued : runFrom (pullerStep codec) middle later = some final) :
    (∀ collectorId utcDate bytes,
      middle.central.raw.get? (sealedPlace collectorId utcDate) = some bytes →
        final.central.raw.get? (sealedPlace collectorId utcDate) = some bytes ∧
          DayHere codec final.central.raw collectorId utcDate bytes) ∧
      ∀ chunkId ack, middle.central.staged.get? chunkId = some ack →
        ∃ manifest bytes, AckHere codec middle.central.raw ack manifest bytes ∧
          AckHere codec final.central.raw ack manifest bytes ∧
          final.central.raw.get? (destination manifest) =
            middle.central.raw.get? (destination manifest) := by
  have soundMiddle : StoreSound codec middle :=
    (storeSound_start.run (fun label isFirst =>
      names label (List.mem_append_left _ isFirst)) reached).1
  rcases soundMiddle.run (fun label isLater =>
      names label (List.mem_append_right _ isLater)) continued with
    ⟨soundFinal, kept⟩
  constructor
  · intro collectorId utcDate bytes isSealed
    have still := kept _ bytes (not_hidden_sealedPlace collectorId utcDate)
      isSealed
    rcases soundFinal.days _ bytes still collectorId utcDate rfl with
      ⟨day, parsed, collector, date, chunks⟩
    exact ⟨still, day, parsed, collector, date,
      fun chunk isChunk => (chunks chunk isChunk).2⟩
  · intro chunkId ack isStaged
    rcases soundMiddle.acks chunkId ack isStaged with
      ⟨manifest, bytes, storable, here⟩
    refine ⟨manifest, bytes, here, here.mono storable.2 kept, ?_⟩
    rcases here with ⟨_, _, _, ⟨content, found, _⟩, _⟩
    exact (kept _ content storable.2 found).trans found.symm

end Runs

/-! ## Two runs -/

/-- Where the edge puts the manifest of day 3. -/
def sealedPath : DataPath := (sealedPlace "collector" 3).2

/-- Take a listing and go through it. -/
def wholeRun (files : List DataPath) (steps : Nat) :
    List (PullerLabel SampleFile) :=
  .run files :: List.replicate steps .work

/-- A mirror with the first chunk and the sealed day, which is then emptied. -/
def publishedRun : List (PullerLabel SampleFile) :=
  .mirror (((Dict.empty.set firstPath.manifest
      (.manifest (sampleManifest "chunk-first" "abc" firstPath))).set
      firstPath (.text "abc")).set
      sealedPath (.day ⟨"collector", 3, 345600000000000,
        [(sampleManifest "chunk-first" "abc" firstPath).asRef]⟩)) ::
    wholeRun [firstPath.manifest, sealedPath] 15

def emptiedRun : List (PullerLabel SampleFile) :=
  [.mirror Dict.empty, .unstage "chunk-first", .run [firstPath.manifest],
    .work, .work, .crash (some (.text "torn"))]

theorem publishedRun_runs :
    (runFrom (pullerStep sampleCodec) {} publishedRun).isSome := by
  decide +kernel

def publishedState : PullerState SampleFile :=
  (runFrom (pullerStep sampleCodec) {} publishedRun).get publishedRun_runs

theorem emptiedRun_runs :
    (runFrom (pullerStep sampleCodec) publishedState emptiedRun).isSome := by
  decide +kernel

def emptiedState : PullerState SampleFile :=
  (runFrom (pullerStep sampleCodec) publishedState emptiedRun).get
    emptiedRun_runs

theorem central_store_integrity_published :
    (∃ bytes,
      emptiedState.central.raw.get? (sealedPlace "collector" 3) = some bytes ∧
        DayHere sampleCodec emptiedState.central.raw "collector" 3 bytes) ∧
      ∃ ack manifest bytes,
        publishedState.central.staged.get? "chunk-first" = some ack ∧
          AckHere sampleCodec emptiedState.central.raw ack manifest bytes := by
  have integrity := central_store_integrity sampleCodec
    (by decide +kernel) (Option.some_get publishedRun_runs).symm
    (Option.some_get emptiedRun_runs).symm
  have isSealed : (publishedState.central.raw.get?
      (sealedPlace "collector" 3)).isSome := by
    decide +kernel
  have isStaged :
      (publishedState.central.staged.get? "chunk-first").isSome := by
    decide +kernel
  rcases Option.isSome_iff_exists.mp isSealed with ⟨bytes, found⟩
  rcases Option.isSome_iff_exists.mp isStaged with ⟨ack, staged⟩
  rcases integrity.2 "chunk-first" ack staged with
    ⟨manifest, written, _, here, _⟩
  exact ⟨⟨bytes, integrity.1 "collector" 3 bytes found⟩,
    ack, manifest, written, staged, here⟩

/-- A mirror whose chunk has the hidden name of the second file. -/
def hiddenNameRun : List (PullerLabel SampleFile) :=
  .mirror ((Dict.empty.set firstPath.manifest
      (.manifest (sampleManifest "chunk-first" "abc" secondPath.hidden))).set
      secondPath.hidden (.text "abc")) ::
    wholeRun [firstPath.manifest] 11

/-- The second file is about to be downloaded. -/
def truncatingRun : List (PullerLabel SampleFile) :=
  [.mirror ((Dict.empty.set secondPath.manifest
      (.manifest (sampleManifest "chunk-second" "xyz" secondPath))).set
      secondPath (.text "xyz")),
    .run [secondPath.manifest], .work, .work, .work, .work]

/-- An acknowledged chunk under a hidden name is truncated by a later run. -/
theorem acknowledged_chunk_truncated :
    (∀ label ∈ hiddenNameRun ++ truncatingRun,
      MirrorsName sampleCodec WriterForm label) ∧
      ∃ middle ∈ runFrom (pullerStep sampleCodec) {} hiddenNameRun,
        ∃ final ∈ runFrom (pullerStep sampleCodec) middle truncatingRun,
          ∃ ack ∈ middle.central.staged.get? "chunk-first",
            ∀ manifest bytes,
              ¬ AckHere sampleCodec final.central.raw ack manifest bytes := by
  have truncated :
      ∃ middle ∈ runFrom (pullerStep sampleCodec) {} hiddenNameRun,
        ∃ final ∈ runFrom (pullerStep sampleCodec) middle truncatingRun,
          ∃ ack ∈ middle.central.staged.get? "chunk-first", ack.sha256 = "abc" ∧
            ∀ entry ∈ final.central.raw.entries,
              sampleCodec.sha256 entry.2 ≠ "abc" := by
    decide +kernel
  rcases truncated with
    ⟨middle, reached, final, continued, ack, isStaged, hash, others⟩
  refine ⟨by decide +kernel, middle, reached, final, continued, ack, isStaged,
    ?_⟩
  rintro manifest bytes ⟨_, _, sameHash, ⟨content, found, _, isHash⟩, _⟩
  have entry := (Dict.mem_entries_iff _).mpr found
  exact others _ entry (isHash.trans (sameHash.trans hash))

end ShadowDataPlane.Transfer
