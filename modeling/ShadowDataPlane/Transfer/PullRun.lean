import ShadowDataPlane.Transfer.StoreIntegrity

/-!
# What a pull run reports

`CentralPuller.run` goes through the chunk manifests and then through the day
manifests which it has listed.  A call which raises is reported and left; the
run goes on with the next file.  `PullResult` is all that the caller sees of it.

Whatever fails on the way, the report is true (`pull_run_settles`): every
manifest which has been listed is taken over or reported, every day is sealed,
reported or incomplete, and a chunk counts as new only if its place was free
when the run began.
-/

namespace ShadowDataPlane.Transfer

open ShadowDataPlane.Foundation
open ShadowDataPlane.Contracts
open ShadowDataPlane.Central

/-! ## The report -/

/-- A chunk which a run has taken over or verified. -/
structure PulledChunk where
  manifest : ChunkManifestV1
  ack : AckV1
  wroteData : Bool
deriving DecidableEq

/-- The `kind` of a failure. -/
inductive FailureKind where
  | chunk
  | day
deriving DecidableEq, Repr

/-- What `run` catches: a `ValueError` of its own, or an `OSError`. -/
inductive CaughtError where
  | raised (problem : PullError)
  | osError
deriving DecidableEq, Repr

/-- A manifest which a run could not take over. -/
structure PullFailure where
  kind : FailureKind
  remotePath : DataPath
  error : CaughtError
deriving DecidableEq

/-- What a run reports. -/
structure PullResult where
  manifestsSeen : Nat
  chunks : List PulledChunk := []
  dayManifestsSeen : Nat
  daysPublished : Nat := 0
  failures : List PullFailure := []
deriving DecidableEq

/-- `new_chunks`. -/
def PullResult.newChunks (result : PullResult) : Nat :=
  result.chunks.countP PulledChunk.wroteData

/-- `existing_chunks`. -/
def PullResult.existingChunks (result : PullResult) : Nat :=
  result.chunks.length - result.newChunks

/-- `verified_bytes`. -/
def PullResult.verifiedBytes (result : PullResult) : Nat :=
  (result.chunks.map fun chunk => chunk.manifest.sizeBytes).sum

/-- How many failures of a kind are reported. -/
def PullResult.failed (result : PullResult) (kind : FailureKind) : Nat :=
  result.failures.countP fun failure => failure.kind = kind

/-- A file is reported as failed. -/
def PullResult.Reports (result : PullResult) (kind : FailureKind)
    (path : DataPath) : Prop :=
  ∃ failure ∈ result.failures, failure.kind = kind ∧
    failure.remotePath = path

/-- The places of the chunks which count as new. -/
def PullResult.newPlaces (result : PullResult) : List (String × DataPath) :=
  (result.chunks.filter PulledChunk.wroteData).map fun chunk =>
    destination chunk.manifest

/-! ## The run -/

/-- A puller in the middle of `run`, with `wrote_data` of the current call. -/
structure RunState (β : Type) where
  puller : PullerState β
  wroteData : Bool := false
  result : PullResult
deriving DecidableEq

/-- The steps of a run, and its failures. -/
inductive RunLabel (β : Type) where
  | tick (nowNs : Nat)
  | work
  /-- An `OSError` before the step is done. -/
  | fail (written : Option β)
  /-- An `OSError` of the `fsync` behind the step. -/
  | failLate
deriving DecidableEq

def taskKind {β : Type} : PullTask β → FailureKind
  | .ingest _ _ => .chunk
  | .publishDay _ _ => .day

def taskPath {β : Type} : PullTask β → DataPath
  | .ingest path _ | .publishDay path _ => path

/-- The call as `run` makes it. -/
def taskStart {β : Type} : PullTask β → PullTask β
  | .ingest path _ => .ingest path .readManifest
  | .publishDay path _ => .publishDay path .readDay

section Source

variable {β : Type}

/-- `failures.append`. -/
def noteFailure (result : PullResult) (task : PullTask β)
    (error : CaughtError) : PullResult :=
  { result with
    failures := result.failures ++ [⟨taskKind task, taskPath task, error⟩] }

/-- What the return of a call after its last step adds. -/
def noteReturn (result : PullResult) (nowNs : Nat) (wroteData : Bool) :
    PullTask β → PullResult
  | .ingest _ (.writeAck manifest) =>
      { result with
        chunks := result.chunks ++
          [{ manifest
             ack :=
              { chunkId := manifest.chunkId
                sha256 := manifest.sha256
                durableAt := nowNs }
             wroteData }] }
  | .publishDay _ (.replaceDay _) =>
      { result with daysPublished := result.daysPublished + 1 }
  | _ => result

/-- `wrote_data` after a step. -/
def wroteAfter (wroteData : Bool) : PullTask β → Bool
  | .ingest _ (.checkDestination _ _) => false
  | .ingest _ (.replacePartial _ _) => true
  | _ => wroteData

variable [DecidableEq β] (codec : FileCodec β)

/-- The current call is left with a failure. -/
def failTask (state : RunState β) (task : PullTask β)
    (central : CentralDisk β) (error : CaughtError) : RunState β :=
  { state with
    puller := { state.puller with central, task := none }
    result := noteFailure state.result task error }

def runWork (state : RunState β) : Option (RunState β) :=
  match state.puller.task, state.puller.pending with
  | none, [] => none
  | none, task :: rest =>
      some
        { state with
          puller := { state.puller with task := some task, pending := rest } }
  | some task, _ =>
      match pullStep codec state.puller.central state.puller.nowNs task with
      | .error problem =>
          some (failTask state task state.puller.central (.raised problem))
      | .ok (central, some next) =>
          some
            { state with
              puller := { state.puller with central, task := some next }
              wroteData := wroteAfter state.wroteData task }
      | .ok (central, none) =>
          some
            { state with
              puller := { state.puller with central, task := none }
              result := noteReturn state.result state.puller.nowNs
                state.wroteData task }

def runStep (state : RunState β) : RunLabel β → Option (RunState β)
  | .tick nowNs =>
      some { state with puller := { state.puller with nowNs } }
  | .work => runWork codec state
  | .fail written =>
      state.puller.task.map fun task =>
        failTask state task (interrupted state.puller written) .osError
  | .failLate =>
      match state.puller.task with
      | none => none
      | some task =>
          match pullStep codec state.puller.central state.puller.nowNs
              task with
          | .error _ => none
          | .ok (central, _) => some (failTask state task central .osError)

/-- `run`, with what `list_files` shows. -/
def startRun (before : PullerState β) (files : List DataPath) : RunState β where
  puller := { before with pending := pullTasks files }
  result :=
    { manifestsSeen := (files.filter namesChunk).length
      dayManifestsSeen := (files.filter namesDay).length }

end Source

/-! ## A run is one of the store's runs -/

/-- The steps of the store behind a step of the run. -/
def pullerLabels {β : Type} : RunLabel β → List (PullerLabel β)
  | .tick nowNs => [.tick nowNs]
  | .work => [.work]
  | .fail written => [.fail written]
  | .failLate => [.work, .fail none]

section Refinement

variable {β : Type}

theorem interrupted_none (state : PullerState β) :
    interrupted state none = state.central := by
  unfold interrupted
  split <;> simp_all

variable [DecidableEq β] {codec : FileCodec β}

theorem runStep_refines
    {before after : RunState β} {label : RunLabel β}
    (stepped : runStep codec before label = some after) :
    runFrom (pullerStep codec) before.puller (pullerLabels label) =
      some after.puller := by
  cases label with
  | tick nowNs =>
      cases stepped
      rfl
  | work =>
      simp only [runStep, runWork] at stepped
      split at stepped
      next => cases stepped
      next task rest isTask isPending =>
        cases stepped
        simp [pullerLabels, runFrom, pullerStep, pullerWork, isTask,
          isPending]
      next task isTask =>
        split at stepped
        next failed =>
          cases stepped
          simp [pullerLabels, runFrom, pullerStep, pullerWork, isTask, failed,
            failTask]
        next central next worked =>
          cases stepped
          simp [pullerLabels, runFrom, pullerStep, pullerWork, isTask, worked]
        next central worked =>
          cases stepped
          simp [pullerLabels, runFrom, pullerStep, pullerWork, isTask, worked]
  | fail written =>
      rcases Option.map_eq_some_iff.mp stepped with ⟨task, _, rfl⟩
      rfl
  | failLate =>
      simp only [runStep] at stepped
      split at stepped
      next => cases stepped
      next task isTask =>
        split at stepped
        next => cases stepped
        next central next worked =>
          cases stepped
          simp [pullerLabels, runFrom, pullerStep, pullerWork, isTask, worked,
            interrupted_none, failTask]

end Refinement

/-! ## What a call has read -/

section Reading

variable {β : Type} (codec : FileCodec β)

/-- The manifest which a stage works on is the one of the mirror. -/
def IngestReads (mirror : Dict DataPath β) (raw : RawFiles β)
    (path : DataPath) : IngestStage β → Prop
  | .readManifest => True
  | .checkDestination _ bytes | .openPartial _ bytes | .download _ bytes
  | .verifyPartial _ bytes | .replacePartial _ bytes
  | .checkManifest _ bytes | .writeManifest _ bytes
  | .replaceManifest _ bytes => mirror.get? path = some bytes
  | .writeAck manifest =>
      ∃ bytes, mirror.get? path = some bytes ∧
        raw.get? (manifestBeside (destination manifest)) = some bytes

/-- A day manifest of the mirror. -/
def DayRead (mirror : Dict DataPath β) (path : DataPath) (bytes : β)
    (day : DayManifestV1) : Prop :=
  mirror.get? path = some bytes ∧ codec.parseDay bytes = some day

def DayReads (mirror : Dict DataPath β) (raw : RawFiles β)
    (path : DataPath) : DayStage β → Prop
  | .readDay => True
  | .writeDay place bytes =>
      ∃ day, DayRead codec mirror path bytes day ∧
        place = sealedPlace day.collectorId day.utcDate
  | .replaceDay place =>
      ∃ bytes day, DayRead codec mirror path bytes day ∧
        place = sealedPlace day.collectorId day.utcDate ∧
        raw.get? (hiddenBeside place) = some bytes

def TaskReads (central : CentralDisk β) : PullTask β → Prop
  | .ingest path stage => IngestReads central.mirror central.raw path stage
  | .publishDay path stage =>
      DayReads codec central.mirror central.raw path stage

/-- The day is sealed as the mirror has it, or one of its chunks is not here. -/
def DaySettled (central : CentralDisk β) (path : DataPath) : Prop :=
  ∃ bytes day, DayRead codec central.mirror path bytes day ∧
    (central.raw.get? (sealedPlace day.collectorId day.utcDate) =
        some bytes ∨
      ∃ chunk ∈ day.chunks,
        ¬ ChunkHere codec central.raw day.collectorId chunk)

/-- The places of chunks hold what they held. -/
def DataKept (raw after : RawFiles β) : Prop :=
  ∀ place, Storable place.2 → after.get? place = raw.get? place

variable {codec}

theorem dataKept_refl (raw : RawFiles β) : DataKept raw raw :=
  fun _ _ => rfl

theorem dataKept_hidden
    (raw : RawFiles β) (place : String × DataPath) (bytes : β) :
    DataKept raw (raw.set (hiddenBeside place) bytes) := by
  intro other storable
  rw [Dict.get?_set, if_neg]
  rintro rfl
  exact storable.2 (hidden_hidden place.2)

/-- A renaming changes nothing else that is not hidden. -/
theorem get?_renameHidden
    {raw after : RawFiles β} {target place : String × DataPath}
    (renamed : renameHidden raw target = .ok after)
    (other : place ≠ target) (visible : ¬ Hidden place.2) :
    after.get? place = raw.get? place := by
  unfold renameHidden at renamed
  split at renamed
  next => cases renamed
  next content hidden =>
    cases renamed
    rw [Dict.get?_set, if_neg other, Dict.get?_erase, if_neg]
    rintro rfl
    exact visible (hidden_hidden target.2)

theorem dataKept_seal
    {raw after : RawFiles β} {collectorId : String} {utcDate : Nat}
    (renamed :
      renameHidden raw (sealedPlace collectorId utcDate) = .ok after) :
    DataKept raw after := by
  intro other storable
  apply get?_renameHidden renamed _ storable.2
  rintro rfl
  exact storable.1

theorem DayRead.mono
    {before after : CentralDisk β} {path : DataPath} {bytes : β}
    {day : DayManifestV1} (read : DayRead codec before.mirror path bytes day)
    (mirror : after.mirror = before.mirror) :
    DayRead codec after.mirror path bytes day := by
  rw [mirror]
  exact read

/-- A settled day stays settled while no chunk is taken over. -/
theorem DaySettled.mono
    {before after : CentralDisk β} {path : DataPath}
    (names : NamesOnly codec Storable before.mirror)
    (settled : DaySettled codec before path)
    (mirror : after.mirror = before.mirror)
    (kept : RawKept before.raw after.raw)
    (data : DataKept before.raw after.raw) :
    DaySettled codec after path := by
  rcases settled with ⟨bytes, day, read, isSealed | ⟨chunk, isChunk, absent⟩⟩
  · exact ⟨bytes, day, read.mono mirror,
      Or.inl (kept _ bytes (not_hidden_sealedPlace _ _) isSealed)⟩
  · refine ⟨bytes, day, read.mono mirror, Or.inr ⟨chunk, isChunk, ?_⟩⟩
    rintro ⟨content, found, same⟩
    have listed := (Dict.mem_entries_iff _).mpr read.1
    have storable := (names _ listed).2 day read.2 chunk isChunk
    rw [data _ storable] at found
    exact absent ⟨content, found, same⟩

theorem not_chunkHere_of_chunksPresent
    {raw : RawFiles β} {collectorId : String} {chunks : List ChunkRefV1}
    (absent : chunksPresent codec raw collectorId chunks = .ok false) :
    ∃ chunk ∈ chunks, ¬ ChunkHere codec raw collectorId chunk := by
  induction chunks with
  | nil => cases absent
  | cons head rest induction =>
      unfold chunksPresent at absent
      split at absent
      next missing =>
        refine ⟨head, List.mem_cons_self, ?_⟩
        rintro ⟨content, found, _⟩
        rw [missing] at found
        cases found
      next content found =>
        split at absent
        next wrongSize =>
          refine ⟨head, List.mem_cons_self, ?_⟩
          rintro ⟨other, isOther, size, _⟩
          rw [found] at isOther
          cases isOther
          exact wrongSize size
        next =>
          split at absent
          next => cases absent
          next =>
            rcases induction absent with ⟨chunk, inRest, notHere⟩
            exact ⟨chunk, List.mem_cons_of_mem _ inRest, notHere⟩

variable [DecidableEq β]

theorem IngestReads.step
    {before after : CentralDisk β} {path : DataPath} {nowNs : Nat}
    {stage : IngestStage β} {next : Option (IngestStage β)}
    (stores : IngestStores codec before.raw stage)
    (reads : IngestReads before.mirror before.raw path stage)
    (completed :
      ingestStep codec before path nowNs stage = .ok (after, next)) :
    ∀ later ∈ next, IngestReads before.mirror after.raw path later := by
  cases ingestStep_effect completed with
  | readManifest found =>
      rintro later ⟨⟩
      exact found
  | destinationFree | destinationVerified | openPartial | download
  | verifyPartial | replacePartial | manifestFree | writeManifest =>
      rintro later ⟨⟩
      exact reads
  | manifestSame found =>
      rintro later ⟨⟩
      exact ⟨_, reads, found⟩
  | replaceManifest renamed =>
      rcases stores with ⟨_, _, _, free, hidden⟩
      rcases (renameHidden_ok renamed free).2 with ⟨moved, isMoved, placed⟩
      rw [hidden] at isMoved
      cases isMoved
      rintro later ⟨⟩
      exact ⟨_, reads, placed⟩
  | writeAck => rintro later ⟨⟩

/-- What becomes of a day once its manifest is read. -/
theorem publishDayStep_readDay
    {before after : CentralDisk β} {path : DataPath}
    {next : Option (DayStage β)}
    (completed :
      publishDayStep codec before path .readDay = .ok (after, next)) :
    after = before ∧
      (next = none → DaySettled codec before path) ∧
        ∀ later ∈ next, DayReads codec before.mirror before.raw path later := by
  simp only [publishDayStep] at completed
  split at completed
  next => cases completed
  next bytes found =>
    split at completed
    next => cases completed
    next day parsed =>
      split at completed
      next => cases completed
      next =>
        split at completed
        next present isPresent =>
          split at completed
          next same =>
            cases completed
            subst same
            refine ⟨rfl, fun _ => ?_, by rintro later ⟨⟩⟩
            exact ⟨present, day, ⟨found, parsed⟩, Or.inl isPresent⟩
          next => cases completed
        next =>
          split at completed
          next => cases completed
          next absent =>
            cases completed
            refine ⟨rfl, fun _ => ?_, by rintro later ⟨⟩⟩
            exact ⟨bytes, day, ⟨found, parsed⟩,
              Or.inr (not_chunkHere_of_chunksPresent absent)⟩
          next =>
            cases completed
            refine ⟨rfl, by simp, ?_⟩
            rintro later ⟨⟩
            exact ⟨day, ⟨found, parsed⟩, rfl⟩

/-- What a step of a day's publication changes and keeps. -/
structure DayStep (before after : CentralDisk β) (path : DataPath)
    (next : Option (DayStage β)) (codec : FileCodec β) : Prop where
  data : DataKept before.raw after.raw
  staged : after.staged = before.staged
  settled : next = none → DaySettled codec after path
  reads : ∀ later ∈ next, DayReads codec after.mirror after.raw path later

theorem DayReads.step
    {before after : CentralDisk β} {path : DataPath} {stage : DayStage β}
    {next : Option (DayStage β)}
    (stores : DayStores codec before.raw stage)
    (reads : DayReads codec before.mirror before.raw path stage)
    (completed : publishDayStep codec before path stage = .ok (after, next)) :
    DayStep before after path next codec := by
  cases stage with
  | readDay =>
      rcases publishDayStep_readDay completed with ⟨rfl, settled, later⟩
      exact ⟨dataKept_refl _, rfl, settled, later⟩
  | writeDay place bytes =>
      cases completed
      rcases reads with ⟨day, read, isPlace⟩
      refine ⟨dataKept_hidden _ _ _, rfl, by simp, ?_⟩
      rintro later ⟨⟩
      exact ⟨bytes, day, read, isPlace, Dict.get?_set_self _ _ _⟩
  | replaceDay place =>
      rcases reads with ⟨bytes, day, read, rfl, hidden⟩
      cases publishDayStep_effect completed with
      | replaceDay renamed =>
          rcases (renameHidden_ok renamed stores.1).2 with
            ⟨moved, isMoved, placed⟩
          rw [hidden] at isMoved
          cases isMoved
          exact ⟨dataKept_seal renamed, rfl,
            fun _ => ⟨bytes, day, read, Or.inl placed⟩, by rintro later ⟨⟩⟩

end Reading

/-! ## One step of a call -/

section Steps

variable {β : Type}

@[simp]
theorem taskKind_taskStart (task : PullTask β) :
    taskKind (taskStart task) = taskKind task := by
  cases task <;> rfl

/-- A chunk which has been acknowledged stays acknowledged. -/
def StagedKept (staged after : Dict String AckV1) : Prop :=
  ∀ chunkId ack, staged.get? chunkId = some ack → ack.chunkId = chunkId →
    ∃ later, after.get? chunkId = some later ∧ later.chunkId = chunkId

theorem stagedKept_of_eq {staged after : Dict String AckV1}
    (same : after = staged) : StagedKept staged after := by
  intro chunkId ack found isChunk
  rw [same]
  exact ⟨ack, found, isChunk⟩

/-- The mirror has a manifest of the chunk with this SHA-256. -/
def MirrorsChunk (codec : FileCodec β) (mirror : Dict DataPath β)
    (chunkId sha256 : String) : Prop :=
  ∃ path bytes manifest, mirror.get? path = some bytes ∧
    codec.parseManifest bytes = some manifest ∧
      manifest.chunkId = chunkId ∧ manifest.sha256 = sha256

/-- Only the acknowledgements of mirrored manifests are written. -/
def StagedFrom (codec : FileCodec β) (mirror : Dict DataPath β)
    (staged after : Dict String AckV1) : Prop :=
  ∀ chunkId ack, staged.get? chunkId = some ack → ack.chunkId = chunkId →
    ∃ later, after.get? chunkId = some later ∧ later.chunkId = chunkId ∧
      (later = ack ∨ MirrorsChunk codec mirror chunkId later.sha256)

theorem stagedFrom_of_eq {codec : FileCodec β} {mirror : Dict DataPath β}
    {staged after : Dict String AckV1} (same : after = staged) :
    StagedFrom codec mirror staged after := by
  intro chunkId ack found isChunk
  rw [same]
  exact ⟨ack, found, isChunk, Or.inl rfl⟩

theorem StagedFrom.kept {codec : FileCodec β} {mirror : Dict DataPath β}
    {staged after : Dict String AckV1}
    (stagedFrom : StagedFrom codec mirror staged after) :
    StagedKept staged after := by
  intro chunkId ack found isChunk
  rcases stagedFrom chunkId ack found isChunk with ⟨later, isLater, same, _⟩
  exact ⟨later, isLater, same⟩

/-- What a step of a call changes and keeps. -/
structure TaskStep (codec : FileCodec β) (before after : CentralDisk β)
    (task : PullTask β) (next : Option (PullTask β)) : Prop where
  stored : Stores codec before after
  stores : ∀ later ∈ next, TaskStores codec after.raw later
  data : taskKind task = .day → DataKept before.raw after.raw
  staged : StagedFrom codec before.mirror before.staged after.staged
  reads : ∀ later ∈ next, TaskReads codec after later
  start : ∀ later ∈ next, taskStart later = taskStart task

/-- What is left of an interrupted write concerns no chunk. -/
theorem interrupted_keeps (state : PullerState β) (written : Option β) :
    (interrupted state written).mirror = state.central.mirror ∧
      (interrupted state written).staged = state.central.staged ∧
      DataKept state.central.raw (interrupted state written).raw := by
  unfold interrupted
  split
  next place bytes isWriting =>
    rcases Option.bind_eq_some_iff.mp isWriting with ⟨task, _, writes⟩
    have hidden : ∃ target, place = hiddenBeside target := by
      unfold PullTask.writing at writes
      split at writes
      all_goals first
        | cases writes
          exact ⟨_, rfl⟩
        | cases writes
    rcases hidden with ⟨target, rfl⟩
    exact ⟨rfl, rfl, dataKept_hidden _ _ _⟩
  next => exact ⟨rfl, rfl, dataKept_refl _⟩

variable [DecidableEq β] {codec : FileCodec β}

theorem ingestStep_staged
    {before after : CentralDisk β} {path : DataPath} {nowNs : Nat}
    {stage : IngestStage β} {next : Option (IngestStage β)}
    (stores : IngestStores codec before.raw stage)
    (reads : IngestReads before.mirror before.raw path stage)
    (completed :
      ingestStep codec before path nowNs stage = .ok (after, next)) :
    StagedFrom codec before.mirror before.staged after.staged := by
  cases ingestStep_effect completed with
  | writeAck =>
      rcases reads with ⟨bytes, mirrored, beside⟩
      rcases stores with ⟨_, other, parsed, _, isOther⟩
      rw [beside] at isOther
      cases isOther
      intro chunkId ack found isChunk
      rw [Dict.get?_set]
      split
      next same =>
        exact ⟨_, rfl, same.symm,
          Or.inr ⟨path, bytes, _, mirrored, parsed, same.symm, rfl⟩⟩
      next => exact ⟨ack, found, isChunk, Or.inl rfl⟩
  | _ => exact stagedFrom_of_eq rfl

theorem pullStep_task
    {before after : CentralDisk β} {nowNs : Nat} {task : PullTask β}
    {next : Option (PullTask β)}
    (names : NamesOnly codec Storable before.mirror)
    (stores : TaskStores codec before.raw task)
    (reads : TaskReads codec before task)
    (completed : pullStep codec before nowNs task = .ok (after, next)) :
    TaskStep codec before after task next := by
  rcases pullStep_stores names stores completed with ⟨stored, nextStores⟩
  cases task with
  | ingest path stage =>
      simp only [pullStep] at completed
      split at completed
      next => cases completed
      next disk later stepped =>
        cases completed
        have nextReads := IngestReads.step stores reads stepped
        refine ⟨stored, nextStores, by simp [taskKind],
          ingestStep_staged stores reads stepped, ?_, ?_⟩
        · intro task isNext
          rcases Option.map_eq_some_iff.mp isNext with ⟨stage, isStage, rfl⟩
          simp only [TaskReads]
          rw [stored.mirror]
          exact nextReads stage isStage
        · intro task isNext
          rcases Option.map_eq_some_iff.mp isNext with ⟨stage, _, rfl⟩
          rfl
  | publishDay path stage =>
      simp only [pullStep] at completed
      split at completed
      next => cases completed
      next disk later stepped =>
        cases completed
        have effect := DayReads.step stores reads stepped
        refine ⟨stored, nextStores, fun _ => effect.data,
          stagedFrom_of_eq effect.staged, ?_, ?_⟩
        · intro task isNext
          rcases Option.map_eq_some_iff.mp isNext with ⟨stage, isStage, rfl⟩
          exact effect.reads stage isStage
        · intro task isNext
          rcases Option.map_eq_some_iff.mp isNext with ⟨stage, _, rfl⟩
          rfl

end Steps

/-! ## What has been achieved -/

section Achieving

variable {β : Type} (codec : FileCodec β)

/-- The chunk of the manifest at this path stands at the centre. -/
def Taken (central : CentralDisk β) (path : DataPath) (chunk : PulledChunk) :
    Prop :=
  ∃ bytes, central.mirror.get? path = some bytes ∧
    Storable chunk.manifest.dataPath ∧
    AckHere codec central.raw chunk.ack chunk.manifest bytes

/--
An acknowledgement of the chunk is staged.  It has the chunk's SHA-256, or that
of another manifest of the mirror with the chunk's id.
-/
def AckStaged (central : CentralDisk β) (chunk : PulledChunk) : Prop :=
  ∃ ack, central.staged.get? chunk.manifest.chunkId = some ack ∧
    ack.chunkId = chunk.manifest.chunkId ∧
      (ack.sha256 = chunk.manifest.sha256 ∨
        MirrorsChunk codec central.mirror chunk.manifest.chunkId ack.sha256)

/-- What `run` has made of a call. -/
def Settled (central : CentralDisk β) (result : PullResult) :
    PullTask β → Prop
  | .ingest path _ =>
      result.Reports .chunk path ∨
        ∃ chunk ∈ result.chunks, Taken codec central path chunk
  | .publishDay path _ =>
      result.Reports .day path ∨ DaySettled codec central path

/-- How many of the calls have gone through a kind of files. -/
def callsOf (kind : FailureKind) (tasks : List (PullTask β)) : Nat :=
  tasks.countP fun task => taskKind task = kind

/-- What the calls so far have achieved, and what is said about it. -/
structure Achieved (before : CentralDisk β) (handled : List (PullTask β))
    (central : CentralDisk β) (result : PullResult) : Prop where
  settled : ∀ task ∈ handled, Settled codec central result task
  taken : ∀ chunk ∈ result.chunks, ∃ path, Taken codec central path chunk
  staged : ∀ chunk ∈ result.chunks, AckStaged codec central chunk
  chunks : result.chunks.length + result.failed .chunk =
    callsOf .chunk handled
  days : result.daysPublished + result.failed .day ≤ callsOf .day handled
  once : result.newPlaces.Nodup
  free : ∀ place ∈ result.newPlaces, before.raw.get? place = none

variable {codec}

theorem AckHere.stands
    {raw : RawFiles β} {ack : AckV1} {manifest : ChunkManifestV1}
    {bytes : β} (here : AckHere codec raw ack manifest bytes) :
    ∃ content, raw.get? (destination manifest) = some content := by
  rcases here with ⟨_, _, _, ⟨content, found, _⟩, _⟩
  exact ⟨content, found⟩

theorem Taken.mono
    {before after : CentralDisk β} {path : DataPath} {chunk : PulledChunk}
    (taken : Taken codec before path chunk)
    (mirror : after.mirror = before.mirror)
    (kept : RawKept before.raw after.raw) : Taken codec after path chunk := by
  rcases taken with ⟨bytes, found, storable, here⟩
  refine ⟨bytes, ?_, storable, here.mono storable.2 kept⟩
  rw [mirror]
  exact found

theorem AckStaged.mono
    {before after : CentralDisk β} {chunk : PulledChunk}
    (staged : AckStaged codec before chunk)
    (mirror : after.mirror = before.mirror)
    (kept : StagedFrom codec before.mirror before.staged after.staged) :
    AckStaged codec after chunk := by
  rcases staged with ⟨ack, found, isChunk, ofChunk⟩
  rcases kept _ ack found isChunk with ⟨later, isLater, same, rfl | written⟩
  · refine ⟨later, isLater, same, ?_⟩
    rw [mirror]
    exact ofChunk
  · refine ⟨later, isLater, same, Or.inr ?_⟩
    rw [mirror]
    exact written

/-- The disk changes; nothing is reported. -/
theorem Achieved.keep
    {before central after : CentralDisk β} {handled : List (PullTask β)}
    {result : PullResult}
    (achieved : Achieved codec before handled central result)
    (names : NamesOnly codec Storable central.mirror)
    (mirror : after.mirror = central.mirror)
    (kept : RawKept central.raw after.raw)
    (data : ∀ task ∈ handled, taskKind task = .day →
      DataKept central.raw after.raw)
    (staged : StagedFrom codec central.mirror central.staged after.staged) :
    Achieved codec before handled after result where
  settled task isHandled := by
    have settled := achieved.settled task isHandled
    cases task with
    | ingest path stage =>
        rcases settled with reported | ⟨chunk, isChunk, taken⟩
        · exact Or.inl reported
        · exact Or.inr ⟨chunk, isChunk, taken.mono mirror kept⟩
    | publishDay path stage =>
        rcases settled with reported | settled
        · exact Or.inl reported
        · exact Or.inr
            (settled.mono names mirror kept (data _ isHandled rfl))
  taken chunk isChunk := by
    rcases achieved.taken chunk isChunk with ⟨path, taken⟩
    exact ⟨path, taken.mono mirror kept⟩
  staged chunk isChunk := (achieved.staged chunk isChunk).mono mirror staged
  chunks := achieved.chunks
  days := achieved.days
  once := achieved.once
  free := achieved.free

/-- A report only grows. -/
theorem Settled.mono
    {central : CentralDisk β} {result later : PullResult}
    {task : PullTask β} (settled : Settled codec central result task)
    (chunks : result.chunks ⊆ later.chunks)
    (failures : result.failures ⊆ later.failures) :
    Settled codec central later task := by
  cases task with
  | ingest path stage =>
      rcases settled with ⟨failure, isFailure, same⟩ | ⟨chunk, isChunk, taken⟩
      · exact Or.inl ⟨failure, failures isFailure, same⟩
      · exact Or.inr ⟨chunk, chunks isChunk, taken⟩
  | publishDay path stage =>
      rcases settled with ⟨failure, isFailure, same⟩ | settled
      · exact Or.inl ⟨failure, failures isFailure, same⟩
      · exact Or.inr settled

theorem callsOf_concat (kind : FailureKind) (handled : List (PullTask β))
    (task : PullTask β) :
    callsOf kind (handled ++ [taskStart task]) =
      callsOf kind handled + if taskKind task = kind then 1 else 0 := by
  simp [callsOf, List.countP_append, List.countP_singleton]

theorem failed_noteFailure (kind : FailureKind) (result : PullResult)
    (task : PullTask β) (error : CaughtError) :
    (noteFailure result task error).failed kind =
      result.failed kind + if taskKind task = kind then 1 else 0 := by
  simp [noteFailure, PullResult.failed, List.countP_append,
    List.countP_singleton]

/-- A call is reported as failed. -/
theorem Achieved.fail
    {before central : CentralDisk β} {handled : List (PullTask β)}
    {result : PullResult}
    (achieved : Achieved codec before handled central result)
    (task : PullTask β) (error : CaughtError) :
    Achieved codec before (handled ++ [taskStart task]) central
      (noteFailure result task error) where
  settled other isHandled := by
    rcases List.mem_append.mp isHandled with isEarlier | isLast
    · exact (achieved.settled other isEarlier).mono (List.Subset.refl _)
        (List.subset_append_left _ _)
    · cases List.mem_singleton.mp isLast
      have reported : (noteFailure result task error).Reports (taskKind task)
          (taskPath task) :=
        ⟨_, List.mem_append_right _ List.mem_cons_self, rfl, rfl⟩
      cases task <;> exact Or.inl reported
  taken := achieved.taken
  staged := achieved.staged
  chunks := by
    rw [failed_noteFailure, callsOf_concat, ← achieved.chunks,
      ← Nat.add_assoc]
    rfl
  days := by
    rw [failed_noteFailure, callsOf_concat, ← Nat.add_assoc]
    exact Nat.add_le_add_right achieved.days _
  once := achieved.once
  free := achieved.free

/-- A chunk is reported. -/
theorem Achieved.chunk
    {before central : CentralDisk β} {handled : List (PullTask β)}
    {result : PullResult}
    (achieved : Achieved codec before handled central result)
    {path : DataPath} {chunk : PulledChunk}
    (taken : Taken codec central path chunk)
    (staged : AckStaged codec central chunk)
    (fresh : chunk.wroteData = true →
      before.raw.get? (destination chunk.manifest) = none ∧
        destination chunk.manifest ∉ result.newPlaces) :
    Achieved codec before (handled ++ [.ingest path .readManifest]) central
      { result with chunks := result.chunks ++ [chunk] } where
  settled other isHandled := by
    rcases List.mem_append.mp isHandled with isEarlier | isLast
    · exact (achieved.settled other isEarlier).mono
        (List.subset_append_left _ _) (List.Subset.refl _)
    · cases List.mem_singleton.mp isLast
      exact Or.inr
        ⟨chunk, List.mem_append_right _ List.mem_cons_self, taken⟩
  taken other isChunk := by
    rcases List.mem_append.mp isChunk with isEarlier | isLast
    · exact achieved.taken other isEarlier
    · cases List.mem_singleton.mp isLast
      exact ⟨path, taken⟩
  staged other isChunk := by
    rcases List.mem_append.mp isChunk with isEarlier | isLast
    · exact achieved.staged other isEarlier
    · cases List.mem_singleton.mp isLast
      exact staged
  chunks := by
    have counted := callsOf_concat .chunk handled
      (.ingest path (.readManifest : IngestStage β))
    rw [taskStart] at counted
    rw [counted, ← achieved.chunks, List.length_append]
    simp only [taskKind, PullResult.failed, List.length_singleton, if_true]
    omega
  days := by
    have counted := callsOf_concat .day handled
      (.ingest path (.readManifest : IngestStage β))
    rw [taskStart] at counted
    rw [counted]
    exact Nat.le_add_right_of_le achieved.days
  once := by
    simp only [PullResult.newPlaces, List.filter_append, List.map_append]
    rw [List.nodup_append]
    refine ⟨achieved.once, ?_, ?_⟩
    · exact ((List.nodup_singleton chunk).sublist
        List.filter_sublist).map_on (by simp_all)
    · intro place isEarlier other isLast
      cases wrote : chunk.wroteData with
      | false => simp [wrote] at isLast
      | true =>
          simp only [List.filter_cons, wrote, if_true, List.filter_nil,
            List.map_cons, List.map_nil, List.mem_singleton] at isLast
          rintro rfl
          exact (fresh wrote).2 (isLast ▸ isEarlier)
  free := by
    intro place isPlace
    simp only [PullResult.newPlaces, List.filter_append, List.map_append,
      List.mem_append] at isPlace
    rcases isPlace with isEarlier | isLast
    · exact achieved.free place isEarlier
    · cases wrote : chunk.wroteData with
      | false => simp [wrote] at isLast
      | true =>
          simp only [List.filter_cons, wrote, if_true, List.filter_nil,
            List.map_cons, List.map_nil, List.mem_singleton] at isLast
          rw [isLast]
          exact (fresh wrote).1

/-- The return of a day's publication, which has been done or not. -/
theorem Achieved.day
    {before central : CentralDisk β} {handled : List (PullTask β)}
    {result : PullResult}
    (achieved : Achieved codec before handled central result)
    {path : DataPath} (settled : DaySettled codec central path)
    {published : Nat} (most : published ≤ 1) :
    Achieved codec before (handled ++ [.publishDay path .readDay]) central
      { result with daysPublished := result.daysPublished + published } where
  settled other isHandled := by
    rcases List.mem_append.mp isHandled with isEarlier | isLast
    · exact (achieved.settled other isEarlier).mono (List.Subset.refl _)
        (List.Subset.refl _)
    · cases List.mem_singleton.mp isLast
      exact Or.inr settled
  taken := achieved.taken
  staged := achieved.staged
  chunks := by
    have counted := callsOf_concat .chunk handled
      (.publishDay path (.readDay : DayStage β))
    rw [taskStart] at counted
    rw [counted]
    exact achieved.chunks
  days := by
    have counted := callsOf_concat .day handled
      (.publishDay path (.readDay : DayStage β))
    rw [taskStart] at counted
    have earlier := achieved.days
    rw [counted]
    simp only [taskKind, PullResult.failed, if_true] at earlier ⊢
    omega
  once := achieved.once
  free := achieved.free

end Achieving

/-! ## The invariant of a run -/

section Invariant

variable {β : Type} (codec : FileCodec β)

/-- The place of a chunk was free, and no new chunk has it. -/
def Fresh (before : CentralDisk β) (result : PullResult)
    (manifest : ChunkManifestV1) : Prop :=
  before.raw.get? (destination manifest) = none ∧
    destination manifest ∉ result.newPlaces

/-- `wrote_data` is only set for a place which was free. -/
def WroteSound (before : CentralDisk β) (result : PullResult)
    (wroteData : Bool) : PullTask β → Prop
  | .ingest _ (.checkManifest manifest _)
  | .ingest _ (.writeManifest manifest _)
  | .ingest _ (.replaceManifest manifest _)
  | .ingest _ (.writeAck manifest) =>
      wroteData = true → Fresh before result manifest
  | _ => True

/-- The state of a run which has made these calls. -/
structure RunSound (before : CentralDisk β) (files : List DataPath)
    (handled : List (PullTask β)) (state : RunState β) : Prop where
  store : StoreSound codec state.puller
  mirror : state.puller.central.mirror = before.mirror
  kept : RawKept before.raw state.puller.central.raw
  order : pullTasks files = handled ++
    ((state.puller.task.map taskStart).toList ++ state.puller.pending)
  seen : state.result.manifestsSeen = (files.filter namesChunk).length ∧
    state.result.dayManifestsSeen = (files.filter namesDay).length
  achieved : Achieved codec before handled state.puller.central state.result
  reads : ∀ task ∈ state.puller.task,
    TaskReads codec state.puller.central task
  wrote : ∀ task ∈ state.puller.task,
    WroteSound before state.result state.wroteData task

variable {codec}

theorem taskStart_of_mem
    {files : List DataPath} {task : PullTask β}
    (isTask : task ∈ pullTasks files) : taskStart task = task := by
  rcases List.mem_append.mp isTask with isChunk | isDay
  · rcases List.mem_map.mp isChunk with ⟨path, _, rfl⟩
    rfl
  · rcases List.mem_map.mp isDay with ⟨path, _, rfl⟩
    rfl

/-- No chunk is ingested once a day has been published. -/
theorem pullTasks_pairwise (files : List DataPath) :
    (pullTasks files : List (PullTask β)).Pairwise fun earlier later =>
      taskKind earlier = .day → taskKind later = .day := by
  rw [pullTasks, List.pairwise_append]
  refine ⟨?_, ?_, ?_⟩
  · rw [List.pairwise_map]
    exact List.pairwise_of_forall fun _ _ isDay => nomatch isDay
  · rw [List.pairwise_map]
    exact List.pairwise_of_forall fun _ _ _ => rfl
  · intro earlier isChunk later _ isDay
    rcases List.mem_map.mp isChunk with ⟨path, _, rfl⟩
    cases isDay

theorem RunSound.day_of_handled_day
    {before : CentralDisk β} {files : List DataPath}
    {handled : List (PullTask β)} {state : RunState β}
    (sound : RunSound codec before files handled state)
    {task earlier : PullTask β} (isTask : state.puller.task = some task)
    (isHandled : earlier ∈ handled) (isDay : taskKind earlier = .day) :
    taskKind task = .day := by
  have pairwise := @pullTasks_pairwise β files
  rw [sound.order, List.pairwise_append] at pairwise
  rw [← taskKind_taskStart]
  apply pairwise.2.2 earlier isHandled (taskStart task) _ isDay
  rw [isTask]
  exact List.mem_append_left _ List.mem_cons_self

theorem callsOf_pullTasks (files : List DataPath) :
    callsOf .chunk (pullTasks files : List (PullTask β)) =
        (files.filter namesChunk).length ∧
      callsOf .day (pullTasks files : List (PullTask β)) =
        (files.filter namesDay).length := by
  constructor <;>
    simp [callsOf, pullTasks, List.countP_append, List.countP_map,
      Function.comp_def, taskKind]

theorem runSound_start
    {before : PullerState β} (store : StoreSound codec before)
    (idle : before.task = none) (files : List DataPath) :
    RunSound codec before.central files [] (startRun before files) where
  store := store.stored (Stores.refl ..) store.task
    fun _ isTask _ => taskStores_start isTask
  mirror := rfl
  kept := rawKept_refl _
  order := by simp [startRun, idle]
  seen := ⟨rfl, rfl⟩
  achieved := by
    constructor <;>
      simp [startRun, PullResult.failed, callsOf, PullResult.newPlaces]
  reads := by
    intro task isTask
    rw [startRun, idle] at isTask
    cases isTask
  wrote := by
    intro task isTask
    rw [startRun, idle] at isTask
    cases isTask

/-! ## Steps of a run -/

theorem pullerLabels_name (label : RunLabel β) :
    ∀ taken ∈ pullerLabels label, MirrorsName codec Storable taken := by
  cases label <;> simp [pullerLabels, MirrorsName]

theorem wroteSound_start
    (before : CentralDisk β) (result : PullResult) (wroteData : Bool)
    {files : List DataPath} {task : PullTask β}
    (isTask : task ∈ pullTasks files) :
    WroteSound before result wroteData task := by
  rw [← taskStart_of_mem isTask]
  cases task <;> trivial

theorem taskReads_start
    (central : CentralDisk β) {files : List DataPath} {task : PullTask β}
    (isTask : task ∈ pullTasks files) : TaskReads codec central task := by
  rw [← taskStart_of_mem isTask]
  cases task <;> trivial

/-- A place which is free now was free, and no new chunk has it. -/
theorem Achieved.fresh
    {before central : CentralDisk β} {handled : List (PullTask β)}
    {result : PullResult}
    (achieved : Achieved codec before handled central result)
    (kept : RawKept before.raw central.raw) {manifest : ChunkManifestV1}
    (visible : ¬ Hidden manifest.dataPath)
    (free : central.raw.get? (destination manifest) = none) :
    Fresh before result manifest := by
  constructor
  · cases found : before.raw.get? (destination manifest) with
    | none => rfl
    | some content =>
        rw [kept _ content visible found] at free
        cases free
  · intro isNew
    rcases List.mem_map.mp isNew with ⟨chunk, isChunk, same⟩
    rcases achieved.taken chunk (List.mem_of_mem_filter isChunk) with
      ⟨_, _, _, _, here⟩
    rcases here.stands with ⟨content, found⟩
    rw [same, free] at found
    cases found

variable {before : CentralDisk β} {files : List DataPath}
  {handled : List (PullTask β)} {state after : RunState β}

/-- The disk under a call which goes on or has just ended. -/
theorem RunSound.achievedAfter
    (sound : RunSound codec before files handled state)
    {task : PullTask β} (isTask : state.puller.task = some task)
    {central : CentralDisk β} {next : Option (PullTask β)}
    (effect : TaskStep codec state.puller.central central task next) :
    Achieved codec before handled central state.result :=
  sound.achieved.keep sound.store.mirror effect.stored.mirror
    effect.stored.kept
    (fun _ isHandled isDay =>
      effect.data (sound.day_of_handled_day isTask isHandled isDay))
    effect.staged

/-- The current call ends, in whatever way. -/
theorem RunSound.endTask
    (sound : RunSound codec before files handled state)
    {task : PullTask β} (isTask : state.puller.task = some task)
    {central : CentralDisk β} {result : PullResult}
    (store : StoreSound codec
      { state.puller with central, task := none })
    (mirror : central.mirror = state.puller.central.mirror)
    (kept : RawKept state.puller.central.raw central.raw)
    (seen : result.manifestsSeen = state.result.manifestsSeen ∧
      result.dayManifestsSeen = state.result.dayManifestsSeen)
    (achieved : Achieved codec before (handled ++ [taskStart task]) central
      result) :
    RunSound codec before files (handled ++ [taskStart task])
      { state with
        puller := { state.puller with central, task := none }
        result } where
  store := store
  mirror := mirror.trans sound.mirror
  kept := sound.kept.trans kept
  order := by
    rw [sound.order, isTask]
    simp
  seen := ⟨seen.1.trans sound.seen.1, seen.2.trans sound.seen.2⟩
  achieved := achieved
  reads := by
    rintro task ⟨⟩
  wrote := by
    rintro task ⟨⟩

theorem noteReturn_seen (result : PullResult) (nowNs : Nat)
    (wroteData : Bool) (task : PullTask β) :
    (noteReturn result nowNs wroteData task).manifestsSeen =
        result.manifestsSeen ∧
      (noteReturn result nowNs wroteData task).dayManifestsSeen =
        result.dayManifestsSeen := by
  unfold noteReturn
  split <;> exact ⟨rfl, rfl⟩

variable [DecidableEq β]

theorem WroteSound.step
    {before central after : CentralDisk β} {handled : List (PullTask β)}
    {result : PullResult} {wroteData : Bool} {nowNs : Nat}
    {task later : PullTask β}
    (wrote : WroteSound before result wroteData task)
    (achieved : Achieved codec before handled central result)
    (kept : RawKept before.raw central.raw)
    (stores : TaskStores codec central.raw task)
    (completed :
      pullStep codec central nowNs task = .ok (after, some later)) :
    WroteSound before result (wroteAfter wroteData task) later := by
  cases task with
  | publishDay path stage =>
      simp only [pullStep] at completed
      split at completed
      next => cases completed
      next disk next stepped =>
        cases next with
        | none => cases completed
        | some stage =>
            cases completed
            trivial
  | ingest path stage =>
      simp only [pullStep] at completed
      split at completed
      next => cases completed
      next disk next stepped =>
        cases ingestStep_effect stepped with
        | readManifest | destinationFree | openPartial | download
        | verifyPartial =>
            cases completed
            trivial
        | destinationVerified =>
            cases completed
            simp [WroteSound, wroteAfter]
        | replacePartial =>
            cases completed
            exact fun _ =>
              achieved.fresh kept stores.1.2 stores.2.2.1
        | manifestFree | manifestSame | writeManifest | replaceManifest =>
            cases completed
            exact wrote
        | writeAck => cases completed

/-- The return of a call. -/
theorem Achieved.return
    {before central after : CentralDisk β} {handled : List (PullTask β)}
    {result : PullResult} {wroteData : Bool} {nowNs : Nat}
    {task : PullTask β}
    (achieved : Achieved codec before handled after result)
    (wrote : WroteSound before result wroteData task)
    (stores : TaskStores codec central.raw task)
    (reads : TaskReads codec central task)
    (completed : pullStep codec central nowNs task = .ok (after, none)) :
    Achieved codec before (handled ++ [taskStart task]) after
      (noteReturn result nowNs wroteData task) := by
  cases task with
  | ingest path stage =>
      simp only [pullStep] at completed
      split at completed
      next => cases completed
      next disk next stepped =>
        cases ingestStep_effect stepped with
        | writeAck =>
            cases completed
            rcases reads with ⟨bytes, found, beside⟩
            rcases stores with ⟨storable, other, parsed, here, isOther⟩
            rw [beside] at isOther
            cases isOther
            exact achieved.chunk
              ⟨bytes, found, storable, parsed, rfl, rfl, here, beside⟩
              ⟨_, Dict.get?_set_self _ _ _, rfl, Or.inl rfl⟩ wrote
        | _ => cases completed
  | publishDay path stage =>
      simp only [pullStep] at completed
      split at completed
      next => cases completed
      next disk next stepped =>
        cases next with
        | some stage => cases completed
        | none =>
            cases completed
            have settled := (DayReads.step stores reads stepped).settled rfl
            cases stage with
            | readDay => exact achieved.day settled (Nat.zero_le 1)
            | writeDay => cases stepped
            | replaceDay => exact achieved.day settled le_rfl

theorem RunSound.work
    (sound : RunSound codec before files handled state)
    (worked : runWork codec state = some after)
    (store : StoreSound codec after.puller) :
    ∃ later, RunSound codec before files later after := by
  unfold runWork at worked
  split at worked
  next => cases worked
  next task rest noTask isPending =>
    cases worked
    have order := sound.order
    rw [noTask, isPending] at order
    have isCall : task ∈ pullTasks files := by
      rw [order]
      simp
    refine ⟨handled, { sound with
      store := store
      order := ?_
      reads := ?_
      wrote := ?_ }⟩
    · rw [order]
      simp [taskStart_of_mem isCall]
    · rintro call ⟨⟩
      exact taskReads_start _ isCall
    · rintro call ⟨⟩
      exact wroteSound_start _ _ _ isCall
  next task isTask =>
    split at worked
    next problem failed =>
      cases worked
      exact ⟨_, sound.endTask isTask store rfl (rawKept_refl _) ⟨rfl, rfl⟩
        (sound.achieved.fail task _)⟩
    next central next completed =>
      cases worked
      have effect := pullStep_task sound.store.mirror
        (sound.store.task task isTask) (sound.reads task isTask) completed
      refine ⟨handled,
        { store := store
          mirror := effect.stored.mirror.trans sound.mirror
          kept := sound.kept.trans effect.stored.kept
          order := ?_
          seen := sound.seen
          achieved := sound.achievedAfter isTask effect
          reads := effect.reads
          wrote := ?_ }⟩
      · rw [sound.order, isTask]
        simp [effect.start next rfl]
      · rintro later ⟨⟩
        exact (sound.wrote task isTask).step sound.achieved sound.kept
          (sound.store.task task isTask) completed
    next central completed =>
      cases worked
      have effect := pullStep_task sound.store.mirror
        (sound.store.task task isTask) (sound.reads task isTask) completed
      exact ⟨_, sound.endTask isTask store effect.stored.mirror
        effect.stored.kept (noteReturn_seen _ _ _ _)
        ((sound.achievedAfter isTask effect).return
          (sound.wrote task isTask) (sound.store.task task isTask)
          (sound.reads task isTask) completed)⟩

theorem RunSound.step
    (sound : RunSound codec before files handled state)
    {label : RunLabel β} (stepped : runStep codec state label = some after) :
    ∃ later, RunSound codec before files later after := by
  have store := (sound.store.run (pullerLabels_name label)
    (runStep_refines stepped)).1
  cases label with
  | tick nowNs =>
      cases stepped
      exact ⟨handled, { sound with store := store }⟩
  | work => exact sound.work stepped store
  | fail written =>
      rcases Option.map_eq_some_iff.mp stepped with ⟨task, isTask, rfl⟩
      rcases interrupted_keeps state.puller written with
        ⟨mirror, staged, data⟩
      have stored : Stores codec state.puller.central _ :=
        stores_interrupted state.puller written
      exact ⟨_, sound.endTask isTask store mirror stored.kept ⟨rfl, rfl⟩
        ((sound.achieved.keep sound.store.mirror mirror stored.kept
          (fun _ _ _ => data) (stagedFrom_of_eq staged)).fail task _)⟩
  | failLate =>
      simp only [runStep] at stepped
      split at stepped
      next => cases stepped
      next task isTask =>
        split at stepped
        next => cases stepped
        next central next completed =>
          cases stepped
          have effect := pullStep_task sound.store.mirror
            (sound.store.task task isTask) (sound.reads task isTask)
            completed
          exact ⟨_, sound.endTask isTask store effect.stored.mirror
            effect.stored.kept ⟨rfl, rfl⟩
            ((sound.achievedAfter isTask effect).fail task _)⟩

end Invariant

/-! ## The result -/

/--
A run which has come to its end, whatever has failed on the way: its report
accounts for every file it has listed, and what it does not report as failed
stands at the centre.
-/
theorem pull_run_settles
    {β : Type} [DecidableEq β] (codec : FileCodec β)
    {history : List (PullerLabel β)} {before : PullerState β}
    {files : List DataPath} {labels : List (RunLabel β)} {final : RunState β}
    (names : ∀ label ∈ history, MirrorsName codec Storable label)
    (reached : runFrom (pullerStep codec) {} history = some before)
    (idle : before.task = none)
    (ran : runFrom (runStep codec) (startRun before files) labels =
      some final)
    (ended : final.puller.task = none ∧ final.puller.pending = []) :
    (final.result.chunks.length + final.result.failed .chunk =
        final.result.manifestsSeen ∧
      final.result.daysPublished + final.result.failed .day ≤
        final.result.dayManifestsSeen) ∧
      (∀ path ∈ files, namesChunk path = true →
        final.result.Reports .chunk path ∨
          ∃ chunk ∈ final.result.chunks,
            Taken codec final.puller.central path chunk ∧
              AckStaged codec final.puller.central chunk) ∧
      (∀ path ∈ files, namesDay path = true →
        final.result.Reports .day path ∨
          DaySettled codec final.puller.central path) ∧
      (final.result.newChunks = final.result.newPlaces.length ∧
        final.result.newPlaces.Nodup ∧
        ∀ place ∈ final.result.newPlaces,
          before.central.raw.get? place = none) ∧
      final.puller.central.mirror = before.central.mirror ∧
      RawKept before.central.raw final.puller.central.raw := by
  have store := (storeSound_start.run names reached).1
  have preserved : ∀ state label after,
      (∃ handled, RunSound codec before.central files handled state) →
        True → runStep codec state label = some after →
          ∃ handled, RunSound codec before.central files handled after := by
    rintro state label after ⟨handled, sound⟩ _ stepped
    exact sound.step stepped
  rcases invariant_of_run preserved ⟨[], runSound_start store idle files⟩
    (stepsMeet_true _ _) ran with ⟨handled, sound⟩
  have all : pullTasks files = handled := by
    rw [sound.order, ended.1, ended.2]
    simp
  have achieved := sound.achieved
  rw [← all] at achieved
  rcases @callsOf_pullTasks β files with ⟨chunkCalls, dayCalls⟩
  refine ⟨⟨?_, ?_⟩, ?_, ?_, ⟨?_, achieved.once, achieved.free⟩,
    sound.mirror, sound.kept⟩
  · rw [achieved.chunks, chunkCalls, sound.seen.1]
  · rw [sound.seen.2, ← dayCalls]
    exact achieved.days
  · intro path isListed isChunk
    have isCall : .ingest path .readManifest ∈ @pullTasks β files :=
      List.mem_append_left _ (List.mem_map.mpr
        ⟨path, List.mem_filter.mpr ⟨isListed, isChunk⟩, rfl⟩)
    rcases achieved.settled _ isCall with reported | ⟨chunk, inResult, taken⟩
    · exact Or.inl reported
    · exact Or.inr
        ⟨chunk, inResult, taken, achieved.staged chunk inResult⟩
  · intro path isListed isDay
    have isCall : .publishDay path .readDay ∈ @pullTasks β files :=
      List.mem_append_right _ (List.mem_map.mpr
        ⟨path, List.mem_filter.mpr ⟨isListed, isDay⟩, rfl⟩)
    exact achieved.settled _ isCall
  · simp [PullResult.newChunks, PullResult.newPlaces,
      List.countP_eq_length_filter]

/-- The second chunk of the mirror has no data, and the day lists the first. -/
def halfMirror : List (PullerLabel SampleFile) :=
  [.mirror ((((Dict.empty.set firstPath.manifest
      (.manifest (sampleManifest "chunk-first" "abc" firstPath))).set
      firstPath (.text "abc")).set secondPath.manifest
      (.manifest (sampleManifest "chunk-second" "xyz" secondPath))).set
      sealedPath (.day ⟨"collector", 3, 345600000000000,
        [(sampleManifest "chunk-first" "abc" firstPath).asRef]⟩))]

theorem halfMirror_runs :
    (runFrom (pullerStep sampleCodec) {} halfMirror).isSome := by
  decide +kernel

def halfMirrored : PullerState SampleFile :=
  (runFrom (pullerStep sampleCodec) {} halfMirror).get halfMirror_runs

def halfFiles : List DataPath :=
  [firstPath.manifest, secondPath.manifest, sealedPath]

def halfLabels : List (RunLabel SampleFile) :=
  List.replicate 20 .work

theorem halfRun_runs :
    (runFrom (runStep sampleCodec) (startRun halfMirrored halfFiles)
      halfLabels).isSome := by
  decide +kernel

def halfRun : RunState SampleFile :=
  (runFrom (runStep sampleCodec) (startRun halfMirrored halfFiles)
    halfLabels).get halfRun_runs

/-- The first chunk is here and the day sealed; the second one is reported. -/
theorem pull_run_settles_half :
    halfRun.result.failures =
        [⟨.chunk, secondPath.manifest, .raised .missingFile⟩] ∧
      halfRun.result.chunks.length + 1 = halfRun.result.manifestsSeen ∧
      halfRun.result.newChunks = 1 ∧ halfRun.result.daysPublished = 1 ∧
      (∃ chunk ∈ halfRun.result.chunks,
        Taken sampleCodec halfRun.puller.central firstPath.manifest chunk ∧
          AckStaged sampleCodec halfRun.puller.central chunk) ∧
      DaySettled sampleCodec halfRun.puller.central sealedPath := by
  have settles := pull_run_settles sampleCodec (by decide +kernel)
    (Option.some_get halfMirror_runs).symm (by decide +kernel)
    (Option.some_get halfRun_runs).symm (by decide +kernel)
  have failures : halfRun.result.failures =
      [⟨.chunk, secondPath.manifest, .raised .missingFile⟩] := by
    decide +kernel
  have unreported (kind : FailureKind) (path : DataPath)
      (other : kind ≠ .chunk ∨ path ≠ secondPath.manifest) :
      ¬ halfRun.result.Reports kind path := by
    rintro ⟨failure, isFailure, rfl, rfl⟩
    rw [failures] at isFailure
    cases List.mem_singleton.mp isFailure
    simp at other
  refine ⟨failures, ?_, by decide +kernel, by decide +kernel, ?_, ?_⟩
  · have accounted : halfRun.result.chunks.length +
        halfRun.result.failed .chunk = halfRun.result.manifestsSeen :=
      settles.1.1
    rw [PullResult.failed, failures] at accounted
    exact accounted
  · rcases settles.2.1 firstPath.manifest (by decide +kernel)
        (by decide +kernel) with reported | taken
    · exact absurd reported (unreported _ _ (by decide +kernel))
    · exact taken
  · rcases settles.2.2.1 sealedPath (by decide +kernel) (by decide +kernel)
      with reported | settled
    · exact absurd reported (unreported _ _ (by decide +kernel))
    · exact settled

end ShadowDataPlane.Transfer
