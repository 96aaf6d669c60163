import ShadowDataPlane.Contracts.Gap
import ShadowDataPlane.Transfer.NoLoss

/-!
# Publishing a gap event again

`_write` publishes a gap event under a name which the event determines, so
that a retry after a disk error or a roll which is taken up after a crash
writes the same artifact again.  The manifest beside it carries more than the
event: the instant it is built at and the hashes in force at that instant.

The centre compares manifests byte by byte.  A retry is acknowledged again if
and only if all three agree with those of the first publication; otherwise the
centre reports a conflicting manifest (`republished_gap_acknowledged_iff`).
-/

namespace ShadowDataPlane.Transfer

open ShadowDataPlane.Foundation
open ShadowDataPlane.Contracts
open ShadowDataPlane.Central
open ShadowDataPlane.Edge

/-! ## The artifact of a gap event -/

/-- What `_write` adds to an event. -/
structure GapStamp where
  createdAt : Nat
  dataContractHash : String
  universeHash : String
deriving DecidableEq

def artifactId (event : GapEventV1) : String :=
  event.gapId ++ "-" ++ toString event.observedAtRealtimeNs ++ "-" ++
    event.state.value.toLower

def gapPath (event : GapEventV1) : DataPath :=
  relativePath event.eventDate .control (artifactId event ++ ".gap.json")

/-- The manifest of a gap event, without the hash and the size of its file. -/
def gapDraft (collectorId : String) (stamp : GapStamp) (event : GapEventV1) :
    ChunkManifestV1 where
  chunkId := artifactId event
  dataPath := gapPath event
  sha256 := ""
  sizeBytes := 0
  contentType := .gapJson
  collectorId := collectorId
  writerGroup := .control
  utcDate := event.eventDate
  eventCount := 1
  minAppReceiveRealtimeNs := event.effectiveNs
  maxAppReceiveRealtimeNs := event.effectiveNs
  dataContractHash := stamp.dataContractHash
  universeHash := stamp.universeHash
  createdAt := stamp.createdAt
  timeRange := le_refl _

section Writing

variable {β : Type} (codec : FileCodec β) (gapBytes : GapEventV1 → β)
  (collectorId : String)

def gapManifest (stamp : GapStamp) (event : GapEventV1) : ChunkManifestV1 :=
  manifestFor codec (gapDraft collectorId stamp event) (gapBytes event)

/-- `_write`. -/
def writeGap (disk : SpoolDisk β) (stamp : GapStamp) (event : GapEventV1) :
    SpoolDisk β :=
  let draft := gapDraft collectorId stamp event
  let (disk, _) := publishStep codec disk (gapBytes event) draft .writeData
  (publishStep codec disk (gapBytes event) draft .writeManifest).1

/-- The bytes of a manifest of the ready directory. -/
def readyManifestBytes (disk : SpoolDisk β) (path : DataPath) : Option β :=
  (disk.manifests.get? path).map codec.manifestBytes

variable {codec gapBytes collectorId}

theorem writeGap_eq
    (disk : SpoolDisk β) (stamp : GapStamp) (event : GapEventV1) :
    writeGap codec gapBytes collectorId disk stamp event =
      { disk with
        data := disk.data.set (gapPath event) (gapBytes event)
        manifests := disk.manifests.set (gapPath event).manifest
          (gapManifest codec gapBytes collectorId stamp event) } := by
  have written : (disk.data.set (gapPath event) (gapBytes event)).get?
      (gapDraft collectorId stamp event).dataPath = some (gapBytes event) :=
    Dict.get?_set_self _ _ _
  simp only [writeGap, publishStep, gapDraft] at written ⊢
  rw [written]
  rfl

theorem gapManifest_inj {first retry : GapStamp} {event : GapEventV1} :
    gapManifest codec gapBytes collectorId first event =
        gapManifest codec gapBytes collectorId retry event ↔
      first = retry := by
  constructor
  · intro same
    cases first
    cases retry
    simp only [gapManifest, manifestFor, gapDraft,
      ChunkManifestV1.mk.injEq] at same
    simp [same]
  · rintro rfl
    rfl

/-- Parsing makes the bytes of manifests as different as the manifests. -/
theorem manifestBytes_inj {left right : ChunkManifestV1} :
    codec.manifestBytes left = codec.manifestBytes right ↔ left = right := by
  constructor
  · intro same
    have parsed := congrArg codec.parseManifest same
    rw [codec.parseManifest_manifestBytes,
      codec.parseManifest_manifestBytes] at parsed
    exact Option.some.inj parsed
  · rintro rfl
    rfl

end Writing

theorem not_hidden_gapPath (event : GapEventV1) :
    ¬ Hidden (gapPath event) := by
  intro hidden
  rcases hidden.suffix with ⟨rest, isName⟩
  have last := congrArg List.getLast? isName
  simp [gapPath, relativePath] at last

/-! ## What the centre keeps -/

section Keeping

variable {β : Type}

/-- The place which a stage is going to fill is free. -/
def IngestFree (raw : RawFiles β) : IngestStage β → Prop
  | .openPartial manifest _ | .download manifest _
  | .verifyPartial manifest _ | .replacePartial manifest _ =>
      raw.get? (destination manifest) = none
  | .writeManifest manifest _ | .replaceManifest manifest _ =>
      raw.get? (manifestBeside (destination manifest)) = none
  | .readManifest | .checkDestination _ _ | .checkManifest _ _
  | .writeAck _ => True

def PullFree (raw : RawFiles β) : PullTask β → Prop
  | .ingest _ stage => IngestFree raw stage
  | .publishDay _ stage => DaySound raw stage

theorem RawKept.trans
    {first second third : RawFiles β} (earlier : RawKept first second)
    (later : RawKept second third) : RawKept first third :=
  fun place content visible found =>
    later place content visible (earlier place content visible found)

variable [DecidableEq β] {codec : FileCodec β}

theorem IngestFree.step
    {before after : CentralDisk β} {path : DataPath} {nowNs : Nat}
    {stage : IngestStage β} {next : Option (IngestStage β)}
    (free : IngestFree before.raw stage)
    (completed :
      ingestStep codec before path nowNs stage = .ok (after, next)) :
    RawKept before.raw after.raw ∧
      ∀ later ∈ next, IngestFree after.raw later := by
  cases ingestStep_effect completed with
  | readManifest =>
      refine ⟨rawKept_refl _, ?_⟩
      rintro later ⟨⟩
      trivial
  | destinationFree absent =>
      refine ⟨rawKept_refl _, ?_⟩
      rintro later ⟨⟩
      exact absent
  | destinationVerified =>
      refine ⟨rawKept_refl _, ?_⟩
      rintro later ⟨⟩
      trivial
  | openPartial =>
      refine ⟨rawKept_hidden _ _ _, ?_⟩
      rintro later ⟨⟩
      simp only [IngestFree]
      rw [Dict.get?_set, if_neg (hiddenBeside_ne _).symm]
      exact free
  | download =>
      refine ⟨rawKept_hidden _ _ _, ?_⟩
      rintro later ⟨⟩
      simp only [IngestFree]
      rw [Dict.get?_set, if_neg (hiddenBeside_ne _).symm]
      exact free
  | verifyPartial =>
      refine ⟨rawKept_refl _, ?_⟩
      rintro later ⟨⟩
      exact free
  | replacePartial renamed =>
      refine ⟨(renameHidden_ok renamed free).1, ?_⟩
      rintro later ⟨⟩
      trivial
  | manifestFree absent =>
      refine ⟨rawKept_refl _, ?_⟩
      rintro later ⟨⟩
      exact absent
  | manifestSame =>
      refine ⟨rawKept_refl _, ?_⟩
      rintro later ⟨⟩
      trivial
  | writeManifest =>
      refine ⟨rawKept_hidden _ _ _, ?_⟩
      rintro later ⟨⟩
      simp only [IngestFree]
      rw [Dict.get?_set, if_neg (hiddenBeside_ne _).symm]
      exact free
  | replaceManifest renamed =>
      refine ⟨(renameHidden_ok renamed free).1, ?_⟩
      rintro later ⟨⟩
      trivial
  | writeAck => exact ⟨rawKept_refl _, by rintro later ⟨⟩⟩

theorem PullFree.step
    {before after : CentralDisk β} {nowNs : Nat} {task : PullTask β}
    {next : Option (PullTask β)} (free : PullFree before.raw task)
    (completed : pullStep codec before nowNs task = .ok (after, next)) :
    RawKept before.raw after.raw ∧
      ∀ later ∈ next, PullFree after.raw later := by
  cases task with
  | ingest path stage =>
      simp only [pullStep] at completed
      split at completed
      next => simp at completed
      next disk stages stepped =>
        cases completed
        rcases IngestFree.step free stepped with ⟨kept, isFree⟩
        refine ⟨kept, ?_⟩
        intro later isNext
        rcases Option.map_eq_some_iff.mp isNext with ⟨stage, isStage, rfl⟩
        exact isFree stage isStage
  | publishDay path stage =>
      simp only [pullStep] at completed
      split at completed
      next => simp at completed
      next disk stages stepped =>
        cases completed
        rcases publishDayStep_sound free stepped with ⟨pulled, isFree⟩
        refine ⟨pulled.kept, ?_⟩
        intro later isNext
        rcases Option.map_eq_some_iff.mp isNext with ⟨stage, isStage, rfl⟩
        exact isFree stage isStage

/-- No step of a run changes a file under its final name. -/
theorem transferStep_kept
    {before after : TransferState β} {label : TransferLabel β}
    (free : ∀ task ∈ before.pull, PullFree before.central.raw task)
    (stepped : transferStep codec before label = some after) :
    RawKept before.central.raw after.central.raw ∧
      ∀ task ∈ after.pull, PullFree after.central.raw task := by
  cases label with
  | tick nowNs =>
      simp only [transferStep, Option.ite_none_right_eq_some] at stepped
      rcases stepped with ⟨_, ⟨⟩⟩
      exact ⟨rawKept_refl _, free⟩
  | publish content draft =>
      simp only [transferStep, Option.ite_none_right_eq_some] at stepped
      rcases stepped with ⟨_, ⟨⟩⟩
      exact ⟨rawKept_refl _, free⟩
  | applyAcks =>
      simp only [transferStep, Option.ite_none_right_eq_some] at stepped
      rcases stepped with ⟨_, ⟨⟩⟩
      exact ⟨rawKept_refl _, free⟩
  | sealDay utcDate =>
      cases stepped
      exact ⟨rawKept_refl _, free⟩
  | edgeWork position =>
      rcases Option.map_eq_some_iff.mp stepped with ⟨task, _, rfl⟩
      exact ⟨rawKept_refl _, free⟩
  | edgeCrash =>
      cases stepped
      exact ⟨rawKept_refl _, free⟩
  | mirror files =>
      cases stepped
      exact ⟨rawKept_refl _, free⟩
  | ingest path =>
      simp only [transferStep, Option.ite_none_right_eq_some] at stepped
      rcases stepped with ⟨_, ⟨⟩⟩
      refine ⟨rawKept_refl _, ?_⟩
      rintro task ⟨⟩
      trivial
  | publishDay path =>
      simp only [transferStep, Option.ite_none_right_eq_some] at stepped
      rcases stepped with ⟨_, ⟨⟩⟩
      refine ⟨rawKept_refl _, ?_⟩
      rintro task ⟨⟩
      trivial
  | tear bytes =>
      rcases Option.map_eq_some_iff.mp stepped with ⟨place, isPlace, rfl⟩
      rcases downloading_eq_some isPlace with
        ⟨path, manifest, read, running, rfl⟩
      refine ⟨rawKept_hidden _ _ _, ?_⟩
      rintro task isTask
      have isFree := free _ running
      rw [running] at isTask
      cases isTask
      simp only [PullFree, IngestFree] at isFree ⊢
      rw [Dict.get?_set, if_neg (hiddenBeside_ne _).symm]
      exact isFree
  | pullWork =>
      rcases Option.map_eq_some_iff.mp stepped with ⟨task, running, rfl⟩
      unfold pullWork
      split
      next => exact ⟨rawKept_refl _, by rintro task ⟨⟩⟩
      next worked => exact PullFree.step (free task running) worked
  | centralCrash =>
      cases stepped
      exact ⟨rawKept_refl _, by rintro task ⟨⟩⟩
  | pushAcks =>
      cases stepped
      exact ⟨rawKept_refl _, free⟩
  | unstage chunkId =>
      simp only [transferStep] at stepped
      split at stepped
      next => cases stepped
      next =>
        split at stepped
        next =>
          cases stepped
          exact ⟨rawKept_refl _, free⟩
        next => cases stepped
  | deliver ack =>
      simp only [transferStep, Option.ite_none_right_eq_some] at stepped
      rcases stepped with ⟨_, ⟨⟩⟩
      exact ⟨rawKept_refl _, free⟩

/-- Nothing of these files has been changed under its final name. -/
def KeptSince (raw : RawFiles β) (state : TransferState β) : Prop :=
  RawKept raw state.central.raw ∧
    ∀ task ∈ state.pull, PullFree state.central.raw task

theorem run_kept
    {start final : TransferState β} {labels : List (TransferLabel β)}
    (idle : start.pull = none)
    (reached : runFrom (transferStep codec) start labels = some final) :
    RawKept start.central.raw final.central.raw := by
  have initially : KeptSince start.central.raw start := by
    refine ⟨rawKept_refl _, ?_⟩
    rw [idle]
    rintro task ⟨⟩
  have preserved : ∀ before label after,
      KeptSince start.central.raw before → True →
        transferStep codec before label = some after →
          KeptSince start.central.raw after := by
    intro before label after holds _ stepped
    rcases transferStep_kept holds.2 stepped with ⟨kept, free⟩
    exact ⟨holds.1.trans kept, free⟩
  exact (invariant_of_run preserved initially (stepsMeet_true _ _) reached).1

end Keeping

/-! ## What an ingest takes over -/

section Taking

variable {β : Type} (codec : FileCodec β)

/-- The data of a manifest stands at its place and is what it names. -/
def DataTaken (raw : RawFiles β) (manifest : ChunkManifestV1) : Prop :=
  ∃ content, raw.get? (destination manifest) = some content ∧
    verifyLocal codec content manifest.asRef = .ok ()

/-- Both files of a chunk stand at the centre. -/
def ChunkTaken (raw : RawFiles β) (manifest : ChunkManifestV1) : Prop :=
  DataTaken codec raw manifest ∧
    raw.get? (manifestBeside (destination manifest)) =
      some (codec.manifestBytes manifest)

/-- What has been achieved for a manifest at a stage. -/
def IngestTakes (manifest : ChunkManifestV1) (raw : RawFiles β) :
    IngestStage β → Prop
  | .readManifest => True
  | .checkDestination current bytes | .openPartial current bytes
  | .download current bytes | .verifyPartial current bytes =>
      current = manifest ∧ bytes = codec.manifestBytes manifest
  | .replacePartial current bytes =>
      current = manifest ∧ bytes = codec.manifestBytes manifest ∧
        ∃ content,
          raw.get? (hiddenBeside (destination manifest)) = some content ∧
            verifyLocal codec content manifest.asRef = .ok ()
  | .checkManifest current bytes | .writeManifest current bytes =>
      current = manifest ∧ bytes = codec.manifestBytes manifest ∧
        DataTaken codec raw manifest
  | .replaceManifest current bytes =>
      current = manifest ∧ bytes = codec.manifestBytes manifest ∧
        DataTaken codec raw manifest ∧
          raw.get? (hiddenBeside (manifestBeside (destination manifest))) =
            some bytes
  | .writeAck current => current = manifest ∧ ChunkTaken codec raw manifest

variable {codec}

theorem DataTaken.mono
    {raw after : RawFiles β} {manifest : ChunkManifestV1}
    (taken : DataTaken codec raw manifest)
    (visible : ¬ Hidden manifest.dataPath) (kept : RawKept raw after) :
    DataTaken codec after manifest := by
  rcases taken with ⟨content, found, verified⟩
  exact ⟨content, kept _ content visible found, verified⟩

theorem ChunkTaken.mono
    {raw after : RawFiles β} {manifest : ChunkManifestV1}
    (taken : ChunkTaken codec raw manifest)
    (visible : ¬ Hidden manifest.dataPath) (kept : RawKept raw after) :
    ChunkTaken codec after manifest :=
  ⟨taken.1.mono visible kept,
    kept _ _ (not_hidden_manifest manifest.dataPath) taken.2⟩

end Taking

/-! ## One call of `_ingest_chunk` -/

section Ingesting

variable {β : Type} [DecidableEq β] (codec : FileCodec β)

/-- Take a bounded number of steps; there is no result without enough. -/
def ingestFrom (path : DataPath) (nowNs : Nat) :
    Nat → CentralDisk β → IngestStage β →
      Option (Except PullError (CentralDisk β))
  | 0, _, _ => none
  | steps + 1, disk, stage =>
      match ingestStep codec disk path nowNs stage with
      | .error problem => some (.error problem)
      | .ok (disk, none) => some (.ok disk)
      | .ok (disk, some stage) => ingestFrom path nowNs steps disk stage

/-- `_ingest_chunk`, which has ten stages. -/
def ingestChunk (disk : CentralDisk β) (path : DataPath) (nowNs : Nat) :
    Option (Except PullError (CentralDisk β)) :=
  ingestFrom codec path nowNs 10 disk .readManifest

/-- The acknowledgement is staged. -/
def acknowledge (disk : CentralDisk β) (manifest : ChunkManifestV1)
    (nowNs : Nat) : CentralDisk β :=
  { disk with
    staged := disk.staged.set manifest.chunkId
      { chunkId := manifest.chunkId
        sha256 := manifest.sha256
        durableAt := nowNs } }

variable {codec}

theorem IngestTakes.step
    {before after : CentralDisk β} {path : DataPath} {nowNs : Nat}
    {manifest : ChunkManifestV1} {stage : IngestStage β}
    {next : Option (IngestStage β)}
    (visible : ¬ Hidden manifest.dataPath)
    (mirrored : before.mirror.get? path = some (codec.manifestBytes manifest))
    (free : IngestFree before.raw stage)
    (takes : IngestTakes codec manifest before.raw stage)
    (completed :
      ingestStep codec before path nowNs stage = .ok (after, next)) :
    after.mirror = before.mirror ∧
      (∀ later ∈ next, IngestTakes codec manifest after.raw later) ∧
        (next = none → ChunkTaken codec after.raw manifest) := by
  have kept := (IngestFree.step free completed).1
  cases ingestStep_effect completed with
  | readManifest found parsed _ =>
      rw [mirrored] at found
      cases found
      rw [codec.parseManifest_manifestBytes] at parsed
      cases parsed
      refine ⟨rfl, ?_, by simp⟩
      rintro later ⟨⟩
      exact ⟨rfl, rfl⟩
  | destinationFree =>
      rcases takes with ⟨rfl, rfl⟩
      refine ⟨rfl, ?_, by simp⟩
      rintro later ⟨⟩
      exact ⟨rfl, rfl⟩
  | destinationVerified found verified =>
      rcases takes with ⟨rfl, rfl⟩
      refine ⟨rfl, ?_, by simp⟩
      rintro later ⟨⟩
      exact ⟨rfl, rfl, _, found, verified⟩
  | openPartial =>
      rcases takes with ⟨rfl, rfl⟩
      refine ⟨rfl, ?_, by simp⟩
      rintro later ⟨⟩
      exact ⟨rfl, rfl⟩
  | download =>
      rcases takes with ⟨rfl, rfl⟩
      refine ⟨rfl, ?_, by simp⟩
      rintro later ⟨⟩
      exact ⟨rfl, rfl⟩
  | verifyPartial hidden verified =>
      rcases takes with ⟨rfl, rfl⟩
      refine ⟨rfl, ?_, by simp⟩
      rintro later ⟨⟩
      exact ⟨rfl, rfl, _, hidden, verified⟩
  | replacePartial renamed =>
      rcases takes with ⟨rfl, rfl, content, hidden, verified⟩
      rcases (renameHidden_ok renamed free).2 with ⟨moved, isMoved, placed⟩
      rw [hidden] at isMoved
      cases isMoved
      refine ⟨rfl, ?_, by simp⟩
      rintro later ⟨⟩
      exact ⟨rfl, rfl, content, placed, verified⟩
  | manifestFree =>
      rcases takes with ⟨rfl, rfl, taken⟩
      refine ⟨rfl, ?_, by simp⟩
      rintro later ⟨⟩
      exact ⟨rfl, rfl, taken⟩
  | manifestSame found =>
      rcases takes with ⟨rfl, rfl, taken⟩
      refine ⟨rfl, ?_, by simp⟩
      rintro later ⟨⟩
      exact ⟨rfl, taken, found⟩
  | writeManifest =>
      rcases takes with ⟨rfl, rfl, taken⟩
      refine ⟨rfl, ?_, by simp⟩
      rintro later ⟨⟩
      exact ⟨rfl, rfl, taken.mono visible kept, Dict.get?_set_self _ _ _⟩
  | replaceManifest renamed =>
      rcases takes with ⟨rfl, rfl, taken, hidden⟩
      rcases (renameHidden_ok renamed free).2 with ⟨moved, isMoved, placed⟩
      rw [hidden] at isMoved
      cases isMoved
      refine ⟨rfl, ?_, by simp⟩
      rintro later ⟨⟩
      exact ⟨rfl, taken.mono visible kept, placed⟩
  | writeAck =>
      rcases takes with ⟨rfl, taken⟩
      exact ⟨rfl, by simp, fun _ => taken⟩

/-- An ingest which ends well has taken both files of the chunk. -/
theorem chunkTaken_of_ingestFrom
    {path : DataPath} {nowNs : Nat} {manifest : ChunkManifestV1}
    (visible : ¬ Hidden manifest.dataPath)
    {steps : Nat} {before after : CentralDisk β} {stage : IngestStage β}
    (mirrored : before.mirror.get? path = some (codec.manifestBytes manifest))
    (free : IngestFree before.raw stage)
    (takes : IngestTakes codec manifest before.raw stage)
    (returned :
      ingestFrom codec path nowNs steps before stage = some (.ok after)) :
    ChunkTaken codec after.raw manifest := by
  induction steps generalizing before stage with
  | zero => cases returned
  | succ steps induction =>
      simp only [ingestFrom] at returned
      split at returned
      next => cases returned
      next disk completed =>
        cases returned
        exact (takes.step visible mirrored free completed).2.2 rfl
      next disk later completed =>
        rcases takes.step visible mirrored free completed with
          ⟨sameMirror, isTaking, _⟩
        apply induction _ _ (isTaking later rfl) returned
        · rw [sameMirror]
          exact mirrored
        · exact (free.step completed).2 later rfl

theorem chunkTaken_of_ingestChunk
    {path : DataPath} {nowNs : Nat} {manifest : ChunkManifestV1}
    {before after : CentralDisk β} (visible : ¬ Hidden manifest.dataPath)
    (mirrored : before.mirror.get? path = some (codec.manifestBytes manifest))
    (returned : ingestChunk codec before path nowNs = some (.ok after)) :
    ChunkTaken codec after.raw manifest := by
  apply chunkTaken_of_ingestFrom visible mirrored _ _ returned
  · trivial
  · trivial

/-- What becomes of a chunk whose data is there already. -/
theorem ingestChunk_of_taken
    {disk : CentralDisk β} {path : DataPath} {manifest : ChunkManifestV1}
    (mirrored : disk.mirror.get? path = some (codec.manifestBytes manifest))
    (safe : safeCollectorId manifest.collectorId = true)
    (taken : DataTaken codec disk.raw manifest) {present : β}
    (found : disk.raw.get? (manifestBeside (destination manifest)) =
      some present) (nowNs : Nat) :
    ingestChunk codec disk path nowNs =
      some
        (if present = codec.manifestBytes manifest then
          .ok (acknowledge disk manifest nowNs)
        else .error .conflictingManifest) := by
  rcases taken with ⟨content, stands, verified⟩
  have checks : ingestFrom codec path nowNs 8 disk
      (.checkManifest manifest (codec.manifestBytes manifest)) =
        some
          (if present = codec.manifestBytes manifest then
            .ok (acknowledge disk manifest nowNs)
          else .error .conflictingManifest) := by
    by_cases same : present = codec.manifestBytes manifest
    · simp only [ingestFrom, ingestStep, found, if_pos same]
      rfl
    · simp only [ingestFrom, ingestStep, found, if_neg same]
  rw [← checks]
  simp only [ingestChunk, ingestFrom, ingestStep, mirrored,
    codec.parseManifest_manifestBytes, safe, stands, verified, if_true]

end Ingesting

/-! ## The result -/

/--
A retry writes the same artifact, and the same manifest if and only if it is
stamped as the first publication was.  If the centre has acknowledged the first
publication, then the retry is acknowledged again if and only if it is stamped
so, and reported as a conflicting manifest otherwise.
-/
theorem republished_gap_acknowledged_iff
    {β : Type} [DecidableEq β] (codec : FileCodec β)
    (gapBytes : GapEventV1 → β) (collectorId : String) (event : GapEventV1)
    (first retry : GapStamp) (edge later : SpoolDisk β) :
    (writeGap codec gapBytes collectorId later retry event).data.get?
        (gapPath event) =
      (writeGap codec gapBytes collectorId edge first event).data.get?
        (gapPath event) ∧
      (readyManifestBytes codec
          (writeGap codec gapBytes collectorId later retry event)
          (gapPath event).manifest =
        readyManifestBytes codec
          (writeGap codec gapBytes collectorId edge first event)
          (gapPath event).manifest ↔ retry = first) ∧
      ∀ (pulled : CentralDisk β) (start final : TransferState β)
        (labels : List (TransferLabel β)) (pulledNs nowNs : Nat),
        safeCollectorId collectorId = true →
        pulled.mirror.get? (gapPath event).manifest =
          readyManifestBytes codec
            (writeGap codec gapBytes collectorId edge first event)
            (gapPath event).manifest →
        ingestChunk codec pulled (gapPath event).manifest pulledNs =
          some (.ok start.central) →
        start.pull = none →
        runFrom (transferStep codec) start labels = some final →
        final.central.mirror.get? (gapPath event).manifest =
          readyManifestBytes codec
            (writeGap codec gapBytes collectorId later retry event)
            (gapPath event).manifest →
        (ingestChunk codec final.central (gapPath event).manifest nowNs =
          some (.ok (acknowledge final.central
            (gapManifest codec gapBytes collectorId retry event) nowNs)) ↔
              retry = first) ∧
        (ingestChunk codec final.central (gapPath event).manifest nowNs =
          some (.error .conflictingManifest) ↔ retry ≠ first) := by
  have readyBytes (disk : SpoolDisk β) (stamp : GapStamp) :
      readyManifestBytes codec
          (writeGap codec gapBytes collectorId disk stamp event)
          (gapPath event).manifest =
        some (codec.manifestBytes
          (gapManifest codec gapBytes collectorId stamp event)) := by
    rw [readyManifestBytes, writeGap_eq, Dict.get?_set_self, Option.map_some]
  have artifact (disk : SpoolDisk β) (stamp : GapStamp) :
      (writeGap codec gapBytes collectorId disk stamp event).data.get?
        (gapPath event) = some (gapBytes event) := by
    rw [writeGap_eq, Dict.get?_set_self]
  have sameBytes : codec.manifestBytes
        (gapManifest codec gapBytes collectorId first event) =
      codec.manifestBytes
        (gapManifest codec gapBytes collectorId retry event) ↔
      retry = first := by
    rw [manifestBytes_inj, gapManifest_inj]
    exact eq_comm
  refine ⟨?_, ?_, ?_⟩
  · rw [artifact, artifact]
  · rw [readyBytes, readyBytes, Option.some.injEq, ← sameBytes]
    exact eq_comm
  · intro pulled start final labels pulledNs nowNs safe mirrored acknowledged
      idle reached mirroredAgain
    rw [readyBytes] at mirrored mirroredAgain
    have visible : ¬ Hidden (gapManifest codec gapBytes collectorId first
        event).dataPath := not_hidden_gapPath event
    have taken : ChunkTaken codec final.central.raw
        (gapManifest codec gapBytes collectorId first event) :=
      (chunkTaken_of_ingestChunk visible mirrored acknowledged).mono visible
        (run_kept idle reached)
    have ingested := ingestChunk_of_taken mirroredAgain safe taken.1 taken.2
      nowNs
    constructor
    · rw [ingested, ← sameBytes]
      split <;> simp_all
    · rw [ingested, ne_eq, ← sameBytes]
      split <;> simp_all

/-! ## Runs -/

def sampleGap : GapEventV1 where
  gapId := "gap-0001"
  state := .opened
  reason := .connectionLost
  observedAtRealtimeNs := midnightNs 3
  closedUnaffected := GapEventV1.unaffected .opened

def sampleGapBytes (event : GapEventV1) : SampleFile :=
  .text event.gapId

def sampleStamp (createdAt : Nat) : GapStamp where
  createdAt := createdAt
  dataContractHash := "contract"
  universeHash := "universe"

/-- The ready directory after the gap event has been written at an instant. -/
def writtenAt (createdAt : Nat) : SpoolDisk SampleFile :=
  writeGap sampleCodec sampleGapBytes "collector" {} (sampleStamp createdAt)
    sampleGap

/-- A mirror of the two files of the gap event. -/
def mirrorOfGap (createdAt : Nat) : Dict DataPath SampleFile :=
  (Dict.empty.set (gapPath sampleGap).manifest
    (.manifest (gapManifest sampleCodec sampleGapBytes "collector"
      (sampleStamp createdAt) sampleGap))).set
    (gapPath sampleGap) (sampleGapBytes sampleGap)

/-- The centre after it has pulled the first publication. -/
def firstTaken : CentralDisk SampleFile :=
  match ingestChunk sampleCodec { mirror := mirrorOfGap 0 }
      (gapPath sampleGap).manifest 0 with
  | some (.ok central) => central
  | _ => {}

theorem firstTaken_acknowledged :
    ingestChunk sampleCodec { mirror := mirrorOfGap 0 }
      (gapPath sampleGap).manifest 0 = some (.ok firstTaken) := by
  decide +kernel

/-- The centre once its mirror holds what a retry has written. -/
def retriedAt (createdAt : Nat) : CentralDisk SampleFile :=
  { firstTaken with mirror := mirrorOfGap createdAt }

theorem republished_gap_acknowledged_iff_instantly :
    ingestChunk sampleCodec (retriedAt 0) (gapPath sampleGap).manifest 1 =
      some (.ok (acknowledge (retriedAt 0)
        (gapManifest sampleCodec sampleGapBytes "collector" (sampleStamp 0)
          sampleGap) 1)) := by
  have safe : safeCollectorId "collector" = true := by
    decide +kernel
  have mirrored : (mirrorOfGap 0).get? (gapPath sampleGap).manifest =
      readyManifestBytes sampleCodec (writtenAt 0)
        (gapPath sampleGap).manifest := by
    decide +kernel
  have reached : runFrom (transferStep sampleCodec)
      ({ central := firstTaken } : TransferState SampleFile)
      [.mirror (mirrorOfGap 0)] = some { central := retriedAt 0 } := rfl
  have republished := republished_gap_acknowledged_iff sampleCodec
    sampleGapBytes "collector" sampleGap (sampleStamp 0) (sampleStamp 0) {} {}
  exact (republished.2.2 _ _ _ _ 0 1 safe mirrored firstTaken_acknowledged rfl
    reached mirrored).1.mpr rfl

/-- A microsecond later the manifest is another one, and is refused. -/
theorem republished_gap_conflicts :
    readyManifestBytes sampleCodec (writtenAt 1)
        (gapPath sampleGap).manifest ≠
      readyManifestBytes sampleCodec (writtenAt 0)
        (gapPath sampleGap).manifest ∧
      ingestChunk sampleCodec { mirror := mirrorOfGap 0 }
        (gapPath sampleGap).manifest 0 = some (.ok firstTaken) ∧
      ingestChunk sampleCodec (retriedAt 1) (gapPath sampleGap).manifest 1 =
        some (.error .conflictingManifest) := by
  decide +kernel

end ShadowDataPlane.Transfer
