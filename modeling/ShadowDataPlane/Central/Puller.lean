import ShadowDataPlane.Contracts.Chunk
import ShadowDataPlane.Foundation.Dict

/-!
# The central puller

`CentralPuller` goes through a mirror of the edge's ready directory.  A chunk
is copied under a hidden name, verified and renamed, its manifest is stored
beside it, and an acknowledgement is staged.  What the mirror holds is not
trusted: every file in it is just bytes.

`ingestStep` and `publishDayStep` take one durable step at a time.
-/

namespace ShadowDataPlane.Central

open ShadowDataPlane.Foundation
open ShadowDataPlane.Contracts

/-- What the centre has on disk. -/
structure CentralDisk (β : Type) where
  raw : Dict (String × DataPath) β := Dict.empty
  mirror : Dict DataPath β := Dict.empty
  staged : Dict String AckV1 := Dict.empty
deriving DecidableEq

/-- Why a chunk or a day could not be taken over. -/
inductive PullError where
  | missingFile
  | invalidManifest
  | unsafeCollectorId
  | sizeMismatch
  | hashMismatch
  | conflictingManifest
  | conflictingDay
deriving DecidableEq, Repr

/-- `COLLECTOR_ID_PATTERN`. -/
def safeCollectorId (collectorId : String) : Bool :=
  0 < collectorId.length && collectorId.length ≤ 100 &&
    collectorId.toList.all fun letter =>
      letter.isAlphanum || letter == '.' || letter == '_' || letter == '-'

section Steps

variable {β : Type} [DecidableEq β] (codec : FileCodec β)

/-- `_verify_local`. -/
def verifyLocal (content : β) (chunk : ChunkRefV1) :
    Except PullError Unit :=
  if codec.size content ≠ chunk.sizeBytes then .error .sizeMismatch
  else if codec.sha256 content ≠ chunk.sha256 then .error .hashMismatch
  else .ok ()

/-- Where `_ingest_chunk` stands; `bytes` are those of the manifest. -/
inductive IngestStage (β : Type) where
  | readManifest
  | checkDestination (manifest : ChunkManifestV1) (bytes : β)
  | openPartial (manifest : ChunkManifestV1) (bytes : β)
  | download (manifest : ChunkManifestV1) (bytes : β)
  | verifyPartial (manifest : ChunkManifestV1) (bytes : β)
  | replacePartial (manifest : ChunkManifestV1) (bytes : β)
  | checkManifest (manifest : ChunkManifestV1) (bytes : β)
  | writeManifest (manifest : ChunkManifestV1) (bytes : β)
  | replaceManifest (manifest : ChunkManifestV1) (bytes : β)
  | writeAck (manifest : ChunkManifestV1)
deriving DecidableEq

/-- The chunk's place under the collector's root. -/
def destination (manifest : ChunkManifestV1) : String × DataPath :=
  (manifest.collectorId, manifest.dataPath)

/-- The place of the manifest beside a file. -/
def manifestBeside (place : String × DataPath) : String × DataPath :=
  (place.1, place.2.manifest)

/-- The hidden name under which a file is written before it is renamed. -/
def hiddenBeside (place : String × DataPath) : String × DataPath :=
  (place.1, place.2.hidden)

/-- Rename the hidden file to its place. -/
def renameHidden (raw : Dict (String × DataPath) β)
    (place : String × DataPath) :
    Except PullError (Dict (String × DataPath) β) :=
  match raw.get? (hiddenBeside place) with
  | none => .error .missingFile
  | some content => .ok ((raw.erase (hiddenBeside place)).set place content)

def ingestStep (disk : CentralDisk β) (path : DataPath) (nowNs : Nat) :
    IngestStage β →
      Except PullError (CentralDisk β × Option (IngestStage β))
  | .readManifest =>
      match disk.mirror.get? path with
      | none => .error .missingFile
      | some bytes =>
          match codec.parseManifest bytes with
          | none => .error .invalidManifest
          | some manifest =>
              if safeCollectorId manifest.collectorId then
                .ok (disk, some (.checkDestination manifest bytes))
              else .error .unsafeCollectorId
  | .checkDestination manifest bytes =>
      match disk.raw.get? (destination manifest) with
      | none => .ok (disk, some (.openPartial manifest bytes))
      | some content =>
          match verifyLocal codec content manifest.asRef with
          | .error problem => .error problem
          | .ok _ => .ok (disk, some (.checkManifest manifest bytes))
  | .openPartial manifest bytes =>
      .ok
        ({ disk with
            raw := disk.raw.set (hiddenBeside (destination manifest))
              codec.empty },
          some (.download manifest bytes))
  | .download manifest bytes =>
      match disk.mirror.get? manifest.dataPath with
      | none => .error .missingFile
      | some content =>
          .ok
            ({ disk with
                raw := disk.raw.set (hiddenBeside (destination manifest))
                  content },
              some (.verifyPartial manifest bytes))
  | .verifyPartial manifest bytes =>
      match disk.raw.get? (hiddenBeside (destination manifest)) with
      | none => .error .missingFile
      | some content =>
          match verifyLocal codec content manifest.asRef with
          | .error problem => .error problem
          | .ok _ => .ok (disk, some (.replacePartial manifest bytes))
  | .replacePartial manifest bytes =>
      match renameHidden disk.raw (destination manifest) with
      | .error problem => .error problem
      | .ok raw =>
          .ok ({ disk with raw := raw }, some (.checkManifest manifest bytes))
  | .checkManifest manifest bytes =>
      match disk.raw.get? (manifestBeside (destination manifest)) with
      | none => .ok (disk, some (.writeManifest manifest bytes))
      | some present =>
          if present = bytes then .ok (disk, some (.writeAck manifest))
          else .error .conflictingManifest
  | .writeManifest manifest bytes =>
      .ok
        ({ disk with
            raw := disk.raw.set
              (hiddenBeside (manifestBeside (destination manifest))) bytes },
          some (.replaceManifest manifest bytes))
  | .replaceManifest manifest _ =>
      match renameHidden disk.raw (manifestBeside (destination manifest)) with
      | .error problem => .error problem
      | .ok raw => .ok ({ disk with raw := raw }, some (.writeAck manifest))
  | .writeAck manifest =>
      .ok
        ({ disk with
            staged := disk.staged.set manifest.chunkId
              { chunkId := manifest.chunkId
                sha256 := manifest.sha256
                durableAt := nowNs } },
          none)

/-- Where `_publish_complete_day` stands. -/
inductive DayStage (β : Type) where
  | readDay
  | writeDay (place : String × DataPath) (bytes : β)
  | replaceDay (place : String × DataPath)
deriving DecidableEq

/-- Whether all chunks of a day are here, as the day manifest names them. -/
def chunksPresent (raw : Dict (String × DataPath) β) (collectorId : String) :
    List ChunkRefV1 → Except PullError Bool
  | [] => .ok true
  | chunk :: rest =>
      match raw.get? (collectorId, chunk.dataPath) with
      | none => .ok false
      | some content =>
          if codec.size content ≠ chunk.sizeBytes then .ok false
          else if codec.sha256 content ≠ chunk.sha256 then
            .error .hashMismatch
          else chunksPresent raw collectorId rest

def publishDayStep (disk : CentralDisk β) (path : DataPath) :
    DayStage β → Except PullError (CentralDisk β × Option (DayStage β))
  | .readDay =>
      match disk.mirror.get? path with
      | none => .error .missingFile
      | some bytes =>
          match codec.parseDay bytes with
          | none => .error .invalidManifest
          | some day =>
              if ¬ safeCollectorId day.collectorId then
                .error .unsafeCollectorId
              else
                let place : String × DataPath := (day.collectorId,
                  ⟨[.named "day-manifests", .date day.utcDate],
                    "SEALED.json"⟩)
                match disk.raw.get? place with
                | some present =>
                    if present = bytes then .ok (disk, none)
                    else .error .conflictingDay
                | none =>
                    match chunksPresent codec disk.raw day.collectorId
                        day.chunks with
                    | .error problem => .error problem
                    | .ok false => .ok (disk, none)
                    | .ok true => .ok (disk, some (.writeDay place bytes))
  | .writeDay place bytes =>
      .ok ({ disk with raw := disk.raw.set (hiddenBeside place) bytes },
        some (.replaceDay place))
  | .replaceDay place =>
      match renameHidden disk.raw place with
      | .error problem => .error problem
      | .ok raw => .ok ({ disk with raw := raw }, none)

/-! ## What a step does -/

/-- The steps of `_ingest_chunk` which succeed. -/
inductive IngestEffect (before : CentralDisk β) (path : DataPath)
    (nowNs : Nat) :
    IngestStage β → CentralDisk β → Option (IngestStage β) → Prop where
  | readManifest {manifest : ChunkManifestV1} {bytes : β}
      (found : before.mirror.get? path = some bytes)
      (parsed : codec.parseManifest bytes = some manifest)
      (safe : safeCollectorId manifest.collectorId) :
      IngestEffect before path nowNs .readManifest before
        (some (.checkDestination manifest bytes))
  | destinationFree {manifest : ChunkManifestV1} {bytes : β}
      (free : before.raw.get? (destination manifest) = none) :
      IngestEffect before path nowNs (.checkDestination manifest bytes)
        before (some (.openPartial manifest bytes))
  | destinationVerified {manifest : ChunkManifestV1} {bytes content : β}
      (found : before.raw.get? (destination manifest) = some content)
      (verified : verifyLocal codec content manifest.asRef = .ok ()) :
      IngestEffect before path nowNs (.checkDestination manifest bytes)
        before (some (.checkManifest manifest bytes))
  | openPartial {manifest : ChunkManifestV1} {bytes : β} :
      IngestEffect before path nowNs (.openPartial manifest bytes)
        { before with
          raw := before.raw.set (hiddenBeside (destination manifest))
            codec.empty }
        (some (.download manifest bytes))
  | download {manifest : ChunkManifestV1} {bytes content : β}
      (found : before.mirror.get? manifest.dataPath = some content) :
      IngestEffect before path nowNs (.download manifest bytes)
        { before with
          raw := before.raw.set (hiddenBeside (destination manifest))
            content }
        (some (.verifyPartial manifest bytes))
  | verifyPartial {manifest : ChunkManifestV1} {bytes content : β}
      (hidden : before.raw.get? (hiddenBeside (destination manifest)) =
        some content)
      (verified : verifyLocal codec content manifest.asRef = .ok ()) :
      IngestEffect before path nowNs (.verifyPartial manifest bytes) before
        (some (.replacePartial manifest bytes))
  | replacePartial {manifest : ChunkManifestV1} {bytes : β}
      {raw : Dict (String × DataPath) β}
      (renamed : renameHidden before.raw (destination manifest) = .ok raw) :
      IngestEffect before path nowNs (.replacePartial manifest bytes)
        { before with raw := raw } (some (.checkManifest manifest bytes))
  | manifestFree {manifest : ChunkManifestV1} {bytes : β}
      (free : before.raw.get? (manifestBeside (destination manifest)) =
        none) :
      IngestEffect before path nowNs (.checkManifest manifest bytes) before
        (some (.writeManifest manifest bytes))
  | manifestSame {manifest : ChunkManifestV1} {bytes : β}
      (found : before.raw.get? (manifestBeside (destination manifest)) =
        some bytes) :
      IngestEffect before path nowNs (.checkManifest manifest bytes) before
        (some (.writeAck manifest))
  | writeManifest {manifest : ChunkManifestV1} {bytes : β} :
      IngestEffect before path nowNs (.writeManifest manifest bytes)
        { before with
          raw := before.raw.set
            (hiddenBeside (manifestBeside (destination manifest))) bytes }
        (some (.replaceManifest manifest bytes))
  | replaceManifest {manifest : ChunkManifestV1} {bytes : β}
      {raw : Dict (String × DataPath) β}
      (renamed : renameHidden before.raw
        (manifestBeside (destination manifest)) = .ok raw) :
      IngestEffect before path nowNs (.replaceManifest manifest bytes)
        { before with raw := raw } (some (.writeAck manifest))
  | writeAck {manifest : ChunkManifestV1} :
      IngestEffect before path nowNs (.writeAck manifest)
        { before with
          staged := before.staged.set manifest.chunkId
            { chunkId := manifest.chunkId
              sha256 := manifest.sha256
              durableAt := nowNs } }
        none

variable {codec}

theorem ingestStep_effect
    {before after : CentralDisk β} {path : DataPath} {nowNs : Nat}
    {stage : IngestStage β} {next : Option (IngestStage β)}
    (completed :
      ingestStep codec before path nowNs stage = .ok (after, next)) :
    IngestEffect codec before path nowNs stage after next := by
  cases stage with
  | readManifest =>
      simp only [ingestStep] at completed
      split at completed
      next => cases completed
      next bytes found =>
        split at completed
        next => cases completed
        next manifest parsed =>
          split at completed
          next safe =>
            cases completed
            exact .readManifest found parsed safe
          next => cases completed
  | checkDestination manifest bytes =>
      simp only [ingestStep] at completed
      split at completed
      next free =>
        cases completed
        exact .destinationFree free
      next content found =>
        split at completed
        next => cases completed
        next verified =>
          cases completed
          exact .destinationVerified found verified
  | openPartial manifest bytes =>
      cases completed
      exact .openPartial
  | download manifest bytes =>
      simp only [ingestStep] at completed
      split at completed
      next => cases completed
      next content found =>
        cases completed
        exact .download found
  | verifyPartial manifest bytes =>
      simp only [ingestStep] at completed
      split at completed
      next => cases completed
      next content hidden =>
        split at completed
        next => cases completed
        next verified =>
          cases completed
          exact .verifyPartial hidden verified
  | replacePartial manifest bytes =>
      simp only [ingestStep] at completed
      split at completed
      next => cases completed
      next renamed =>
        cases completed
        exact .replacePartial renamed
  | checkManifest manifest bytes =>
      simp only [ingestStep] at completed
      split at completed
      next free =>
        cases completed
        exact .manifestFree free
      next present found =>
        split at completed
        next same =>
          cases completed
          exact .manifestSame (same ▸ found)
        next => cases completed
  | writeManifest manifest bytes =>
      cases completed
      exact .writeManifest
  | replaceManifest manifest bytes =>
      simp only [ingestStep] at completed
      split at completed
      next => cases completed
      next renamed =>
        cases completed
        exact .replaceManifest renamed
  | writeAck manifest =>
      cases completed
      exact .writeAck

variable (codec)

/-- The steps of `_publish_complete_day` which succeed. -/
inductive DayEffect (before : CentralDisk β) (path : DataPath) :
    DayStage β → CentralDisk β → Option (DayStage β) → Prop where
  /-- The day manifest is here, or a chunk of the day is not. -/
  | unchanged : DayEffect before path .readDay before none
  | readDay {day : DayManifestV1} {bytes : β}
      (found : before.mirror.get? path = some bytes)
      (parsed : codec.parseDay bytes = some day)
      (safe : safeCollectorId day.collectorId)
      (free : before.raw.get? (day.collectorId,
        ⟨[.named "day-manifests", .date day.utcDate], "SEALED.json"⟩) =
          none)
      (present : chunksPresent codec before.raw day.collectorId day.chunks =
        .ok true) :
      DayEffect before path .readDay before
        (some (.writeDay (day.collectorId,
          ⟨[.named "day-manifests", .date day.utcDate], "SEALED.json"⟩)
          bytes))
  | writeDay {place : String × DataPath} {bytes : β} :
      DayEffect before path (.writeDay place bytes)
        { before with raw := before.raw.set (hiddenBeside place) bytes }
        (some (.replaceDay place))
  | replaceDay {place : String × DataPath}
      {raw : Dict (String × DataPath) β}
      (renamed : renameHidden before.raw place = .ok raw) :
      DayEffect before path (.replaceDay place) { before with raw := raw }
        none

variable {codec}

theorem publishDayStep_effect
    {before after : CentralDisk β} {path : DataPath}
    {stage : DayStage β} {next : Option (DayStage β)}
    (completed : publishDayStep codec before path stage = .ok (after, next)) :
    DayEffect codec before path stage after next := by
  cases stage with
  | readDay =>
      simp only [publishDayStep] at completed
      split at completed
      next => cases completed
      next bytes found =>
        split at completed
        next => cases completed
        next day parsed =>
          split at completed
          next => cases completed
          next safe =>
            split at completed
            next =>
              split at completed
              next =>
                cases completed
                exact .unchanged
              next => cases completed
            next free =>
              split at completed
              next => cases completed
              next =>
                cases completed
                exact .unchanged
              next present =>
                cases completed
                exact .readDay found parsed (not_not.mp safe) free present
  | writeDay place bytes =>
      cases completed
      exact .writeDay
  | replaceDay place =>
      simp only [publishDayStep] at completed
      split at completed
      next => cases completed
      next renamed =>
        cases completed
        exact .replaceDay renamed

end Steps

/-- One manifest of the mirror which the puller is working on. -/
inductive PullTask (β : Type) where
  | ingest (path : DataPath) (stage : IngestStage β)
  | publishDay (path : DataPath) (stage : DayStage β)
deriving DecidableEq

def pullStep {β : Type} [DecidableEq β] (codec : FileCodec β)
    (disk : CentralDisk β) (nowNs : Nat) :
    PullTask β → Except PullError (CentralDisk β × Option (PullTask β))
  | .ingest path stage =>
      match ingestStep codec disk path nowNs stage with
      | .error problem => .error problem
      | .ok (disk, next) => .ok (disk, next.map (.ingest path))
  | .publishDay path stage =>
      match publishDayStep codec disk path stage with
      | .error problem => .error problem
      | .ok (disk, next) => .ok (disk, next.map (.publishDay path))

end ShadowDataPlane.Central
