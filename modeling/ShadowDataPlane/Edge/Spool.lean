import Mathlib.Data.List.Sort
import ShadowDataPlane.Contracts.Chunk
import ShadowDataPlane.Foundation.Dict

/-!
# The spool of the edge

A chunk is published by renaming its data file into the ready directory and
writing its manifest beside it.  `apply_acks` frees the spool: an
acknowledgement which names the hash of a ready chunk becomes a transaction on
disk, and the transaction removes the manifest and then the data.  What a
crash interrupts, the next call takes up from the transactions it finds.

`publishStep` and `applyStep` take one durable step at a time.
-/

namespace ShadowDataPlane.Edge

open ShadowDataPlane.Foundation
open ShadowDataPlane.Contracts

/-- An accepted acknowledgement which is being applied. -/
structure AckTransaction where
  ack : AckV1
  manifest : ChunkManifestV1
  acceptedAt : Nat
deriving DecidableEq

/-- What the edge has on disk; an ACK file is named after its chunk. -/
structure SpoolDisk (β : Type) where
  data : Dict DataPath β := Dict.empty
  manifests : Dict DataPath ChunkManifestV1 := Dict.empty
  acked : Dict (Nat × String) ChunkManifestV1 := Dict.empty
  sealedDays : List Nat := []
  acks : Dict String AckV1 := Dict.empty
  applying : Dict String AckTransaction := Dict.empty
  rejected : List AckV1 := []
deriving DecidableEq

section Publishing

variable {β : Type} (codec : FileCodec β)

/-- How far a publication has come. -/
inductive PublishStage where
  | writeData
  | writeManifest
deriving DecidableEq

/-- The manifest of a file takes its hash and size from the file. -/
def manifestFor (draft : ChunkManifestV1) (content : β) : ChunkManifestV1 :=
  { draft with
    sha256 := codec.sha256 content
    sizeBytes := codec.size content }

/-- `finish` and `_write`; no stage is left when they have failed. -/
def publishStep (disk : SpoolDisk β) (content : β) (draft : ChunkManifestV1) :
    PublishStage → SpoolDisk β × Option PublishStage
  | .writeData =>
      ({ disk with data := disk.data.set draft.dataPath content },
        some .writeManifest)
  | .writeManifest =>
      match disk.data.get? draft.dataPath with
      | none => (disk, none)
      | some present =>
          ({ disk with
              manifests := disk.manifests.set draft.dataPath.manifest
                (manifestFor codec draft present) },
            none)

end Publishing

/-! ## Applying acknowledgements -/

/-- The manifests by chunk id, and the ids which stand for several. -/
structure ReadyManifests where
  byId : Dict String ChunkManifestV1 := Dict.empty
  conflicted : List String := []
deriving DecidableEq

/-- One manifest of the loop of `_ready_manifests`. -/
def addReady (found : ReadyManifests)
    (entry : DataPath × ChunkManifestV1) : ReadyManifests :=
  if entry.1 ≠ entry.2.dataPath.manifest then found
  else if entry.2.chunkId ∈ found.conflicted then found
  else
    match found.byId.get? entry.2.chunkId with
    | none => { found with byId := found.byId.set entry.2.chunkId entry.2 }
    | some existing =>
        if existing = entry.2 then found
        else
          { byId := found.byId.erase entry.2.chunkId
            conflicted := entry.2.chunkId :: found.conflicted }

/-- `_ready_manifests`. -/
def readyById (entries : List (DataPath × ChunkManifestV1)) :
    Dict String ChunkManifestV1 :=
  (entries.foldl addReady {}).byId

/-- Where `apply_acks` stands, with its local variables. -/
inductive ApplyStage where
  | readManifests
  | accept (manifests : Dict String ChunkManifestV1)
      (acks transactions : List String)
  | unlinkAck (manifests : Dict String ChunkManifestV1) (chunkId : String)
      (acks transactions : List String)
  | apply (transactions completed : List String)
  | moveManifest (transaction : AckTransaction)
      (transactions completed : List String)
  | removeData (transaction : AckTransaction)
      (transactions completed : List String)
  | unlinkTransactions (completed : List String)
deriving DecidableEq

section Applying

variable {β : Type}

def sortedKeys {ν : Type} (dict : Dict String ν) : List String :=
  (dict.entries.map Prod.fst).insertionSort (· ≤ ·)

/-- `_quarantine` of an ACK file. -/
def quarantineAck (disk : SpoolDisk β) (chunkId : String) (ack : AckV1) :
    SpoolDisk β :=
  { disk with
    acks := disk.acks.erase chunkId
    rejected := disk.rejected ++ [ack] }

/-- An existing transaction which stands for the same acknowledgement. -/
def SameTransaction (existing : AckTransaction) (ack : AckV1)
    (manifest : ChunkManifestV1) : Prop :=
  existing.manifest = manifest ∧ existing.ack.chunkId = ack.chunkId ∧
    existing.ack.sha256 = ack.sha256

instance (existing : AckTransaction) (ack : AckV1)
    (manifest : ChunkManifestV1) :
    Decidable (SameTransaction existing ack manifest) :=
  inferInstanceAs (Decidable (_ ∧ _ ∧ _))

/-- One ACK file of the first loop. -/
def acceptStep (disk : SpoolDisk β) (nowNs : Nat)
    (manifests : Dict String ChunkManifestV1) (chunkId : String)
    (acks transactions : List String) : SpoolDisk β × ApplyStage :=
  match disk.acks.get? chunkId with
  | none => (disk, .accept manifests acks transactions)
  | some ack =>
      if ack.chunkId ≠ chunkId then
        (quarantineAck disk chunkId ack, .accept manifests acks transactions)
      else
        match manifests.get? ack.chunkId with
        | none =>
            (quarantineAck disk chunkId ack,
              .accept manifests acks transactions)
        | some manifest =>
            if ack.sha256 ≠ manifest.sha256 then
              (quarantineAck disk chunkId ack,
                .accept manifests acks transactions)
            else
              match disk.applying.get? chunkId with
              | none =>
                  ({ disk with
                      applying := disk.applying.set chunkId
                        { ack := ack
                          manifest := manifest
                          acceptedAt := nowNs } },
                    .unlinkAck manifests chunkId acks transactions)
              | some existing =>
                  if SameTransaction existing ack manifest then
                    (disk, .unlinkAck manifests chunkId acks transactions)
                  else
                    (quarantineAck disk chunkId ack,
                      .accept manifests acks transactions)

/-- What becomes of the manifest of an acknowledged chunk. -/
def moveManifest (disk : SpoolDisk β) (manifest : ChunkManifestV1) :
    SpoolDisk β :=
  match disk.manifests.get? manifest.dataPath.manifest with
  | none => disk
  | some present =>
      if manifest.utcDate ∈ disk.sealedDays then
        { disk with
          manifests := disk.manifests.erase manifest.dataPath.manifest }
      else
        { disk with
          manifests := disk.manifests.erase manifest.dataPath.manifest
          acked := disk.acked.set
            (manifest.utcDate, manifest.dataPath.manifest.name) present }

def applyStep (disk : SpoolDisk β) (nowNs : Nat) :
    ApplyStage → SpoolDisk β × Option ApplyStage
  | .readManifests =>
      (disk, some (.accept (readyById disk.manifests.entries)
        (sortedKeys disk.acks) (sortedKeys disk.applying)))
  | .accept _ [] transactions =>
      (disk, some (.apply (transactions.dedup.insertionSort (· ≤ ·)) []))
  | .accept manifests (chunkId :: acks) transactions =>
      let (disk, next) :=
        acceptStep disk nowNs manifests chunkId acks transactions
      (disk, some next)
  | .unlinkAck manifests chunkId acks transactions =>
      ({ disk with acks := disk.acks.erase chunkId },
        some (.accept (manifests.erase chunkId) acks
          (transactions ++ [chunkId])))
  | .apply [] completed => (disk, some (.unlinkTransactions completed))
  | .apply (chunkId :: transactions) completed =>
      match disk.applying.get? chunkId with
      | none => (disk, some (.apply transactions completed))
      | some transaction =>
          if transaction.ack.sha256 ≠ transaction.manifest.sha256 then
            ({ disk with applying := disk.applying.erase chunkId },
              some (.apply transactions completed))
          else
            (disk, some (.moveManifest transaction transactions
              (completed ++ [chunkId])))
  | .moveManifest transaction transactions completed =>
      (moveManifest disk transaction.manifest,
        some (.removeData transaction transactions completed))
  | .removeData transaction transactions completed =>
      ({ disk with
          data := disk.data.erase transaction.manifest.dataPath },
        some (.apply transactions completed))
  | .unlinkTransactions [] => (disk, none)
  | .unlinkTransactions (chunkId :: completed) =>
      ({ disk with applying := disk.applying.erase chunkId },
        some (.unlinkTransactions completed))

end Applying

end ShadowDataPlane.Edge
