import ShadowDataPlane.Central.Puller
import ShadowDataPlane.Edge.Spool
import ShadowDataPlane.Foundation.Transition

/-!
# The transfer protocol

Both sides of the transfer and what travels between them.  On the edge any
number of chunks is being published while acknowledgements are applied; the
centre works on one file of its mirror at a time.  Every label is one durable
step, and each side may crash before any of its own.

A mirror pull may leave anything in the mirror.  Acknowledgements are
delivered in any order, any number of times and as late as one likes.
-/

namespace ShadowDataPlane.Transfer

open ShadowDataPlane.Foundation
open ShadowDataPlane.Contracts
open ShadowDataPlane.Central
open ShadowDataPlane.Edge

/-- A call of the edge which has not returned. -/
inductive EdgeTask (β : Type) where
  | publish (content : β) (draft : ChunkManifestV1) (stage : PublishStage)
  | applyAcks (stage : ApplyStage)
deriving DecidableEq

/--
Both sides, the ACK files which `rsync` has carried off, the hash for which a
path has been used, and the manifests the edge has ever published.
-/
structure TransferState (β : Type) where
  edge : SpoolDisk β := {}
  edgeTasks : List (EdgeTask β) := []
  central : CentralDisk β := {}
  pull : Option (PullTask β) := none
  network : List AckV1 := []
  nowNs : Nat := 0
  used : List (DataPath × String) := []
  published : List ChunkManifestV1 := []
deriving DecidableEq

/-- The calls of edge and centre, and what comes between their steps. -/
inductive TransferLabel (β : Type) where
  | tick (nowNs : Nat)
  | publish (content : β) (draft : ChunkManifestV1)
  | applyAcks
  | sealDay (utcDate : Nat)
  | edgeWork (position : Nat)
  | edgeCrash
  | mirror (files : Dict DataPath β)
  | ingest (path : DataPath)
  | publishDay (path : DataPath)
  | tear (bytes : β)
  | pullWork
  | centralCrash
  | pushAcks
  | unstage (chunkId : String)
  | deliver (ack : AckV1)
deriving DecidableEq

section System

variable {β : Type} [DecidableEq β] (codec : FileCodec β)

def EdgeTask.IsApply : EdgeTask β → Prop
  | .applyAcks _ => True
  | .publish _ _ _ => False

instance : (task : EdgeTask β) → Decidable task.IsApply
  | .applyAcks _ => inferInstanceAs (Decidable True)
  | .publish _ _ _ => inferInstanceAs (Decidable False)

/-- The path has not been used for other contents. -/
def Unused (used : List (DataPath × String)) (path : DataPath)
    (sha256 : String) : Prop :=
  ∀ entry ∈ used, entry.1 = path → entry.2 = sha256

instance (used : List (DataPath × String)) (path : DataPath)
    (sha256 : String) : Decidable (Unused used path sha256) :=
  inferInstanceAs (Decidable (∀ entry ∈ _, _))

/-- The manifest which a step of a publication writes. -/
def publishes (disk : SpoolDisk β) :
    EdgeTask β → List ChunkManifestV1
  | .publish _ draft .writeManifest =>
      ((disk.data.get? draft.dataPath).map (manifestFor codec draft)).toList
  | _ => []

def edgeTaskStep (disk : SpoolDisk β) (nowNs : Nat) :
    EdgeTask β → SpoolDisk β × Option (EdgeTask β)
  | .publish content draft stage =>
      ((publishStep codec disk content draft stage).1,
        (publishStep codec disk content draft stage).2.map
          (.publish content draft))
  | .applyAcks stage =>
      ((applyStep disk nowNs stage).1,
        (applyStep disk nowNs stage).2.map .applyAcks)

def edgeWork (state : TransferState β) (task : EdgeTask β)
    (others : List (EdgeTask β)) : TransferState β :=
  { state with
    edge := (edgeTaskStep codec state.edge state.nowNs task).1
    edgeTasks := others ++
      (edgeTaskStep codec state.edge state.nowNs task).2.toList
    published := state.published ++ publishes codec state.edge task }

/-- A file which fails is left; the puller goes on with another. -/
def pullWork (state : TransferState β) (task : PullTask β) :
    TransferState β :=
  match pullStep codec state.central state.nowNs task with
  | .error _ => { state with pull := none }
  | .ok (central, next) =>
      { state with
        central := central
        pull := next }

/-- The hidden file into which a download is going. -/
def downloading : Option (PullTask β) → Option (String × DataPath)
  | some (.ingest _ (.download manifest _)) =>
      some (hiddenBeside (destination manifest))
  | _ => none

/-- One step of the transport, of the centre or of a crash. -/
def transferStep (state : TransferState β) :
    TransferLabel β → Option (TransferState β)
  | .tick nowNs =>
      if state.nowNs ≤ nowNs then some { state with nowNs := nowNs }
      else none
  | .publish content draft =>
      if Unused state.used draft.dataPath (codec.sha256 content) then
        some
          { state with
            edgeTasks := state.edgeTasks ++
              [.publish content draft .writeData]
            used := state.used ++ [(draft.dataPath, codec.sha256 content)] }
      else none
  | .applyAcks =>
      if ∀ task ∈ state.edgeTasks, ¬ task.IsApply then
        some
          { state with
            edgeTasks := state.edgeTasks ++ [.applyAcks .readManifests] }
      else none
  | .sealDay utcDate =>
      some
        { state with
          edge :=
            { state.edge with
              sealedDays := utcDate :: state.edge.sealedDays } }
  | .edgeWork position =>
      state.edgeTasks[position]?.map fun task =>
        edgeWork codec state task (state.edgeTasks.eraseIdx position)
  | .edgeCrash => some { state with edgeTasks := [] }
  | .mirror files =>
      some { state with central := { state.central with mirror := files } }
  | .ingest path =>
      if state.pull = none then
        some { state with pull := some (.ingest path .readManifest) }
      else none
  | .publishDay path =>
      if state.pull = none then
        some { state with pull := some (.publishDay path .readDay) }
      else none
  | .tear bytes =>
      (downloading state.pull).map fun place =>
        { state with
          central :=
            { state.central with
              raw := state.central.raw.set place bytes } }
  | .pullWork => state.pull.map (pullWork codec state)
  | .centralCrash => some { state with pull := none }
  | .pushAcks =>
      some
        { state with
          network := state.network ++ state.central.staged.values }
  | .unstage chunkId =>
      match state.central.staged.get? chunkId with
      | none => none
      | some ack =>
          if ack ∈ state.network then
            some
              { state with
                central :=
                  { state.central with
                    staged := state.central.staged.erase chunkId } }
          else none
  | .deliver ack =>
      if ack ∈ state.network then
        some
          { state with
            edge :=
              { state.edge with
                acks := state.edge.acks.set ack.chunkId ack } }
      else none

end System

end ShadowDataPlane.Transfer
