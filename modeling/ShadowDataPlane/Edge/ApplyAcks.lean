import ShadowDataPlane.Edge.Spool
import ShadowDataPlane.Edge.TransferLedger

/-!
# Applying acknowledgements to any files

`apply_acks` as a machine which makes one change to the disk at a time.  It
finds ACK, transaction and manifest files of any contents and names, keeps the
events of the call until the chunks are removed, appends them to the transfer
ledger and only then unlinks the transactions.  The process may die before
every change, and in the middle of the write to the ledger.

Between the changes the edge publishes files, the centre delivers ACK files
and days are sealed.  `SpoolEffect`s record what has been done to the ready
files, the latest one first.
-/

namespace ShadowDataPlane.Edge

open ShadowDataPlane.Foundation
open ShadowDataPlane.Contracts

/-! ## Files -/

/-- How files are validated and written. -/
structure SpoolCodec (β : Type) extends EventCodec where
  validateAck : β → Except String AckV1
  validateManifest : β → Except String ChunkManifestV1
  validateTransaction : β → Except String AckTransaction
  transactionBytes : AckTransaction → β
  utcText : Nat → String
  validate_transactionBytes : ∀ transaction,
    validateTransaction (transactionBytes transaction) = .ok transaction

/-- A file which `_quarantine` has renamed. -/
structure RejectedFile (β : Type) where
  name : String
  reason : String
  content : β
deriving DecidableEq

/-- The counts which `apply_acks` returns. -/
structure AckApplyResult where
  seen : Nat := 0
  applied : Nat := 0
  gcBytes : Nat := 0
  invalid : Nat := 0
  hashMismatches : Nat := 0
  unknown : Nat := 0
  manifestErrors : Nat := 0
  recovered : Nat := 0
deriving DecidableEq, Repr

/-- `transfer-status.json`. -/
structure TransferStatus where
  applyId : String
  updatedAt : Nat
  state : String
  result : AckApplyResult
  acksPending : Nat
  transactionsPending : Nat
  readyManifestsRemaining : Nat
deriving DecidableEq, Repr

/-- The files below the data root, each directory by itself. -/
structure AckDisk (β : Type) where
  ready : Dict DataPath β := Dict.empty
  acks : Dict String β := Dict.empty
  applying : Dict String β := Dict.empty
  acked : Dict (Nat × String) β := Dict.empty
  rejected : List (RejectedFile β) := []
  ledger : Dict Nat (List UInt8) := Dict.empty
  status : Option TransferStatus := none
deriving DecidableEq

/-- `f"{chunk_id}.ack.json"`. -/
def ackName (chunkId : String) : String := chunkId ++ ".ack.json"

/-- `f"{chunk_id}.transaction.json"`. -/
def transactionName (chunkId : String) : String :=
  chunkId ++ ".transaction.json"

/-- Where `SEALED.json` of a day is. -/
def sealedPath (utcDate : Nat) : DataPath :=
  ⟨[.named "day-manifests", .date utcDate], "SEALED.json"⟩

/-- A name which `rglob("*.manifest.json")` finds. -/
def IsManifestPath (path : DataPath) : Prop :=
  ".manifest.json".toList <:+ path.name.toList

instance (path : DataPath) : Decidable (IsManifestPath path) :=
  inferInstanceAs (Decidable (_ <:+ _))

/-- Where the manifest of a transaction is while its day is not sealed. -/
def AckTransaction.ackedKey (transaction : AckTransaction) : Nat × String :=
  (transaction.manifest.utcDate,
    transaction.manifest.dataPath.manifest.name)

/-! ## A call and its events -/

/-- The local variables of `apply_acks` which all of its parts use. -/
structure ApplyCall where
  applyId : String
  now : Nat
  events : List TransferEvent := []
  result : AckApplyResult := {}
deriving DecidableEq, Repr

/-- The counter which stands for an event. -/
def AckApplyResult.count (result : AckApplyResult) :
    TransferEventName → AckApplyResult
  | .readyManifestInvalid | .readyManifestMisplaced
  | .readyManifestConflict =>
      { result with manifestErrors := result.manifestErrors + 1 }
  | .ackInvalid | .ackTransactionConflict | .ackTransactionInvalid =>
      { result with invalid := result.invalid + 1 }
  | .ackUnknown => { result with unknown := result.unknown + 1 }
  | .ackHashMismatch | .ackTransactionHashMismatch =>
      { result with hashMismatches := result.hashMismatches + 1 }
  | .ackValidated | .remoteGc => result

namespace ApplyCall

/-- Append the event of something which is refused. -/
def reject (call : ApplyCall) (event : TransferEvent) : ApplyCall :=
  { call with
    events := call.events ++ [event]
    result := call.result.count event.event }

/-- `transfer_event` with the time and the id of the call. -/
def event (call : ApplyCall) (name : TransferEventName) (subject : String) :
    TransferEvent where
  event := name
  eventId := call.applyId ++ ":" ++ subject ++ ":" ++ name.text
  occurredAt := call.now
  applyId := call.applyId

/-- `_rejection_event`. -/
def rejectionEvent (call : ApplyCall) (name : TransferEventName)
    (path : SpoolPath) : TransferEvent :=
  { call.event name path.name with path := some path }

end ApplyCall

section Source

variable {β : Type} (codec : SpoolCodec β)

/-! ## The ready manifests -/

/-- What is wrong with a manifest which can be read. -/
def readyProblem (call : ApplyCall) (found : ReadyManifests)
    (path : DataPath) (manifest : ChunkManifestV1) : Option TransferEvent :=
  if path ≠ manifest.dataPath.manifest then
    some { call.event .readyManifestMisplaced path.name with
      chunkId := some manifest.chunkId
      path := some (.ready path)
      expectedPath := some manifest.dataPath.manifest }
  else if manifest.chunkId ∈ found.conflicted then none
  else
    match found.byId.get? manifest.chunkId with
    | none => none
    | some existing =>
        if existing = manifest then none
        else
          some { call.event .readyManifestConflict manifest.chunkId with
            chunkId := some manifest.chunkId }

/-- One file of the loop of `_ready_manifests`. -/
def scanManifest (scanned : ReadyManifests × ApplyCall)
    (entry : DataPath × β) : ReadyManifests × ApplyCall :=
  match codec.validateManifest entry.2 with
  | .error error =>
      (scanned.1,
        scanned.2.reject
          { scanned.2.event .readyManifestInvalid entry.1.name with
            path := some (.ready entry.1)
            error := some (String.ofList (error.toList.take 500)) })
  | .ok manifest =>
      (addReady scanned.1 (entry.1, manifest),
        match readyProblem scanned.2 scanned.1 entry.1 manifest with
        | none => scanned.2
        | some problem => scanned.2.reject problem)

/-- `ready_root.rglob("*.manifest.json")`. -/
def readyFiles (ready : Dict DataPath β) : List (DataPath × β) :=
  ready.entries.filter fun entry => IsManifestPath entry.1

/-- `_ready_manifests`, which appends to the events of the call. -/
def scanReady (ready : Dict DataPath β) (call : ApplyCall) :
    Dict String ChunkManifestV1 × ApplyCall :=
  let scanned := (readyFiles ready).foldl (scanManifest codec) ({}, call)
  (scanned.1.byId, scanned.2)

/-! ## The first loop: ACK files -/

/-- What becomes of an ACK file. -/
inductive AckVerdict where
  | rejected (reason : String) (event : TransferEvent)
  | accepted (transaction : AckTransaction)
  | known (chunkId : String)
deriving DecidableEq

def judgeAck (disk : AckDisk β) (call : ApplyCall)
    (manifests : Dict String ChunkManifestV1) (name : String)
    (content : β) : AckVerdict :=
  match codec.validateAck content with
  | .error error =>
      .rejected "invalid"
        { call.rejectionEvent .ackInvalid (.ack name) with
          error := some error }
  | .ok ack =>
      if name ≠ ackName ack.chunkId then
        .rejected "invalid-name"
          { call.rejectionEvent .ackInvalid (.ack name) with
            chunkId := some ack.chunkId
            error := some "ACK filename does not match chunk_id" }
      else
        match manifests.get? ack.chunkId with
        | none =>
            .rejected "unknown"
              { call.rejectionEvent .ackUnknown (.ack name) with
                chunkId := some ack.chunkId }
        | some manifest =>
            if ack.sha256 ≠ manifest.sha256 then
              .rejected "hash-mismatch"
                { call.rejectionEvent .ackHashMismatch (.ack name) with
                  chunkId := some ack.chunkId
                  expectedSha256 := some manifest.sha256
                  receivedSha256 := some ack.sha256 }
            else
              match disk.applying.get? (transactionName ack.chunkId) with
              | none => .accepted ⟨ack, manifest, call.now⟩
              | some existing =>
                  match codec.validateTransaction existing with
                  | .ok transaction =>
                      if SameTransaction transaction ack manifest then
                        .known ack.chunkId
                      else
                        .rejected "transaction-conflict"
                          { call.rejectionEvent .ackTransactionConflict
                              (.ack name) with
                            chunkId := some ack.chunkId }
                  | .error _ =>
                      .rejected "transaction-conflict"
                        { call.rejectionEvent .ackTransactionConflict
                            (.ack name) with
                          chunkId := some ack.chunkId }

/-! ## One change at a time -/

/-- Where `apply_acks` stands. -/
inductive ApplyPhase where
  | accept (manifests : Dict String ChunkManifestV1)
      (acks transactions : List String)
  | unlinkAck (manifests : Dict String ChunkManifestV1) (name : String)
      (chunkId : String) (acks transactions : List String)
  | apply (transactions completed : List String)
  | moveManifest (name : String) (transaction : AckTransaction)
      (recovered : Bool) (transactions completed : List String)
  | removeData (name : String) (transaction : AckTransaction)
      (recovered : Bool) (transactions completed : List String)
  | append (batches : List (Nat × List UInt8)) (completed : List String)
  | writeStatus (completed : List String)
  | unlinkTransactions (completed : List String)
deriving DecidableEq

/-- What is done to the ready files, and by which transaction. -/
inductive SpoolEffect (β : Type) where
  | placed (path : DataPath) (content : β)
  | sealedDay (utcDate : Nat)
  | began (ready : Dict DataPath β)
  | accepted (name : String) (content : β) (transaction : AckTransaction)
  | movedManifest (transaction : AckTransaction) (content : β)
  | unlinkedManifest (transaction : AckTransaction) (content : β)
  | unlinkedData (transaction : AckTransaction) (content : β)
  | returned
deriving DecidableEq

/-- How a call goes on. -/
inductive ApplyNext where
  | goesOn (call : ApplyCall) (phase : ApplyPhase)
  | returns
  | raises
deriving DecidableEq

/-- A change of the disk, and what follows. -/
structure AppliedWork (β : Type) where
  disk : AckDisk β
  effects : List (SpoolEffect β) := []
  next : ApplyNext
deriving DecidableEq

/-- `_quarantine` of an ACK file. -/
def AckDisk.rejectAck (disk : AckDisk β) (name reason : String)
    (content : β) : AckDisk β :=
  { disk with
    acks := disk.acks.erase name
    rejected := disk.rejected ++ [⟨name, reason, content⟩] }

/-- `_quarantine` of a transaction. -/
def AckDisk.rejectTransaction (disk : AckDisk β) (name reason : String)
    (content : β) : AckDisk β :=
  { disk with
    applying := disk.applying.erase name
    rejected := disk.rejected ++ [⟨name, reason, content⟩] }

/-- One ACK file; what is gone cannot be renamed by `_quarantine`. -/
def acceptAck (disk : AckDisk β) (call : ApplyCall)
    (manifests : Dict String ChunkManifestV1) (name : String)
    (acks transactions : List String) : AppliedWork β :=
  match disk.acks.get? name with
  | none => { disk := disk, next := .raises }
  | some content =>
      match judgeAck codec disk call manifests name content with
      | .rejected reason event =>
          { disk := disk.rejectAck name reason content
            next := .goesOn (call.reject event)
              (.accept manifests acks transactions) }
      | .accepted transaction =>
          { disk :=
              { disk with
                applying := disk.applying.set
                  (transactionName transaction.ack.chunkId)
                  (codec.transactionBytes transaction) }
            effects := [.accepted name content transaction]
            next := .goesOn call
              (.unlinkAck manifests name transaction.ack.chunkId acks
                transactions) }
      | .known chunkId =>
          { disk := disk
            next := .goesOn call
              (.unlinkAck manifests name chunkId acks transactions) }

/-- One transaction, before anything is removed. -/
def beginTransaction (disk : AckDisk β) (call : ApplyCall) (name : String)
    (transactions completed : List String) : AppliedWork β :=
  match disk.applying.get? name with
  | none => { disk := disk, next := .raises }
  | some content =>
      match codec.validateTransaction content with
      | .error error =>
          { disk := disk.rejectTransaction name "invalid-transaction" content
            next := .goesOn
              (call.reject
                { call.rejectionEvent .ackTransactionInvalid
                    (.applying name) with
                  error := some error })
              (.apply transactions completed) }
      | .ok transaction =>
          if transaction.ack.sha256 ≠ transaction.manifest.sha256 then
            { disk := disk.rejectTransaction name
                "transaction-hash-mismatch" content
              next := .goesOn
                (call.reject
                  { call.rejectionEvent .ackTransactionHashMismatch
                      (.applying name) with
                    chunkId := some transaction.ack.chunkId
                    expectedSha256 := some transaction.manifest.sha256
                    receivedSha256 := some transaction.ack.sha256 })
                (.apply transactions completed) }
          else
            let manifest := transaction.manifest
            let dataExisted := (disk.ready.get? manifest.dataPath).isSome
            let manifestExisted :=
              (disk.ready.get? manifest.dataPath.manifest).isSome
            { disk := disk
              next := .goesOn call
                (.moveManifest name transaction
                  (!dataExisted || !manifestExisted)
                  transactions completed) }

/-- The manifest is unlinked if its day is sealed, and moved if not. -/
def removeManifest (disk : AckDisk β) (transaction : AckTransaction) :
    AckDisk β × List (SpoolEffect β) :=
  let path := transaction.manifest.dataPath.manifest
  match disk.ready.get? path with
  | none => (disk, [])
  | some content =>
      if (disk.ready.get?
          (sealedPath transaction.manifest.utcDate)).isSome then
        ({ disk with ready := disk.ready.erase path },
          [.unlinkedManifest transaction content])
      else
        ({ disk with
            ready := disk.ready.erase path
            acked := disk.acked.set transaction.ackedKey content },
          [.movedManifest transaction content])

def removeData (disk : AckDisk β) (transaction : AckTransaction) :
    AckDisk β × List (SpoolEffect β) :=
  match disk.ready.get? transaction.manifest.dataPath with
  | none => (disk, [])
  | some content =>
      ({ disk with
          ready := disk.ready.erase transaction.manifest.dataPath },
        [.unlinkedData transaction content])

/-- `f"{manifest.chunk_id}:{utc_text(ack.durable_at)}"`. -/
def gcIdentity (transaction : AckTransaction) : String :=
  transaction.manifest.chunkId ++ ":" ++
    codec.utcText transaction.ack.durableAt

/-- An event of a transaction which has been applied. -/
def gcEvent (call : ApplyCall) (transaction : AckTransaction)
    (name : TransferEventName) : TransferEvent where
  event := name
  eventId := gcIdentity codec transaction ++ ":" ++ name.text
  occurredAt := call.now
  applyId := call.applyId
  chunkId := some transaction.manifest.chunkId
  applied := some {
    collectorId := transaction.manifest.collectorId
    sha256 := transaction.manifest.sha256
    sizeBytes := transaction.manifest.sizeBytes
    utcDate := transaction.manifest.utcDate
    ackDurableAt := codec.utcText transaction.ack.durableAt }

/-- The events and the counters of an applied transaction. -/
def ApplyCall.collect (call : ApplyCall) (transaction : AckTransaction)
    (recovered : Bool) : ApplyCall :=
  { call with
    events := call.events ++
      [gcEvent codec call transaction .ackValidated,
        { gcEvent codec call transaction .remoteGc with
          recovered := some recovered }]
    result :=
      { call.result with
        applied := call.result.applied + 1
        gcBytes := call.result.gcBytes + transaction.manifest.sizeBytes
        recovered := call.result.recovered + recovered.toNat } }

/-- `write_transfer_status`. -/
def transferStatus (disk : AckDisk β) (call : ApplyCall)
    (completed : List String) : TransferStatus where
  applyId := call.applyId
  updatedAt := call.now
  state :=
    if call.result.invalid = 0 ∧ call.result.hashMismatches = 0 ∧
        call.result.unknown = 0 ∧ call.result.manifestErrors = 0 then "ok"
    else "attention"
  result := call.result
  acksPending := disk.acks.entries.length
  transactionsPending := disk.applying.entries.length - completed.length
  readyManifestsRemaining := (readyFiles disk.ready).length

def work (disk : AckDisk β) (call : ApplyCall) : ApplyPhase → AppliedWork β
  | .accept _ [] transactions =>
      { disk := disk
        next := .goesOn call
          (.apply (transactions.dedup.insertionSort (· ≤ ·)) []) }
  | .accept manifests (name :: acks) transactions =>
      acceptAck codec disk call manifests name acks transactions
  | .unlinkAck manifests name chunkId acks transactions =>
      { disk := { disk with acks := disk.acks.erase name }
        next := .goesOn call
          (.accept (manifests.erase chunkId) acks
            (transactions ++ [transactionName chunkId])) }
  | .apply [] completed =>
      { disk := disk
        next := .goesOn call
          (.append (groupedEvents codec.toEventCodec call.events).entries
            completed) }
  | .apply (name :: transactions) completed =>
      beginTransaction codec disk call name transactions completed
  | .moveManifest name transaction recovered transactions completed =>
      { disk := (removeManifest disk transaction).1
        effects := (removeManifest disk transaction).2
        next := .goesOn call
          (.removeData name transaction recovered transactions completed) }
  | .removeData name transaction recovered transactions completed =>
      { disk := (removeData disk transaction).1
        effects := (removeData disk transaction).2
        next := .goesOn (call.collect codec transaction recovered)
          (.apply transactions (completed ++ [name])) }
  | .append [] completed =>
      { disk := disk, next := .goesOn call (.writeStatus completed) }
  | .append ((utcDate, encoded) :: batches) completed =>
      { disk :=
          { disk with ledger := appendToDay disk.ledger utcDate encoded }
        next := .goesOn call (.append batches completed) }
  | .writeStatus completed =>
      { disk :=
          { disk with status := some (transferStatus disk call completed) }
        next := .goesOn call (.unlinkTransactions completed) }
  | .unlinkTransactions [] =>
      { disk := disk, effects := [.returned], next := .returns }
  | .unlinkTransactions (name :: completed) =>
      { disk := { disk with applying := disk.applying.erase name }
        next := .goesOn call (.unlinkTransactions completed) }

/-! ## Calls in a row -/

/-- The disk, the call which has not returned, and what has been done. -/
structure SpoolState (β : Type) where
  disk : AckDisk β
  running : Option (ApplyCall × ApplyPhase) := none
  history : List (SpoolEffect β) := []
deriving DecidableEq

/-- The calls on the spool, and what comes between their steps. -/
inductive SpoolLabel (β : Type) where
  | applyAcks (applyId : String) (now : Nat)
  | work
  /-- The process dies, or the call raises. -/
  | crash (written : Nat)
  | place (path : DataPath) (content : β)
  | deliver (name : String) (content : β)
  | sealDay (utcDate : Nat) (content : β)
deriving DecidableEq

/-- Until a change is to be made. -/
def beginCall (disk : AckDisk β) (applyId : String) (now : Nat) :
    AppliedWork β :=
  if disk.acks.entries = [] ∧ disk.applying.entries = [] then
    { disk := disk, effects := [.returned], next := .returns }
  else
    let call : ApplyCall := {
      applyId := applyId
      now := now
      result := { seen := disk.acks.entries.length } }
    let scanned := scanReady codec disk.ready call
    { disk := disk
      effects := [.began disk.ready]
      next := .goesOn scanned.2
        (.accept scanned.1 (sortedKeys disk.acks)
          (sortedKeys disk.applying)) }

/-- What has reached the ledger when the process dies. -/
def cutDisk (disk : AckDisk β) (written : Nat) : ApplyPhase → AckDisk β
  | .append ((utcDate, encoded) :: _) _ =>
      { disk with
        ledger := appendToDay disk.ledger utcDate (encoded.take written) }
  | .append [] _ | .accept _ _ _ | .unlinkAck _ _ _ _ _ | .apply _ _
  | .moveManifest _ _ _ _ _ | .removeData _ _ _ _ _ | .writeStatus _
  | .unlinkTransactions _ => disk

def SpoolState.after (state : SpoolState β) (worked : AppliedWork β) :
    SpoolState β where
  disk := worked.disk
  running :=
    match worked.next with
    | .goesOn call phase => some (call, phase)
    | .returns | .raises => none
  history := worked.effects ++ state.history

/-- One step of `apply_acks` or of its neighbours on the same disk. -/
def spoolStep (state : SpoolState β) :
    SpoolLabel β → Option (SpoolState β)
  | .applyAcks applyId now =>
      match state.running with
      | some _ => none
      | none => some (state.after (beginCall codec state.disk applyId now))
  | .work =>
      state.running.map fun running =>
        state.after (work codec state.disk running.1 running.2)
  | .crash written =>
      state.running.map fun running =>
        { state with
          disk := cutDisk state.disk written running.2
          running := none }
  | .place path content =>
      some { state with
        disk :=
          { state.disk with ready := state.disk.ready.set path content }
        history := .placed path content :: state.history }
  | .deliver name content =>
      some { state with
        disk := { state.disk with acks := state.disk.acks.set name content } }
  | .sealDay utcDate content =>
      -- `_clean_sealed_day_state` removes the acked manifests of the day.
      some { state with
        disk :=
          { state.disk with
            ready := state.disk.ready.set (sealedPath utcDate) content
            acked := state.disk.acked.filterKey fun key =>
              decide (key.1 ≠ utcDate) }
        history := .sealedDay utcDate ::
          .placed (sealedPath utcDate) content :: state.history }

end Source

end ShadowDataPlane.Edge
