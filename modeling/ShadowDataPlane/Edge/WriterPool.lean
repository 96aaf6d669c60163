import Mathlib.Logic.Function.Basic
import ShadowDataPlane.Contracts.Chunk
import ShadowDataPlane.Contracts.Gap
import ShadowDataPlane.Edge.DayIndex

/-!
# The writer pool

The coordinator puts raw events into three queues which share one byte budget.
A writer for each queue collects events into chunks; `rotate` sends a control
item through every queue and returns when all writers have answered it.  The
boundary lock keeps new events out as long as a `rotate` is under way.

Everything runs on one event loop.  A writer advances from one await to the
next, so any interleaving of the coordinator and the writers falls between two
steps of `poolStep`.  Whether a chunk has become too old is up to the label.

What `put` has accepted is kept with every writer, each event with the number
of `rotate` calls before it.
-/

namespace ShadowDataPlane.Edge

open ShadowDataPlane.Foundation
open ShadowDataPlane.Contracts

/-! ## Events and queues -/

/-- What the queues and the writers read of a `RawEventV1`. -/
structure RawEvent where
  streamType : StreamType
  appReceiveRealtimeNs : Nat
  payloadSize : Nat
deriving DecidableEq, Repr

namespace RawEvent

def approximateSizeBytes (event : RawEvent) : Nat :=
  event.payloadSize + 256

def writerGroup (event : RawEvent) : WriterGroup :=
  match event.streamType with
  | .depth | .rpiDepth | .depthSnapshot | .rpiDepthSnapshot => .depth
  | .bookTicker | .aggTrade | .trade | .markPrice | .forceOrder =>
      .tradesMarket
  | _ => .metadata

/-- The UTC date of a chunk which takes the event. -/
def receiveDate (event : RawEvent) : Nat :=
  dateOfNs event.appReceiveRealtimeNs

end RawEvent

/-- The groups which have a queue and a writer. -/
def queuedGroups : List WriterGroup :=
  [.depth, .tradesMarket, .metadata]

theorem writerGroup_mem_queuedGroups (event : RawEvent) :
    event.writerGroup ∈ queuedGroups := by
  unfold RawEvent.writerGroup
  split <;> simp [queuedGroups]

/-- A universe hash with the number of the `rotate` call which brought it. -/
structure UniverseTag where
  rotation : Nat
  hash : String
deriving DecidableEq, Repr

/-- An event in a queue; `put` reserves its size. -/
structure QueuedEvent where
  event : RawEvent
  reservedBytes : Nat
  exact : reservedBytes = event.approximateSizeBytes
deriving DecidableEq, Repr

/-- What stands in the queue of a writer. -/
inductive WriterItem where
  | queued (queued : QueuedEvent)
  | rotate (tag : UniverseTag)
  | stop
deriving DecidableEq, Repr

/-! ## Chunks -/

/-- The limits of a chunk; its age is left to the labels. -/
structure ChunkLimits where
  maxBytes : Nat
  maxEvents : Nat
  batchEvents : Nat
  batchBytes : Nat
  maxEventsPos : 0 < maxEvents := by decide

/-- An open chunk: rows in its file, and a batch which is not yet there. -/
structure ChunkSession where
  chunkId : Nat
  utcDate : Nat
  tag : UniverseTag
  eventCount : Nat := 0
  estimatedBytes : Nat := 0
  minRealtimeNs : Option Nat := none
  maxRealtimeNs : Option Nat := none
  rows : List RawEvent := []
  batch : List QueuedEvent := []
  batchBytes : Nat := 0
deriving DecidableEq, Repr

/-- A chunk in the ready directory: its manifest and its rows. -/
structure FinishedChunk where
  chunkId : Nat
  writerGroup : WriterGroup
  utcDate : Nat
  tag : UniverseTag
  eventCount : Nat
  minAppReceiveRealtimeNs : Nat
  maxAppReceiveRealtimeNs : Nat
  rows : List RawEvent
deriving DecidableEq, Repr

namespace ChunkSession

def shouldRotateBefore (limits : ChunkLimits) (session : ChunkSession)
    (event : RawEvent) : Bool :=
  if event.receiveDate ≠ session.utcDate then true
  else if session.eventCount = 0 then false
  else
    limits.maxBytes < session.estimatedBytes + event.approximateSizeBytes ||
      limits.maxEvents < session.eventCount + 1

/-- `add`, and whether the batch is to be written. -/
def add (limits : ChunkLimits) (session : ChunkSession)
    (queued : QueuedEvent) : ChunkSession × Bool :=
  let timestamp := queued.event.appReceiveRealtimeNs
  let added : ChunkSession :=
    { session with
      batch := session.batch ++ [queued]
      batchBytes := session.batchBytes + queued.reservedBytes
      eventCount := session.eventCount + 1
      estimatedBytes := session.estimatedBytes + queued.reservedBytes
      minRealtimeNs :=
        some (match session.minRealtimeNs with
          | none => timestamp
          | some earliest => min earliest timestamp)
      maxRealtimeNs :=
        some (match session.maxRealtimeNs with
          | none => timestamp
          | some latest => max latest timestamp) }
  (added,
    limits.batchEvents ≤ added.batch.length ||
      limits.batchBytes ≤ added.batchBytes)

/-- `flush`, and the bytes which it sets free. -/
def flush (session : ChunkSession) : ChunkSession × Nat :=
  ({ session with
      rows := session.rows ++ session.batch.map QueuedEvent.event
      batch := []
      batchBytes := 0 },
    session.batchBytes)

/-- `finish`; a batch which is not written or an empty chunk is an error. -/
def finish (group : WriterGroup) (session : ChunkSession) :
    Option FinishedChunk :=
  if session.batch ≠ [] then none
  else if session.eventCount = 0 then none
  else
    match session.minRealtimeNs, session.maxRealtimeNs with
    | some earliest, some latest =>
        some
          { chunkId := session.chunkId
            writerGroup := group
            utcDate := session.utcDate
            tag := session.tag
            eventCount := session.eventCount
            minAppReceiveRealtimeNs := earliest
            maxAppReceiveRealtimeNs := latest
            rows := session.rows }
    | _, _ => none

/-- Whether the chunk is full, for its size or its age. -/
def isFull (limits : ChunkLimits) (session : ChunkSession)
    (tooOld : Bool) : Bool :=
  limits.maxBytes ≤ session.estimatedBytes ||
    limits.maxEvents ≤ session.eventCount || tooOld

end ChunkSession

/-! ## Writers -/

/-- What `_run` goes on with once a chunk is finished. -/
inductive Resume where
  | add (queued : QueuedEvent)
  | wait
  | rotate (tag : UniverseTag)
  | stop
deriving DecidableEq, Repr

/-- The awaits of `_run`. -/
inductive WriterStage where
  | wait
  | create (queued : QueuedEvent)
  | flushBatch
  | releaseBatch (reserved : Nat)
  | flush (resume : Resume)
  | release (reserved : Nat) (resume : Resume)
  | close (resume : Resume)
  | record (chunk : FinishedChunk) (resume : Resume)
  | stopped
  | failed (resume : Resume)
deriving DecidableEq, Repr

/-- A writer task with its queue, its session and its past. -/
structure Writer where
  tag : UniverseTag
  queue : List WriterItem := []
  stage : WriterStage := .wait
  session : Option ChunkSession := none
  finished : List FinishedChunk := []
  durableThroughNs : Option Nat := none
  accepted : List (Nat × RawEvent) := []
deriving DecidableEq, Repr

/-- Whether the task of the writer is done. -/
def Writer.isDone (writer : Writer) : Bool :=
  match writer.stage with
  | .stopped | .failed _ => true
  | _ => false

/-- A call of `rotate_all`, with the groups which have not answered. -/
structure Rotation where
  tag : UniverseTag
  pending : List WriterGroup
deriving DecidableEq, Repr

/-- The pool, with all universe hashes in the order of the `rotate` calls. -/
structure PoolState where
  writers : WriterGroup → Writer
  hashes : List String
  usedBytes : Nat := 0
  index : DayIndex FinishedChunk := {}
  rotation : Option Rotation := none
  cancelled : List Nat := []
  returned : List UniverseTag := []
  chunksCreated : Nat := 0

namespace PoolState

/-- The pool after `start`. -/
def started (universeHash : String) : PoolState where
  writers := fun _ => { tag := ⟨0, universeHash⟩ }
  hashes := [universeHash]

/-- The number of `rotate` calls so far. -/
def rotations (pool : PoolState) : Nat :=
  pool.hashes.length - 1

def setWriter (pool : PoolState) (group : WriterGroup) (writer : Writer) :
    PoolState :=
  { pool with writers := Function.update pool.writers group writer }

/-- A `rotate` whose writer has raised is over. -/
def raiseTo (pool : PoolState) : Resume → PoolState
  | .rotate tag =>
      if pool.rotation.map Rotation.tag = some tag then
        { pool with rotation := none }
      else pool
  | .add _ | .wait | .stop => pool

/-- The writer raises out of `finish`. -/
def fail (pool : PoolState) (group : WriterGroup) (resume : Resume) :
    PoolState :=
  (pool.setWriter group
    { pool.writers group with stage := .failed resume }).raiseTo resume

/-- The writer has answered the call of `rotate` if it still waits. -/
def answer (pool : PoolState) (group : WriterGroup)
    (tag : UniverseTag) : PoolState :=
  { pool with
    rotation := pool.rotation.map fun rotation =>
      if rotation.tag = tag then
        { rotation with pending := rotation.pending.erase group }
      else rotation }

/-- What follows `finish`; answering a cancelled call raises. -/
def resumeWith (pool : PoolState) (group : WriterGroup) :
    Resume → PoolState
  | .add queued =>
      pool.setWriter group
        { pool.writers group with stage := .create queued }
  | .wait =>
      pool.setWriter group { pool.writers group with stage := .wait }
  | .rotate tag =>
      if tag.rotation ∈ pool.cancelled then
        pool.setWriter group
          { pool.writers group with
            tag := tag
            stage := .failed (.rotate tag) }
      else
        (pool.setWriter group
          { pool.writers group with
            tag := tag
            stage := .wait }).answer group tag
  | .stop =>
      pool.setWriter group { pool.writers group with stage := .stopped }

/-- `finish`, which returns at once when no chunk is open. -/
def beginFinish (pool : PoolState) (group : WriterGroup) (resume : Resume) :
    PoolState :=
  match (pool.writers group).session with
  | none => pool.resumeWith group resume
  | some _ =>
      pool.setWriter group
        { pool.writers group with stage := .flush resume }

/-- The test which follows `add`. -/
def checkFull (limits : ChunkLimits) (pool : PoolState) (group : WriterGroup)
    (session : ChunkSession) (tooOld : Bool) : PoolState :=
  if session.isFull limits tooOld then pool.beginFinish group .wait
  else pool.setWriter group { pool.writers group with stage := .wait }

/-- An event enters the chunk; there is no await until the batch is full. -/
def addEvent (limits : ChunkLimits) (pool : PoolState) (group : WriterGroup)
    (session : ChunkSession) (queued : QueuedEvent) (tooOld : Bool) :
    PoolState :=
  let (added, batchFull) := session.add limits queued
  if batchFull then
    pool.setWriter group
      { pool.writers group with
        session := some added
        stage := .flushBatch }
  else
    (pool.setWriter group
      { pool.writers group with session := some added }).checkFull
        limits group added tooOld

/-- An item which the writer has taken from its queue. -/
def takeItem (limits : ChunkLimits) (pool : PoolState) (group : WriterGroup)
    (tooOld : Bool) : WriterItem → PoolState
  | .queued queued =>
      match (pool.writers group).session with
      | none =>
          pool.setWriter group
            { pool.writers group with stage := .create queued }
      | some session =>
          if session.shouldRotateBefore limits queued.event then
            pool.beginFinish group (.add queued)
          else pool.addEvent limits group session queued tooOld
  | .rotate tag => pool.beginFinish group (.rotate tag)
  | .stop => pool.beginFinish group .stop

/-- `release`, which raises when the budget becomes negative. -/
def release (pool : PoolState) (reserved : Nat) : Option PoolState :=
  if reserved ≤ pool.usedBytes then
    some { pool with usedBytes := pool.usedBytes - reserved }
  else none

/-- What `finish` notes once the day index has recorded the chunk. -/
def noteRecorded (pool : PoolState) (group : WriterGroup)
    (chunk : FinishedChunk) (index : DayIndex FinishedChunk) : PoolState :=
  ({ pool with index := index }).setWriter group
    { pool.writers group with
      durableThroughNs :=
        some (max ((pool.writers group).durableThroughNs.getD 0)
          chunk.maxAppReceiveRealtimeNs) }

/-- A writer advances to its next await; it may have to wait. -/
def workStep (limits : ChunkLimits) (pool : PoolState) (group : WriterGroup)
    (tooOld : Bool) : Option PoolState :=
  let writer := pool.writers group
  match writer.stage, writer.session with
  | .wait, _ =>
      match writer.queue with
      | [] => none
      | item :: later =>
          some
            ((pool.setWriter group { writer with queue := later }).takeItem
              limits group tooOld item)
  | .create queued, _ =>
      some
        (({ pool with chunksCreated := pool.chunksCreated + 1 }).addEvent
          limits group
          { chunkId := pool.chunksCreated
            utcDate := queued.event.receiveDate
            tag := writer.tag }
          queued tooOld)
  | .flushBatch, some session =>
      let (flushed, reserved) := session.flush
      if reserved = 0 then
        some
          ((pool.setWriter group
            { writer with session := some flushed }).checkFull
              limits group flushed tooOld)
      else
        some
          (pool.setWriter group
            { writer with
              session := some flushed
              stage := .releaseBatch reserved })
  | .releaseBatch reserved, some session =>
      match pool.release reserved with
      | none => some (pool.fail group .wait)
      | some pool => some (pool.checkFull limits group session tooOld)
  | .flush resume, some session =>
      let (flushed, reserved) := session.flush
      some
        (pool.setWriter group
          { writer with
            session := some flushed
            stage :=
              if reserved = 0 then .close resume
              else .release reserved resume })
  | .release reserved resume, _ =>
      match pool.release reserved with
      | none => some (pool.fail group resume)
      | some pool =>
          some
            (pool.setWriter group
              { pool.writers group with stage := .close resume })
  | .close resume, some session =>
      match session.finish group with
      | none => some (pool.fail group resume)
      | some chunk =>
          some
            (pool.setWriter group
              { writer with
                session := none
                finished := writer.finished ++ [chunk]
                stage := .record chunk resume })
  | .record chunk resume, _ =>
      match pool.index.recordGenerated chunk.utcDate chunk with
      | .error _ => some (pool.fail group resume)
      | .ok index =>
          some ((pool.noteRecorded group chunk index).resumeWith group resume)
  | .flushBatch, none | .releaseBatch _, none | .flush _, none
  | .close _, none => none
  | .stopped, _ | .failed _, _ => none

end PoolState

/-! ## The pool as a machine -/

/--
What may happen to the pool.  Tasks which wait for `put` or `rotate` are not
part of the state: the label stands for the moment they get the boundary lock.
-/
inductive PoolLabel where
  | put (event : RawEvent)
  | rotate (universeHash : String)
  | cancelRotate
  | returnRotate
  | stop
  | timeout (group : WriterGroup) (tooOld : Bool)
  | work (group : WriterGroup) (tooOld : Bool)
  | sealDay (utcDate : Nat)
deriving DecidableEq, Repr

namespace PoolState

/-- `put`, once the budget allows it. -/
def accept (pool : PoolState) (event : RawEvent) : PoolState :=
  let writer := pool.writers event.writerGroup
  ({ pool with
      usedBytes := pool.usedBytes + event.approximateSizeBytes }).setWriter
    event.writerGroup
    { writer with
      queue := writer.queue ++
        [WriterItem.queued ⟨event, event.approximateSizeBytes, rfl⟩]
      accepted := writer.accepted ++ [(pool.rotations, event)] }

/-- `rotate_all` sends its control item through every queue. -/
def beginRotate (pool : PoolState) (universeHash : String) : PoolState :=
  let tag : UniverseTag := ⟨pool.hashes.length, universeHash⟩
  { pool with
    writers := fun group =>
      if group ∈ queuedGroups then
        { pool.writers group with
          queue := (pool.writers group).queue ++ [.rotate tag] }
      else pool.writers group
    hashes := pool.hashes ++ [universeHash]
    rotation := some ⟨tag, queuedGroups⟩ }

/-- `WriterPool.stop`. -/
def beginStop (pool : PoolState) : PoolState :=
  { pool with
    writers := fun group =>
      if group ∈ queuedGroups ∧ ¬ (pool.writers group).isDone then
        { pool.writers group with
          queue := (pool.writers group).queue ++ [.stop] }
      else pool.writers group }

end PoolState

/-- One step of the pool between two awaits. -/
def poolStep (limits : ChunkLimits) (maxBytes : Nat) (pool : PoolState) :
    PoolLabel → Option PoolState
  | .put event =>
      if pool.rotation ≠ none then none
      else if maxBytes < pool.usedBytes + event.approximateSizeBytes then
        some pool
      else some (pool.accept event)
  | .rotate universeHash =>
      if pool.rotation = none then some (pool.beginRotate universeHash)
      else none
  | .cancelRotate =>
      pool.rotation.map fun rotation =>
        { pool with
          rotation := none
          cancelled := rotation.tag.rotation :: pool.cancelled }
  | .returnRotate =>
      match pool.rotation with
      | some ⟨tag, []⟩ =>
          some
            { pool with
              rotation := none
              returned := tag :: pool.returned }
      | _ => none
  | .stop => some pool.beginStop
  | .timeout group tooOld =>
      if group ∈ queuedGroups ∧ (pool.writers group).stage = .wait then
        if (pool.writers group).session.isSome && tooOld then
          some (pool.beginFinish group .wait)
        else some pool
      else none
  | .work group tooOld =>
      if group ∈ queuedGroups then pool.workStep limits group tooOld
      else none
  | .sealDay utcDate =>
      some { pool with index := pool.index.sealDay utcDate }

end ShadowDataPlane.Edge
