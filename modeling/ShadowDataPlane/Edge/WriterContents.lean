import Mathlib.Algebra.BigOperators.Group.List.Basic
import ShadowDataPlane.Edge.WriterPool

/-!
# What a writer holds

The accepted events of a writer group are, in the order of acceptance, the
rows of its finished chunks, the open chunk, an event which the writer holds,
and the queue.  `Writer.entries` lists them place by place, each numbered by
the `rotate` call it follows.

`WriterSound` says that the accepted events are these entries, that chunks are
what their manifests promise, and what the day index has recorded.  The rest
of the module says which changes of a writer keep it sound.
-/

namespace ShadowDataPlane.Edge

open ShadowDataPlane.Foundation
open ShadowDataPlane.Contracts

/-! ## Open chunks -/

def totalSize (rows : List RawEvent) : Nat :=
  (rows.map RawEvent.approximateSizeBytes).sum

def receiveTimes (rows : List RawEvent) : List Nat :=
  rows.map RawEvent.appReceiveRealtimeNs

/-- The events of an open chunk. -/
def ChunkSession.events (session : ChunkSession) : List RawEvent :=
  session.rows ++ session.batch.map QueuedEvent.event

/-- The counters of an open chunk are those of its events. -/
structure SessionSound (limits : ChunkLimits) (session : ChunkSession) :
    Prop where
  count : session.eventCount = session.events.length
  bytes : session.estimatedBytes = totalSize session.events
  earliest : session.minRealtimeNs = (receiveTimes session.events).min?
  latest : session.maxRealtimeNs = (receiveTimes session.events).max?
  date : ∀ event ∈ session.events, event.receiveDate = session.utcDate
  withinEvents : session.events.length ≤ limits.maxEvents
  withinBytes : session.events.length ≤ 1 ∨
    totalSize session.events ≤ limits.maxBytes

/-- What the manifest of a chunk promises, and the limits of a chunk. -/
structure ChunkExact (limits : ChunkLimits) (chunk : FinishedChunk) :
    Prop where
  count : chunk.eventCount = chunk.rows.length
  earliest : (receiveTimes chunk.rows).min? =
    some chunk.minAppReceiveRealtimeNs
  latest : (receiveTimes chunk.rows).max? =
    some chunk.maxAppReceiveRealtimeNs
  date : ∀ event ∈ chunk.rows, event.receiveDate = chunk.utcDate
  withinEvents : chunk.rows.length ≤ limits.maxEvents
  withinBytes : chunk.rows.length = 1 ∨
    totalSize chunk.rows ≤ limits.maxBytes

theorem min?_concat (items : List Nat) (item : Nat) :
    (items ++ [item]).min? =
      some (match items.min? with
        | none => item
        | some earliest => min earliest item) := by
  cases items with
  | nil => rfl
  | cons first rest =>
      rw [List.cons_append, List.min?_cons', List.min?_cons',
        List.foldl_append]
      rfl

theorem max?_concat (items : List Nat) (item : Nat) :
    (items ++ [item]).max? =
      some (match items.max? with
        | none => item
        | some latest => max latest item) := by
  cases items with
  | nil => rfl
  | cons first rest =>
      rw [List.cons_append, List.max?_cons', List.max?_cons',
        List.foldl_append]
      rfl

section Sessions

variable {limits : ChunkLimits} {session : ChunkSession}

@[simp]
theorem events_add (limits : ChunkLimits) (session : ChunkSession)
    (queued : QueuedEvent) :
    (session.add limits queued).1.events =
      session.events ++ [queued.event] := by
  simp [ChunkSession.add, ChunkSession.events]

@[simp]
theorem events_flush (session : ChunkSession) :
    session.flush.1.events = session.events := by
  simp [ChunkSession.flush, ChunkSession.events]

/-- An event which does not ask for a new chunk keeps the limits. -/
theorem fits_of_not_shouldRotateBefore
    {event : RawEvent}
    (stays : session.shouldRotateBefore limits event = false) :
    event.receiveDate = session.utcDate ∧
      (session.eventCount ≠ 0 →
        session.estimatedBytes + event.approximateSizeBytes ≤
            limits.maxBytes ∧
          session.eventCount + 1 ≤ limits.maxEvents) := by
  unfold ChunkSession.shouldRotateBefore at stays
  split at stays
  next => simp at stays
  next sameDate =>
    refine ⟨not_not.mp sameDate, ?_⟩
    intro nonempty
    rw [if_neg nonempty] at stays
    simpa using stays

theorem SessionSound.add
    (sound : SessionSound limits session) {queued : QueuedEvent}
    (stays : session.shouldRotateBefore limits queued.event = false) :
    SessionSound limits (session.add limits queued).1 := by
  rcases fits_of_not_shouldRotateBefore stays with ⟨sameDate, fits⟩
  have size : totalSize (session.events ++ [queued.event]) =
      totalSize session.events + queued.event.approximateSizeBytes := by
    simp [totalSize]
  have times : receiveTimes (session.events ++ [queued.event]) =
      receiveTimes session.events ++
        [queued.event.appReceiveRealtimeNs] := by
    simp [receiveTimes]
  exact {
    count := by
      rw [events_add, List.length_append, ← sound.count]
      rfl
    bytes := by
      rw [events_add, size, ← sound.bytes, ← queued.exact]
      rfl
    earliest := by
      rw [events_add, times, min?_concat, ← sound.earliest]
      rfl
    latest := by
      rw [events_add, times, max?_concat, ← sound.latest]
      rfl
    date := by
      intro event member
      rw [events_add, List.mem_append, List.mem_singleton] at member
      rcases member with old | rfl
      · exact sound.date event old
      · exact sameDate
    withinEvents := by
      rw [events_add, List.length_append, ← sound.count]
      by_cases empty : session.eventCount = 0
      · rw [empty]
        exact limits.maxEventsPos
      · exact (fits empty).2
    withinBytes := by
      rw [events_add, List.length_append, ← sound.count, size,
        ← sound.bytes]
      by_cases empty : session.eventCount = 0
      · rw [empty]
        exact Or.inl (le_refl _)
      · exact Or.inr (fits empty).1 }

theorem SessionSound.flush
    (sound : SessionSound limits session) :
    SessionSound limits session.flush.1 where
  count := by
    rw [events_flush]
    exact sound.count
  bytes := by
    rw [events_flush]
    exact sound.bytes
  earliest := by
    rw [events_flush]
    exact sound.earliest
  latest := by
    rw [events_flush]
    exact sound.latest
  date := by
    rw [events_flush]
    exact sound.date
  withinEvents := by
    rw [events_flush]
    exact sound.withinEvents
  withinBytes := by
    rw [events_flush]
    exact sound.withinBytes

theorem finish_eq_some
    {group : WriterGroup} {chunk : FinishedChunk}
    (finished : session.finish group = some chunk) :
    session.batch = [] ∧ session.eventCount ≠ 0 ∧
      session.minRealtimeNs = some chunk.minAppReceiveRealtimeNs ∧
      session.maxRealtimeNs = some chunk.maxAppReceiveRealtimeNs ∧
      chunk.writerGroup = group ∧ chunk.utcDate = session.utcDate ∧
      chunk.tag = session.tag ∧ chunk.eventCount = session.eventCount ∧
      chunk.rows = session.rows := by
  unfold ChunkSession.finish at finished
  split at finished
  next => cases finished
  next written =>
    split at finished
    next => cases finished
    next nonempty =>
      split at finished
      next earliest latest isEarliest isLatest =>
        cases finished
        exact ⟨not_not.mp written, nonempty, isEarliest, isLatest,
          rfl, rfl, rfl, rfl, rfl⟩
      next => cases finished

theorem SessionSound.finish
    (sound : SessionSound limits session) {group : WriterGroup}
    {chunk : FinishedChunk} (finished : session.finish group = some chunk) :
    chunk.rows = session.events ∧ ChunkExact limits chunk := by
  rcases finish_eq_some finished with ⟨written, nonempty, isEarliest,
    isLatest, _, sameDate, _, sameCount, sameRows⟩
  have rows : chunk.rows = session.events := by
    rw [sameRows, ChunkSession.events, written]
    simp
  refine ⟨rows, ?_⟩
  exact {
    count := by
      rw [sameCount, rows]
      exact sound.count
    earliest := by
      rw [rows, ← sound.earliest]
      exact isEarliest
    latest := by
      rw [rows, ← sound.latest]
      exact isLatest
    date := by
      rw [rows, sameDate]
      exact sound.date
    withinEvents := by
      rw [rows]
      exact sound.withinEvents
    withinBytes := by
      rw [rows]
      rw [sound.count] at nonempty
      rcases sound.withinBytes with single | within
      · exact Or.inl (by omega)
      · exact Or.inr within }

end Sessions

/-! ## What a writer holds -/

/-- Events, numbered by the `rotate` call which they follow. -/
def tagged (rotation : Nat) (rows : List RawEvent) : List (Nat × RawEvent) :=
  rows.map (Prod.mk rotation)

/-- The events of a queue, numbered from the call which comes before it. -/
def queueEntries : Nat → List WriterItem → List (Nat × RawEvent)
  | _, [] => []
  | rotation, .queued queued :: later =>
      (rotation, queued.event) :: queueEntries rotation later
  | _, .rotate tag :: later => queueEntries tag.rotation later
  | rotation, .stop :: later => queueEntries rotation later

/-- The last `rotate` call whose item is in a queue. -/
def lastRotation : Nat → List WriterItem → Nat
  | rotation, [] => rotation
  | _, .rotate tag :: later => lastRotation tag.rotation later
  | rotation, .queued _ :: later | rotation, .stop :: later =>
      lastRotation rotation later

/-- The items of `rotate` calls stand in the order of the calls. -/
def Rising : Nat → List WriterItem → Prop
  | _, [] => True
  | rotation, .rotate tag :: later =>
      rotation ≤ tag.rotation ∧ Rising tag.rotation later
  | rotation, .queued _ :: later | rotation, .stop :: later =>
      Rising rotation later

/-- The event which a writer holds while it finishes a chunk. -/
def Resume.hand : Resume → List RawEvent
  | .add queued => [queued.event]
  | .wait | .rotate _ | .stop => []

/-- The number of the call which the rest of the queue follows. -/
def Resume.rotation (current : Nat) : Resume → Nat
  | .rotate tag => tag.rotation
  | .add _ | .wait | .stop => current

/-- What the writer is about to do when its stage is over. -/
def WriterStage.resume : WriterStage → Resume
  | .create queued => .add queued
  | .flush resume | .release _ resume | .close resume | .record _ resume
  | .failed resume => resume
  | .wait | .flushBatch | .releaseBatch _ => .wait
  | .stopped => .stop

@[simp]
theorem resume_flush (resume : Resume) :
    (WriterStage.flush resume).resume = resume :=
  rfl

/-- No chunk is open in these stages, and what is recorded is finished. -/
def WriterStage.Fits (session : Option ChunkSession)
    (finished : List FinishedChunk) : WriterStage → Prop
  | .create _ => session = none
  | .record chunk _ => session = none ∧ chunk ∈ finished
  | _ => True

/-- A finished chunk which the day index need not know yet. -/
def WriterStage.MayMiss (chunk : FinishedChunk) : WriterStage → Prop
  | .record current _ => chunk = current
  | .failed _ => True
  | _ => False

/-- What a resumption does with an item of the queue. -/
def WriterItem.resume : WriterItem → Resume
  | .queued item => .add item
  | .rotate tag => .rotate tag
  | .stop => .stop

namespace Writer

/-- The events of the open chunk. -/
def openRows (writer : Writer) : List RawEvent :=
  writer.session.elim [] ChunkSession.events

/-- The number of the call which the queue follows. -/
def queueStart (writer : Writer) : Nat :=
  writer.stage.resume.rotation writer.tag.rotation

/-- All events which have not been finished or put into a chunk. -/
def waitingRows (writer : Writer) : List RawEvent :=
  writer.stage.resume.hand ++
    (queueEntries writer.queueStart writer.queue).map Prod.snd

/-- What a writer has been given, in the order of its places. -/
def entries (writer : Writer) : List (Nat × RawEvent) :=
  (writer.finished.flatMap fun chunk =>
      tagged chunk.tag.rotation chunk.rows) ++
    (tagged writer.tag.rotation writer.openRows ++
      (tagged writer.tag.rotation writer.stage.resume.hand ++
        queueEntries writer.queueStart writer.queue))

end Writer

/-- The universe hash which the `rotate` call of the tag has brought. -/
def Brought (hashes : List String) (tag : UniverseTag) : Prop :=
  hashes[tag.rotation]? = some tag.hash

/-- What holds of one writer between any two steps. -/
structure WriterSound (limits : ChunkLimits) (group : WriterGroup)
    (hashes : List String) (index : DayIndex FinishedChunk)
    (writer : Writer) : Prop where
  accepted : writer.accepted = writer.entries
  last : lastRotation writer.queueStart writer.queue + 1 = hashes.length
  forward : writer.tag.rotation ≤ writer.queueStart
  rising : Rising writer.queueStart writer.queue
  session : ∀ session ∈ writer.session,
    SessionSound limits session ∧ session.tag = writer.tag
  fits : writer.stage.Fits writer.session writer.finished
  finished : ∀ chunk ∈ writer.finished,
    ChunkExact limits chunk ∧ chunk.writerGroup = group ∧
      Brought hashes chunk.tag
  known : Brought hashes writer.tag
  resumed : ∀ tag, writer.stage.resume = .rotate tag → Brought hashes tag
  queued : ∀ tag, .rotate tag ∈ writer.queue → Brought hashes tag
  recorded : ∀ chunk ∈ writer.finished,
    chunk ∈ index.refs chunk.utcDate ∨
      chunk.tag = writer.tag ∧ writer.stage.MayMiss chunk

section Queues

theorem queueEntries_append (rotation : Nat) (items later : List WriterItem) :
    queueEntries rotation (items ++ later) =
      queueEntries rotation items ++
        queueEntries (lastRotation rotation items) later := by
  induction items generalizing rotation with
  | nil => rfl
  | cons item items induction =>
      cases item with
      | queued queued =>
          simp only [List.cons_append, queueEntries, lastRotation, induction]
      | rotate tag =>
          simp only [List.cons_append, queueEntries, lastRotation, induction]
      | stop =>
          simp only [List.cons_append, queueEntries, lastRotation, induction]

theorem lastRotation_append (rotation : Nat) (items later : List WriterItem) :
    lastRotation rotation (items ++ later) =
      lastRotation (lastRotation rotation items) later := by
  induction items generalizing rotation with
  | nil => rfl
  | cons item items induction =>
      cases item <;> exact induction _

theorem Rising.append
    {rotation : Nat} {items later : List WriterItem}
    (rising : Rising rotation items)
    (more : Rising (lastRotation rotation items) later) :
    Rising rotation (items ++ later) := by
  induction items generalizing rotation with
  | nil => exact more
  | cons item items induction =>
      cases item with
      | queued queued => exact induction rising more
      | rotate tag => exact ⟨rising.1, induction rising.2 more⟩
      | stop => exact induction rising more

theorem le_of_mem_queueEntries
    {rotation : Nat} {items : List WriterItem} {entry : Nat × RawEvent}
    (rising : Rising rotation items)
    (member : entry ∈ queueEntries rotation items) : rotation ≤ entry.1 := by
  induction items generalizing rotation with
  | nil => cases member
  | cons item items induction =>
      cases item with
      | queued queued =>
          rcases List.mem_cons.mp member with rfl | later
          · exact le_refl _
          · exact induction rising later
      | rotate tag => exact rising.1.trans (induction rising.2 member)
      | stop => exact induction rising member

theorem Brought.append
    {hashes : List String} {tag : UniverseTag} (known : Brought hashes tag)
    (more : List String) : Brought (hashes ++ more) tag := by
  have inside : tag.rotation < hashes.length :=
    (List.getElem?_eq_some_iff.mp known).1
  rw [Brought, List.getElem?_append_left inside]
  exact known

end Queues

/-! ## Changes of one writer -/

section Writers

variable {limits : ChunkLimits} {group : WriterGroup} {hashes : List String}
  {index later : DayIndex FinishedChunk} {writer : Writer}

/-- The day index never forgets. -/
theorem WriterSound.mono
    (sound : WriterSound limits group hashes index writer)
    (grows : ∀ date chunk, chunk ∈ index.refs date →
      chunk ∈ later.refs date) :
    WriterSound limits group hashes later writer :=
  { sound with
    recorded := fun chunk member =>
      (sound.recorded chunk member).imp_left (grows _ chunk) }

/-- A stage which goes on to do the same. -/
theorem WriterSound.restage
    (sound : WriterSound limits group hashes index writer)
    {stage : WriterStage} (same : stage.resume = writer.stage.resume)
    (fits : stage.Fits writer.session writer.finished)
    (recorded : ∀ chunk ∈ writer.finished,
      chunk ∈ index.refs chunk.utcDate ∨
        chunk.tag = writer.tag ∧ stage.MayMiss chunk) :
    WriterSound limits group hashes index
      { writer with stage := stage } where
  accepted := by
    have entries : ({ writer with stage := stage } : Writer).entries =
        writer.entries := by
      simp only [Writer.entries, Writer.queueStart, Writer.openRows, same]
    rw [entries]
    exact sound.accepted
  last := by
    simp only [Writer.queueStart, same]
    exact sound.last
  forward := by
    simp only [Writer.queueStart, same]
    exact sound.forward
  rising := by
    simp only [Writer.queueStart, same]
    exact sound.rising
  session := sound.session
  fits := fits
  finished := sound.finished
  known := sound.known
  resumed := by
    rw [same]
    exact sound.resumed
  queued := sound.queued
  recorded := recorded

/-- Nothing is missing from the day index outside of these stages. -/
theorem WriterSound.all_recorded
    (sound : WriterSound limits group hashes index writer)
    (certain : ∀ chunk, ¬ writer.stage.MayMiss chunk) :
    ∀ chunk ∈ writer.finished, chunk ∈ index.refs chunk.utcDate := by
  intro chunk member
  rcases sound.recorded chunk member with known | ⟨_, missed⟩
  · exact known
  · exact absurd missed (certain chunk)

/-- An item taken from the queue is what the writer goes on with. -/
theorem WriterSound.take
    {item : WriterItem} {items : List WriterItem}
    (sound : WriterSound limits group hashes index writer)
    (waiting : writer.stage = .wait) (head : writer.queue = item :: items) :
    WriterSound limits group hashes index
      { writer with
        queue := items
        stage := .flush item.resume } := by
  have start : writer.queueStart = writer.tag.rotation := by
    rw [Writer.queueStart, waiting]
    rfl
  have recorded := sound.all_recorded (by simp [waiting, WriterStage.MayMiss])
  have accepted := sound.accepted
  have last := sound.last
  have rising := sound.rising
  rw [Writer.entries, start, head, waiting] at accepted
  rw [start, head] at last rising
  exact {
    accepted := by
      cases item <;> exact accepted
    last := by
      cases item <;> exact last
    forward := by
      cases item with
      | queued queued => exact le_refl _
      | rotate tag => exact rising.1
      | stop => exact le_refl _
    rising := by
      cases item with
      | queued queued => exact rising
      | rotate tag => exact rising.2
      | stop => exact rising
    session := sound.session
    fits := trivial
    finished := sound.finished
    known := sound.known
    resumed := by
      intro tag isRotate
      apply sound.queued tag
      rw [head]
      cases item <;> cases isRotate
      exact List.mem_cons_self
    queued := by
      intro tag member
      apply sound.queued tag
      rw [head]
      exact List.mem_cons_of_mem item member
    recorded := fun chunk member => Or.inl (recorded chunk member) }

/-- A `rotate` which the writer has reached, with no chunk open. -/
theorem WriterSound.reach
    {tag : UniverseTag} {stage : WriterStage}
    (sound : WriterSound limits group hashes index
      { writer with stage := .flush (.rotate tag) })
    (closed : writer.session = none)
    (reached : stage.resume = .wait ∨ stage.resume = .rotate tag)
    (fits : stage.Fits none writer.finished) :
    WriterSound limits group hashes index
      { writer with
        tag := tag
        stage := stage } := by
  have start : ({ writer with tag := tag, stage := stage } : Writer).queueStart =
      tag.rotation := by
    rcases reached with isWait | isRotate
    · rw [Writer.queueStart, isWait]
      rfl
    · rw [Writer.queueStart, isRotate]
      rfl
  have hand : stage.resume.hand = [] := by
    rcases reached with isWait | isRotate
    · rw [isWait]
      rfl
    · rw [isRotate]
      rfl
  have recorded := sound.all_recorded fun _ => id
  exact {
    accepted := by
      have accepted := sound.accepted
      rw [Writer.entries] at accepted ⊢
      rw [start]
      simp only [Writer.openRows, closed, hand]
      simpa [Writer.openRows, closed, Writer.queueStart, Resume.hand,
        Resume.rotation, tagged] using accepted
    last := by
      rw [start]
      exact sound.last
    forward := start.ge
    rising := by
      rw [start]
      exact sound.rising
    session := by
      rw [closed]
      rintro session ⟨⟩
    fits := by
      rw [closed]
      exact fits
    finished := sound.finished
    known := sound.resumed tag rfl
    resumed := by
      rcases reached with isWait | isRotate
      · rw [isWait]
        rintro other ⟨⟩
      · rw [isRotate]
        rintro other ⟨⟩
        exact sound.resumed tag rfl
    queued := sound.queued
    recorded := fun chunk member => Or.inl (recorded chunk member) }

/-- The event at hand enters the open chunk. -/
theorem WriterSound.add
    {session : ChunkSession} {queued : QueuedEvent} {stage : WriterStage}
    (sound : WriterSound limits group hashes index
      { writer with
        session := some session
        stage := .flush (.add queued) })
    (stays : session.shouldRotateBefore limits queued.event = false)
    (waits : stage.resume = .wait)
    (fits : stage.Fits (some (session.add limits queued).1)
      writer.finished) :
    WriterSound limits group hashes index
      { writer with
        session := some (session.add limits queued).1
        stage := stage } := by
  have start : stage.resume.rotation writer.tag.rotation =
      writer.tag.rotation := by
    rw [waits]
    rfl
  have hand : stage.resume.hand = [] := by
    rw [waits]
    rfl
  have recorded := sound.all_recorded fun _ => id
  exact {
    accepted := by
      have accepted := sound.accepted
      simp only [Writer.entries, Writer.openRows, Writer.queueStart,
        Option.elim_some, resume_flush] at accepted ⊢
      rw [start, hand, accepted, events_add]
      simp [tagged, Resume.hand, Resume.rotation]
    last := by
      simp only [Writer.queueStart, start]
      exact sound.last
    forward := by
      simp only [Writer.queueStart, start]
      exact le_refl _
    rising := by
      simp only [Writer.queueStart, start]
      exact sound.rising
    session := by
      rintro _ ⟨⟩
      rcases sound.session session rfl with ⟨isSound, sameTag⟩
      exact ⟨isSound.add stays, sameTag⟩
    fits := fits
    finished := sound.finished
    known := sound.known
    resumed := by
      rw [waits]
      rintro tag ⟨⟩
    queued := sound.queued
    recorded := fun chunk member => Or.inl (recorded chunk member) }

theorem WriterSound.fail
    (sound : WriterSound limits group hashes index writer) {resume : Resume}
    (same : resume = writer.stage.resume) :
    WriterSound limits group hashes index
      { writer with stage := .failed resume } := by
  have failed : (WriterStage.failed resume).resume = writer.stage.resume :=
    same
  apply sound.restage failed trivial
  intro chunk member
  apply (sound.recorded chunk member).imp_right
  rintro ⟨sameTag, _⟩
  exact ⟨sameTag, trivial⟩

/-- Writing the batch changes none of the events of a chunk. -/
theorem WriterSound.flushed
    {session : ChunkSession} {stage : WriterStage}
    (sound : WriterSound limits group hashes index writer)
    (isOpen : writer.session = some session)
    (same : stage.resume = writer.stage.resume)
    (certain : ∀ chunk, ¬ writer.stage.MayMiss chunk)
    (fits : ∀ session, stage.Fits session writer.finished) :
    WriterSound limits group hashes index
      { writer with
        session := some session.flush.1
        stage := stage } := by
  have restaged : WriterSound limits group hashes index
      { writer with stage := stage } := by
    apply sound.restage same
    · exact fits _
    · exact fun chunk member =>
        Or.inl (sound.all_recorded certain chunk member)
  rcases sound.session session isOpen with ⟨isSound, sameTag⟩
  have rows : ({ writer with
      session := some session.flush.1
      stage := stage } : Writer).openRows =
        ({ writer with stage := stage } : Writer).openRows := by
    rw [Writer.openRows, Writer.openRows, isOpen]
    exact events_flush session
  exact {
    restaged with
    accepted := by
      have accepted := restaged.accepted
      rw [Writer.entries, ← rows] at accepted
      exact accepted
    session := by
      rintro _ ⟨⟩
      exact ⟨isSound.flush, sameTag⟩
    fits := fits _ }

/-- The open chunk becomes the last finished one. -/
theorem WriterSound.close
    {session : ChunkSession} {chunk : FinishedChunk} {resume : Resume}
    (sound : WriterSound limits group hashes index writer)
    (isOpen : writer.session = some session)
    (closing : writer.stage = .close resume)
    (finished : session.finish group = some chunk) :
    WriterSound limits group hashes index
      { writer with
        session := none
        finished := writer.finished ++ [chunk]
        stage := .record chunk resume } := by
  rcases sound.session session isOpen with ⟨isSound, sameTag⟩
  rcases isSound.finish finished with ⟨rows, exactly⟩
  rcases finish_eq_some finished with ⟨_, _, _, _, isGroup, _, isTag, _, _⟩
  have same : (WriterStage.record chunk resume).resume =
      writer.stage.resume := by
    rw [closing]
    rfl
  have start : (WriterStage.record chunk resume).resume.rotation
      writer.tag.rotation = writer.queueStart := by
    rw [same]
    rfl
  have recorded := sound.all_recorded
    (by simp [closing, WriterStage.MayMiss])
  exact {
    accepted := by
      have accepted := sound.accepted
      rw [Writer.entries, Writer.openRows, isOpen] at accepted
      simp only [Writer.entries, Writer.openRows, Option.elim_none]
      rw [Writer.queueStart, start, same, accepted, List.flatMap_append]
      simp [tagged, rows, isTag, sameTag]
    last := by
      rw [Writer.queueStart, start]
      exact sound.last
    forward := by
      rw [Writer.queueStart, start]
      exact sound.forward
    rising := by
      rw [Writer.queueStart, start]
      exact sound.rising
    session := by
      rintro _ ⟨⟩
    fits := ⟨rfl, List.mem_append_right _ List.mem_cons_self⟩
    finished := by
      intro other member
      rcases List.mem_append.mp member with old | new
      · exact sound.finished other old
      · rw [List.mem_singleton.mp new, isTag, sameTag]
        exact ⟨exactly, isGroup, sound.known⟩
    known := sound.known
    resumed := by
      rw [same]
      exact sound.resumed
    queued := sound.queued
    recorded := by
      intro other member
      rcases List.mem_append.mp member with old | new
      · exact Or.inl (recorded other old)
      · rw [List.mem_singleton.mp new]
        exact Or.inr ⟨isTag.trans sameTag, rfl⟩ }

/-- A new chunk is opened for the event at hand. -/
theorem WriterSound.create
    {queued : QueuedEvent}
    (sound : WriterSound limits group hashes index writer)
    (creating : writer.stage = .create queued) (chunkId utcDate : Nat) :
    WriterSound limits group hashes index
      { writer with
        session := some
          { chunkId := chunkId
            utcDate := utcDate
            tag := writer.tag }
        stage := .flush (.add queued) } := by
  have closed : writer.session = none := by
    have fits := sound.fits
    rw [creating] at fits
    exact fits
  have restaged : WriterSound limits group hashes index
      { writer with stage := .flush (.add queued) } := by
    apply sound.restage
    · rw [creating]
      rfl
    · trivial
    · intro chunk member
      exact Or.inl (sound.all_recorded
        (by simp [creating, WriterStage.MayMiss]) chunk member)
  exact {
    restaged with
    accepted := by
      have accepted := restaged.accepted
      rw [Writer.entries, Writer.openRows, closed] at accepted
      exact accepted
    session := by
      rintro _ ⟨⟩
      refine ⟨?_, rfl⟩
      exact {
        count := rfl
        bytes := rfl
        earliest := rfl
        latest := rfl
        date := by
          rintro event ⟨⟩
        withinEvents := Nat.zero_le _
        withinBytes := Or.inl (Nat.zero_le _) }
    fits := trivial }

/-- An item at the end of a queue. -/
theorem WriterSound.enqueue
    (sound : WriterSound limits group hashes index writer)
    (more : List String) (item : WriterItem)
    {accepted : List (Nat × RawEvent)}
    (entries : accepted = writer.accepted ++
      queueEntries (lastRotation writer.queueStart writer.queue) [item])
    (last : lastRotation (lastRotation writer.queueStart writer.queue)
      [item] + 1 = (hashes ++ more).length)
    (rising : Rising (lastRotation writer.queueStart writer.queue) [item])
    (known : ∀ tag, item = .rotate tag → Brought (hashes ++ more) tag) :
    WriterSound limits group (hashes ++ more) index
      { writer with
        queue := writer.queue ++ [item]
        accepted := accepted } where
  accepted := by
    rw [entries, sound.accepted]
    simp only [Writer.entries, Writer.queueStart, Writer.openRows,
      queueEntries_append, List.append_assoc]
  last := by
    have total := last
    rw [← lastRotation_append] at total
    exact total
  forward := sound.forward
  rising := sound.rising.append rising
  session := sound.session
  fits := sound.fits
  finished := fun chunk member =>
    (sound.finished chunk member).imp_right fun rest =>
      rest.imp_right fun isKnown => isKnown.append more
  known := sound.known.append more
  resumed := fun tag isRotate => (sound.resumed tag isRotate).append more
  queued := by
    intro tag member
    rcases List.mem_append.mp member with old | new
    · exact (sound.queued tag old).append more
    · exact known tag (List.mem_singleton.mp new).symm
  recorded := sound.recorded

@[simp]
theorem map_snd_tagged (rotation : Nat) (rows : List RawEvent) :
    (tagged rotation rows).map Prod.snd = rows := by
  simp [tagged, Function.comp_def]

theorem filter_flatMap_tagged
    (keeps : Nat → Bool) (chunks : List FinishedChunk) :
    (chunks.flatMap fun chunk =>
        tagged chunk.tag.rotation chunk.rows).filter
          (fun entry => keeps entry.1) =
      (chunks.filter fun chunk => keeps chunk.tag.rotation).flatMap
        fun chunk => tagged chunk.tag.rotation chunk.rows := by
  induction chunks with
  | nil => rfl
  | cons chunk chunks induction =>
      rw [List.flatMap_cons, List.filter_append, induction,
        List.filter_cons]
      split
      next kept =>
        rw [List.flatMap_cons, List.filter_eq_self.mpr]
        simp [tagged, kept]
      next dropped =>
        rw [List.filter_eq_nil_iff.mpr, List.nil_append]
        simp [tagged, dropped]

theorem map_snd_flatMap_tagged (chunks : List FinishedChunk) :
    (chunks.flatMap fun chunk =>
        tagged chunk.tag.rotation chunk.rows).map Prod.snd =
      chunks.flatMap FinishedChunk.rows := by
  rw [List.map_flatMap]
  simp only [map_snd_tagged]

/-- What follows the finished chunks among the entries. -/
def Writer.laterEntries (writer : Writer) : List (Nat × RawEvent) :=
  tagged writer.tag.rotation writer.openRows ++
    (tagged writer.tag.rotation writer.stage.resume.hand ++
      queueEntries writer.queueStart writer.queue)

theorem map_snd_laterEntries (writer : Writer) :
    writer.laterEntries.map Prod.snd =
      writer.openRows ++ writer.waitingRows := by
  rw [Writer.laterEntries, List.map_append, List.map_append, map_snd_tagged,
    map_snd_tagged, Writer.waitingRows]

theorem WriterSound.le_of_mem_laterEntries
    (sound : WriterSound limits group hashes index writer)
    {entry : Nat × RawEvent} (member : entry ∈ writer.laterEntries) :
    writer.tag.rotation ≤ entry.1 := by
  rcases List.mem_append.mp member with isOpen | waiting
  · rcases List.mem_map.mp isOpen with ⟨event, _, rfl⟩
    exact le_refl _
  · rcases List.mem_append.mp waiting with held | isQueued
    · rcases List.mem_map.mp held with ⟨event, _, rfl⟩
      exact le_refl _
    · exact sound.forward.trans (le_of_mem_queueEntries sound.rising isQueued)

end Writers

end ShadowDataPlane.Edge
