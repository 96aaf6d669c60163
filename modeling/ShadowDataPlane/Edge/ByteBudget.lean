import Mathlib.Algebra.Order.BigOperators.Group.List
import ShadowDataPlane.Edge.WriterPartition

/-!
# The byte budget of the queues

`put` reserves the size of an event, and `release` gives it back once the
event is in the file of a chunk.  In between the event is in a queue, in the
hands of its writer, in a batch, or in rows whose bytes are yet to be
released.  The used bytes are those of the four places together, whatever the
writers are doing (`strict_budget`).

An event is in the hands of a writer while the writer finishes another chunk
first or creates a new one.  Without this place the sum is too small
(`budget_misses_hand`).
-/

namespace ShadowDataPlane.Edge

open ShadowDataPlane.Foundation
open ShadowDataPlane.Contracts

/-! ## Where reserved bytes are -/

def WriterItem.reservedBytes : WriterItem → Nat
  | .queued item => item.reservedBytes
  | .rotate _ | .stop => 0

def batchReserved (batch : List QueuedEvent) : Nat :=
  (batch.map QueuedEvent.reservedBytes).sum

/-- The bytes of the event a writer goes on with. -/
def Resume.handBytes : Resume → Nat
  | .add queued => queued.reservedBytes
  | .wait | .rotate _ | .stop => 0

/-- Bytes which are in the file and yet to be released. -/
def WriterStage.unreleasedBytes : WriterStage → Nat
  | .releaseBatch reserved | .release reserved _ => reserved
  | _ => 0

namespace Writer

def queuedBytes (writer : Writer) : Nat :=
  (writer.queue.map WriterItem.reservedBytes).sum

def handBytes (writer : Writer) : Nat :=
  writer.stage.resume.handBytes

def unflushedBytes (writer : Writer) : Nat :=
  writer.session.elim 0 fun session => batchReserved session.batch

def unreleasedBytes (writer : Writer) : Nat :=
  writer.stage.unreleasedBytes

/-- All bytes which were reserved for the writer and not released. -/
def heldBytes (writer : Writer) : Nat :=
  writer.queuedBytes + writer.handBytes + writer.unflushedBytes +
    writer.unreleasedBytes

/-- Batches know their bytes, and unreleased bytes belong to an open chunk. -/
structure Accounted (writer : Writer) : Prop where
  batch : ∀ session ∈ writer.session,
    session.batchBytes = batchReserved session.batch
  unreleased : writer.unreleasedBytes ≠ 0 →
    ∃ session ∈ writer.session, session.rows ≠ []

end Writer

/-- The sum of a measure over the three writers. -/
def PoolState.total (pool : PoolState) (measure : Writer → Nat) : Nat :=
  (queuedGroups.map fun group => measure (pool.writers group)).sum

theorem batchReserved_append (batch later : List QueuedEvent) :
    batchReserved (batch ++ later) =
      batchReserved batch + batchReserved later := by
  rw [batchReserved, List.map_append, List.sum_append]
  rfl

/-- What a batch reserves is the size of its events. -/
theorem batchReserved_pos
    {batch : List QueuedEvent} (reserved : batchReserved batch ≠ 0) :
    batch ≠ [] := by
  rintro rfl
  exact reserved rfl

/-! ## A turn and the bytes -/

/-- After the turn the writer is worth as much as the given one. -/
structure Leaves (group : WriterGroup) (before : PoolState) (writer : Writer)
    (after : PoolState) : Prop where
  others : ∀ other, other ≠ group →
    after.writers other = before.writers other
  used : after.usedBytes = before.usedBytes
  held : (after.writers group).heldBytes = writer.heldBytes
  accounted : writer.Accounted → (after.writers group).Accounted

/-- The turn changes the used bytes as it changes those of its writer. -/
structure Settles (group : WriterGroup) (before after : PoolState) :
    Prop where
  others : ∀ other, other ≠ group →
    after.writers other = before.writers other
  balance : before.usedBytes + (after.writers group).heldBytes =
    after.usedBytes + (before.writers group).heldBytes
  fewer : after.usedBytes ≤ before.usedBytes
  accounted : (after.writers group).Accounted

section Turns

variable {limits : ChunkLimits} {group : WriterGroup}
  {before middle after : PoolState} {writer : Writer}

theorem leaves_setWriter (pool : PoolState) (writer : Writer) :
    Leaves group pool writer (pool.setWriter group writer) where
  others _ different := setWriter_other pool writer different
  used := rfl
  held := by rw [setWriter_self]
  accounted := by
    rw [setWriter_self]
    exact id

/-- The writer may be set before its turn. -/
theorem Leaves.after_setWriter
    {pool : PoolState} {first : Writer}
    (leaves : Leaves group (pool.setWriter group first) writer after) :
    Leaves group pool writer after where
  others other different := by
    rw [leaves.others other different, setWriter_other pool first different]
  used := leaves.used
  held := leaves.held
  accounted := leaves.accounted

/-- A writer of the same worth. -/
theorem Leaves.congr
    {other : Writer} (leaves : Leaves group before writer after)
    (held : writer.heldBytes = other.heldBytes)
    (accounted : other.Accounted → writer.Accounted) :
    Leaves group before other after where
  others := leaves.others
  used := leaves.used
  held := leaves.held.trans held
  accounted known := leaves.accounted (accounted known)

/-- A turn which leaves a writer of the same worth settles. -/
theorem Leaves.settles
    (leaves : Leaves group before writer after)
    (held : writer.heldBytes = (before.writers group).heldBytes)
    (accounted : writer.Accounted) : Settles group before after where
  others := leaves.others
  balance := by rw [leaves.held, held, leaves.used]
  fewer := leaves.used.le
  accounted := leaves.accounted accounted

/-- A pool with the same writers and used bytes settles alike. -/
theorem Settles.of_same
    (settles : Settles group middle after)
    (writers : middle.writers = before.writers)
    (used : middle.usedBytes = before.usedBytes) :
    Settles group before after where
  others := by
    rw [← writers]
    exact settles.others
  balance := by
    rw [← writers, ← used]
    exact settles.balance
  fewer := by
    rw [← used]
    exact settles.fewer
  accounted := settles.accounted

/-- Stages which go on to do the same and have nothing to release. -/
theorem Writer.Accounted.restage
    (accounted : writer.Accounted) {stage : WriterStage}
    (released : stage.unreleasedBytes = 0) :
    Writer.Accounted { writer with stage := stage } where
  batch := accounted.batch
  unreleased unreleased := absurd released unreleased

theorem leaves_fail (pool : PoolState) (resume : Resume) :
    Leaves group pool
      { pool.writers group with stage := .failed resume }
      (pool.fail group resume) := by
  have raised : ∀ pool : PoolState,
      (pool.raiseTo resume).writers = pool.writers ∧
        (pool.raiseTo resume).usedBytes = pool.usedBytes := by
    intro pool
    unfold PoolState.raiseTo
    split
    · split
      · exact ⟨rfl, rfl⟩
      · exact ⟨rfl, rfl⟩
    · exact ⟨rfl, rfl⟩
    · exact ⟨rfl, rfl⟩
    · exact ⟨rfl, rfl⟩
  have set : Leaves group pool
      { pool.writers group with stage := .failed resume }
      (pool.setWriter group
        { pool.writers group with stage := .failed resume }) :=
    leaves_setWriter pool _
  rw [PoolState.fail]
  rcases raised (pool.setWriter group
    { pool.writers group with stage := .failed resume }) with
    ⟨writers, used⟩
  constructor
  · rw [writers]
    exact set.others
  · rw [used]
    exact set.used
  · rw [writers]
    exact set.held
  · rw [writers]
    exact set.accounted

theorem leaves_resumeWith (pool : PoolState) (resume : Resume) :
    Leaves group pool
      { pool.writers group with stage := .flush resume }
      (pool.resumeWith group resume) := by
  cases resume with
  | add queued =>
      exact (leaves_setWriter pool _).congr rfl
        fun known => known.restage rfl
  | wait =>
      exact (leaves_setWriter pool _).congr rfl
        fun known => known.restage rfl
  | stop =>
      exact (leaves_setWriter pool _).congr rfl
        fun known => known.restage rfl
  | rotate tag =>
      simp only [PoolState.resumeWith]
      split
      next =>
        exact (leaves_setWriter pool _).congr rfl
          fun known => ⟨known.batch, known.unreleased⟩
      next =>
        have set : Leaves group pool
            { pool.writers group with stage := .flush (.rotate tag) }
            (pool.setWriter group
              { pool.writers group with
                tag := tag
                stage := .wait }) :=
          (leaves_setWriter pool _).congr rfl
            fun known => ⟨known.batch, known.unreleased⟩
        exact ⟨set.others, set.used, set.held, set.accounted⟩

theorem leaves_beginFinish (pool : PoolState) (resume : Resume) :
    Leaves group pool
      { pool.writers group with stage := .flush resume }
      (pool.beginFinish group resume) := by
  unfold PoolState.beginFinish
  split
  next => exact leaves_resumeWith pool resume
  next => exact leaves_setWriter pool _

theorem leaves_checkFull
    (limits : ChunkLimits) (pool : PoolState) (session : ChunkSession)
    (tooOld : Bool) :
    Leaves group pool { pool.writers group with stage := .wait }
      (pool.checkFull limits group session tooOld) := by
  unfold PoolState.checkFull
  split
  next =>
    exact (leaves_beginFinish pool .wait).congr rfl
      fun known => known.restage rfl
  next => exact leaves_setWriter pool _

/-- The event enters the batch. -/
theorem leaves_addEvent
    (limits : ChunkLimits) (pool : PoolState) (session : ChunkSession)
    (queued : QueuedEvent) (tooOld : Bool) :
    Leaves group pool
      { pool.writers group with
        session := some (session.add limits queued).1
        stage := .wait }
      (pool.addEvent limits group session queued tooOld) := by
  simp only [PoolState.addEvent]
  split
  next =>
    exact (leaves_setWriter pool _).congr rfl
      fun known => known.restage rfl
  next =>
    apply Leaves.after_setWriter
    apply (leaves_checkFull limits _ _ tooOld).congr
    · rw [setWriter_self]
    · rw [setWriter_self]
      exact id

/-- An event at hand and the same event in the batch are worth the same. -/
theorem heldBytes_add
    (limits : ChunkLimits) (session : ChunkSession) (queued : QueuedEvent)
    (stage : WriterStage) (isAdd : stage.resume = .add queued)
    (released : stage.unreleasedBytes = 0) :
    Writer.heldBytes
        { writer with
          session := some (session.add limits queued).1
          stage := .wait } =
      Writer.heldBytes
        { writer with
          session := some session
          stage := stage } := by
  have batch : batchReserved (session.add limits queued).1.batch =
      batchReserved session.batch + queued.reservedBytes := by
    rw [ChunkSession.add, batchReserved_append]
    rfl
  have hand : Writer.handBytes
      { writer with
        session := some session
        stage := stage } = queued.reservedBytes := by
    rw [Writer.handBytes, isAdd]
    rfl
  have unreleased : Writer.unreleasedBytes
      { writer with
        session := some session
        stage := stage } = 0 := released
  rw [Writer.heldBytes, Writer.heldBytes, hand, unreleased]
  show _ + 0 + batchReserved (session.add limits queued).1.batch + 0 =
    _ + queued.reservedBytes + batchReserved session.batch + 0
  rw [batch]
  show (writer.queue.map WriterItem.reservedBytes).sum + _ + _ + _ =
    (writer.queue.map WriterItem.reservedBytes).sum + _ + _ + _
  omega

theorem accounted_add
    (limits : ChunkLimits) {session : ChunkSession} (queued : QueuedEvent)
    (batch : session.batchBytes = batchReserved session.batch) :
    Writer.Accounted
      { writer with
        session := some (session.add limits queued).1
        stage := .wait } where
  batch := by
    rintro added ⟨⟩
    show session.batchBytes + queued.reservedBytes = _
    rw [batch, ChunkSession.add, batchReserved_append]
    rfl
  unreleased unreleased := absurd rfl unreleased

theorem leaves_takeItem
    (limits : ChunkLimits) (pool : PoolState) (item : WriterItem)
    (tooOld : Bool) (known : (pool.writers group).Accounted) :
    Leaves group pool
      { pool.writers group with stage := .flush item.resume }
      (pool.takeItem limits group tooOld item) := by
  cases item with
  | queued queued =>
      simp only [PoolState.takeItem]
      split
      next =>
        exact (leaves_setWriter pool _).congr rfl
          fun known => known.restage rfl
      next session isOpen =>
        split
        next => exact leaves_beginFinish pool (.add queued)
        next =>
          apply (leaves_addEvent limits pool session queued tooOld).congr
          · rw [heldBytes_add limits session queued (.flush (.add queued))
              rfl rfl, ← isOpen]
            rfl
          · exact fun _ =>
              accounted_add limits queued (known.batch session isOpen)
  | rotate tag => exact leaves_beginFinish pool (.rotate tag)
  | stop => exact leaves_beginFinish pool .stop

/-- Writing a batch moves its bytes to those to be released. -/
theorem accounted_flush
    {session : ChunkSession} (known : writer.Accounted)
    (isOpen : writer.session = some session) {stage : WriterStage}
    (released : stage.unreleasedBytes = session.batchBytes ∨
      stage.unreleasedBytes = 0) :
    Writer.Accounted
      { writer with
        session := some session.flush.1
        stage := stage } where
  batch := by
    rintro flushed ⟨⟩
    rfl
  unreleased := by
    intro unreleased
    refine ⟨session.flush.1, rfl, ?_⟩
    have some : session.batchBytes ≠ 0 := by
      rcases released with whole | none
      · rw [← whole]
        exact unreleased
      · exact absurd none unreleased
    rw [known.batch session isOpen] at some
    rw [ChunkSession.flush]
    simp [batchReserved_pos some]

theorem heldBytes_flush
    {session : ChunkSession} (known : writer.Accounted)
    (isOpen : writer.session = some session) {stage : WriterStage}
    (hand : stage.resume.handBytes = writer.handBytes)
    (released : writer.unreleasedBytes = 0)
    (unreleased : stage.unreleasedBytes = session.batchBytes) :
    Writer.heldBytes
        { writer with
          session := some session.flush.1
          stage := stage } = writer.heldBytes := by
  have unflushed : writer.unflushedBytes = session.batchBytes := by
    rw [Writer.unflushedBytes, isOpen, known.batch session isOpen]
    rfl
  rw [Writer.heldBytes, Writer.heldBytes, unflushed, released]
  show writer.queuedBytes + stage.resume.handBytes + 0 +
    stage.unreleasedBytes = _
  rw [hand, unreleased]
  omega

/-- Releasing what is unreleased gives the bytes back. -/
theorem Settles.of_release
    {pool released : PoolState}
    (isReleased : pool.release (pool.writers group).unreleasedBytes =
      some released)
    (leaves : Leaves group released writer after)
    (held : writer.heldBytes + (pool.writers group).unreleasedBytes =
      (pool.writers group).heldBytes)
    (accounted : writer.Accounted) : Settles group pool after := by
  have bounded : (pool.writers group).unreleasedBytes ≤ pool.usedBytes := by
    by_contra beyond
    rw [PoolState.release, if_neg beyond] at isReleased
    cases isReleased
  have used := leaves.used
  rw [release_eq_some isReleased] at used leaves
  constructor
  · exact leaves.others
  · rw [leaves.held, used]
    show _ = pool.usedBytes - _ + _
    omega
  · rw [used]
    exact Nat.sub_le _ _
  · exact leaves.accounted accounted

/-- An item taken from the queue is at hand. -/
theorem heldBytes_take
    {item : WriterItem} {later : List WriterItem}
    (isStage : writer.stage = .wait) (head : writer.queue = item :: later) :
    Writer.heldBytes
        { writer with
          queue := later
          stage := .flush item.resume } = writer.heldBytes := by
  have hand : item.resume.handBytes = item.reservedBytes := by
    cases item <;> rfl
  have queued : writer.queuedBytes = item.reservedBytes +
      (later.map WriterItem.reservedBytes).sum := by
    rw [Writer.queuedBytes, head]
    rfl
  rw [Writer.heldBytes, Writer.heldBytes, queued, Writer.handBytes,
    Writer.handBytes, Writer.unreleasedBytes, Writer.unreleasedBytes, isStage]
  show (later.map WriterItem.reservedBytes).sum + item.resume.handBytes +
    writer.unflushedBytes + 0 = _ + 0 + _ + 0
  rw [hand]
  omega

/-- A new chunk has no batch. -/
theorem heldBytes_create
    {queued : QueuedEvent} {session : ChunkSession}
    (isStage : writer.stage = .create queued)
    (closed : writer.session = none) (fresh : session.batch = []) :
    Writer.heldBytes
        { writer with
          session := some session
          stage := .create queued } = writer.heldBytes := by
  have unflushed : writer.unflushedBytes = 0 := by
    rw [Writer.unflushedBytes, closed]
    rfl
  rw [Writer.heldBytes, Writer.heldBytes, unflushed, Writer.handBytes,
    Writer.handBytes, Writer.unreleasedBytes, Writer.unreleasedBytes, isStage]
  show _ + _ + batchReserved session.batch + _ = _
  rw [fresh]
  rfl

/-- Bytes which are released no longer belong to the writer. -/
theorem heldBytes_released
    {stage : WriterStage} (hand : stage.resume = writer.stage.resume)
    (released : stage.unreleasedBytes = 0) :
    Writer.heldBytes { writer with stage := stage } +
      writer.unreleasedBytes = writer.heldBytes := by
  rw [Writer.heldBytes, Writer.heldBytes, Writer.handBytes, Writer.handBytes,
    hand]
  show _ + stage.unreleasedBytes + _ = _
  rw [released]
  rfl

/-- A chunk which can be finished has no batch. -/
theorem heldBytes_close
    {session : ChunkSession} {chunk : FinishedChunk} {resume : Resume}
    (isStage : writer.stage = .close resume)
    (isOpen : writer.session = some session)
    (finished : session.finish group = some chunk) :
    Writer.heldBytes
        { writer with
          session := none
          finished := writer.finished ++ [chunk]
          stage := .record chunk resume } = writer.heldBytes := by
  have flushed : session.batch = [] := by
    by_contra unflushed
    rw [ChunkSession.finish, if_pos unflushed] at finished
    cases finished
  have unflushed : writer.unflushedBytes = 0 := by
    rw [Writer.unflushedBytes, isOpen]
    show batchReserved session.batch = 0
    rw [flushed]
    rfl
  rw [Writer.heldBytes, Writer.heldBytes, unflushed, Writer.handBytes,
    Writer.handBytes, Writer.unreleasedBytes, Writer.unreleasedBytes, isStage]
  rfl

/-- A stage with the same item at hand and the same bytes to be released. -/
theorem heldBytes_restage
    {stage : WriterStage} (hand : stage.resume = writer.stage.resume)
    (unreleased : stage.unreleasedBytes = writer.stage.unreleasedBytes) :
    Writer.heldBytes { writer with stage := stage } = writer.heldBytes := by
  rw [Writer.heldBytes, Writer.heldBytes, Writer.handBytes, Writer.handBytes,
    Writer.unreleasedBytes, Writer.unreleasedBytes, hand, unreleased]
  rfl

theorem le_heldBytes (writer : Writer) :
    writer.unreleasedBytes ≤ writer.heldBytes :=
  Nat.le_add_left _ _

/-- As long as its bytes are reserved, a writer can release them. -/
theorem exists_release
    {pool : PoolState}
    (reserved : (pool.writers group).heldBytes ≤ pool.usedBytes) :
    ∃ released, pool.release (pool.writers group).unreleasedBytes =
      some released := by
  rw [PoolState.release, if_pos ((le_heldBytes _).trans reserved)]
  exact ⟨_, rfl⟩

theorem settles_workStep
    {pool : PoolState} {tooOld : Bool}
    (sound : WriterSound limits group pool.hashes pool.index
      (pool.writers group))
    (known : (pool.writers group).Accounted)
    (reserved : (pool.writers group).heldBytes ≤ pool.usedBytes)
    (stepped : pool.workStep limits group tooOld = some after) :
    Settles group pool after := by
  rcases exists_release reserved with ⟨released, isReleased⟩
  have same := release_eq_some isReleased
  simp only [PoolState.workStep] at stepped
  split at stepped
  next isStage =>
    split at stepped
    next => cases stepped
    next item items head =>
      cases stepped
      refine (leaves_takeItem limits _ item tooOld ?_).after_setWriter.settles
        ?_ ?_
      · rw [setWriter_self]
        exact ⟨known.batch, known.unreleased⟩
      · rw [setWriter_self]
        exact heldBytes_take isStage head
      · rw [setWriter_self]
        exact ⟨known.batch, fun unreleased => absurd rfl unreleased⟩
  next queued isStage =>
    cases stepped
    have closed : (pool.writers group).session = none := by
      have fits := sound.fits
      rw [isStage] at fits
      exact fits
    refine Settles.of_same
      ((leaves_addEvent limits _ _ queued tooOld).settles ?_ ?_) rfl rfl
    · rw [heldBytes_add limits _ queued (.create queued) rfl rfl]
      exact heldBytes_create isStage closed rfl
    · exact accounted_add limits queued rfl
  next session isStage isOpen =>
    have none : (pool.writers group).unreleasedBytes = 0 := by
      rw [Writer.unreleasedBytes, isStage]
      rfl
    have hand : (pool.writers group).handBytes = 0 := by
      rw [Writer.handBytes, isStage]
      rfl
    split at stepped
    next empty =>
      cases stepped
      refine (leaves_checkFull limits _ _ tooOld).after_setWriter.settles ?_ ?_
      · rw [setWriter_self]
        exact heldBytes_flush known isOpen hand.symm none empty.symm
      · rw [setWriter_self]
        exact accounted_flush known isOpen (Or.inr rfl)
    next =>
      cases stepped
      apply (leaves_setWriter pool _).settles
      · exact heldBytes_flush known isOpen hand.symm none rfl
      · exact accounted_flush known isOpen (Or.inl rfl)
  next bytes session isStage isOpen =>
    have isBytes : (pool.writers group).unreleasedBytes = bytes := by
      rw [Writer.unreleasedBytes, isStage]
      rfl
    rw [← isBytes, isReleased] at stepped
    cases stepped
    apply Settles.of_release isReleased
      (leaves_checkFull limits released session tooOld)
    · rw [same]
      apply heldBytes_released
      · rw [isStage]
        rfl
      · rfl
    · rw [same]
      exact known.restage rfl
  next resume session isStage isOpen =>
    cases stepped
    have none : (pool.writers group).unreleasedBytes = 0 := by
      rw [Writer.unreleasedBytes, isStage]
      rfl
    have moved : WriterStage.unreleasedBytes
        (if session.flush.2 = 0 then .close resume
          else .release session.flush.2 resume) = session.batchBytes := by
      split
      next empty => exact empty.symm
      next => rfl
    apply (leaves_setWriter pool _).settles
    · apply heldBytes_flush known isOpen _ none moved
      rw [Writer.handBytes, isStage]
      split <;> rfl
    · exact accounted_flush known isOpen (Or.inl moved)
  next bytes resume isStage =>
    have isBytes : (pool.writers group).unreleasedBytes = bytes := by
      rw [Writer.unreleasedBytes, isStage]
      rfl
    rw [← isBytes, isReleased] at stepped
    cases stepped
    apply Settles.of_release isReleased (leaves_setWriter released _)
    · rw [same]
      apply heldBytes_released
      · rw [isStage]
        rfl
      · rfl
    · rw [same]
      exact known.restage rfl
  next resume session isStage isOpen =>
    split at stepped
    next =>
      cases stepped
      apply (leaves_fail pool resume).settles
      · apply heldBytes_restage
        · rw [isStage]
          rfl
        · rw [isStage]
          rfl
      · exact known.restage rfl
    next chunk finished =>
      cases stepped
      apply (leaves_setWriter pool _).settles
      · exact heldBytes_close isStage isOpen finished
      · constructor
        · rintro other ⟨⟩
        · exact fun unreleased => absurd rfl unreleased
  next chunk resume isStage =>
    split at stepped
    next =>
      cases stepped
      apply (leaves_fail pool resume).settles
      · apply heldBytes_restage
        · rw [isStage]
          rfl
        · rw [isStage]
          rfl
      · exact known.restage rfl
    next index recorded =>
      cases stepped
      rw [PoolState.noteRecorded]
      refine Settles.of_same
        ((leaves_resumeWith _ resume).after_setWriter.settles ?_ ?_) rfl rfl
      · rw [setWriter_self]
        apply heldBytes_restage
        · rw [isStage]
          rfl
        · rw [isStage]
          rfl
      · rw [setWriter_self]
        exact ⟨known.batch, fun unreleased => absurd rfl unreleased⟩
  all_goals cases stepped

end Turns

/-! ## The pool -/

/-- The used bytes are held by the writers and within the budget. -/
structure BudgetSound (limits : ChunkLimits) (maxBytes : Nat)
    (pool : PoolState) : Prop extends PoolSound limits pool where
  exact : pool.usedBytes = pool.total Writer.heldBytes
  within : pool.usedBytes ≤ maxBytes
  accounted : ∀ group ∈ queuedGroups, (pool.writers group).Accounted

section Pool

variable {limits : ChunkLimits} {maxBytes : Nat} {pool after : PoolState}

/-- A total changes as the measure of the one writer which changes. -/
theorem total_of_others
    (measure : Writer → Nat) {group : WriterGroup}
    (isQueued : group ∈ queuedGroups)
    (others : ∀ other, other ≠ group →
      after.writers other = pool.writers other) :
    after.total measure + measure (pool.writers group) =
      pool.total measure + measure (after.writers group) := by
  have sums (pool : PoolState) : pool.total measure =
      measure (pool.writers .depth) +
        (measure (pool.writers .tradesMarket) +
          (measure (pool.writers .metadata) + 0)) :=
    rfl
  rw [sums, sums]
  simp only [queuedGroups, List.mem_cons, List.not_mem_nil, or_false]
    at isQueued
  rcases isQueued with rfl | rfl | rfl
  · rw [others .tradesMarket (by decide), others .metadata (by decide)]
    omega
  · rw [others .depth (by decide), others .metadata (by decide)]
    omega
  · rw [others .depth (by decide), others .tradesMarket (by decide)]
    omega

/-- A total of what the writers keep. -/
theorem total_congr
    {measure : Writer → Nat}
    (kept : ∀ group ∈ queuedGroups,
      measure (after.writers group) = measure (pool.writers group)) :
    after.total measure = pool.total measure := by
  rw [PoolState.total, PoolState.total, List.map_congr_left kept]

theorem le_total
    (pool : PoolState) (measure : Writer → Nat) {group : WriterGroup}
    (isQueued : group ∈ queuedGroups) :
    measure (pool.writers group) ≤ pool.total measure :=
  List.le_sum_of_mem (List.mem_map_of_mem isQueued)

theorem BudgetSound.settle
    {group : WriterGroup} (sound : BudgetSound limits maxBytes pool)
    (isQueued : group ∈ queuedGroups) (settles : Settles group pool after)
    (still : PoolSound limits after) : BudgetSound limits maxBytes after where
  toPoolSound := still
  exact := by
    have total := total_of_others Writer.heldBytes isQueued settles.others
    have balance := settles.balance
    have exact_ := sound.exact
    omega
  within := settles.fewer.trans sound.within
  accounted other otherQueued := by
    by_cases here : other = group
    · rw [here]
      exact settles.accounted
    · rw [settles.others other here]
      exact sound.accounted other otherQueued

/-- Writers which get control items only. -/
theorem BudgetSound.keep
    (sound : BudgetSound limits maxBytes pool)
    (still : PoolSound limits after)
    (used : after.usedBytes = pool.usedBytes)
    (held : ∀ group ∈ queuedGroups,
      (after.writers group).heldBytes = (pool.writers group).heldBytes)
    (accounted : ∀ group ∈ queuedGroups, (pool.writers group).Accounted →
      (after.writers group).Accounted) :
    BudgetSound limits maxBytes after where
  toPoolSound := still
  exact := by
    rw [used, sound.exact, total_congr held]
  within := used.trans_le sound.within
  accounted group isQueued :=
    accounted group isQueued (sound.accounted group isQueued)

theorem queuedBytes_append (writer : Writer) (items : List WriterItem) :
    Writer.heldBytes { writer with queue := writer.queue ++ items } =
      writer.heldBytes + (items.map WriterItem.reservedBytes).sum := by
  have queued :
      Writer.queuedBytes { writer with queue := writer.queue ++ items } =
        writer.queuedBytes + (items.map WriterItem.reservedBytes).sum := by
    rw [Writer.queuedBytes, List.map_append, List.sum_append]
    rfl
  rw [Writer.heldBytes, queued]
  show _ + writer.handBytes + writer.unflushedBytes +
    writer.unreleasedBytes = _
  rw [Writer.heldBytes]
  omega

theorem BudgetSound.accept
    {event : RawEvent} (sound : BudgetSound limits maxBytes pool)
    (allowed : pool.usedBytes + event.approximateSizeBytes ≤ maxBytes) :
    BudgetSound limits maxBytes (pool.accept event) := by
  have isQueued := writerGroup_mem_queuedGroups event
  have others : ∀ other, other ≠ event.writerGroup →
      (pool.accept event).writers other = pool.writers other :=
    fun other different => setWriter_other _ _ different
  have held : ((pool.accept event).writers event.writerGroup).heldBytes =
      (pool.writers event.writerGroup).heldBytes +
        event.approximateSizeBytes := by
    rw [PoolState.accept, setWriter_self]
    exact queuedBytes_append _ _
  constructor
  · exact sound.toPoolSound.accept event
  · have total := total_of_others Writer.heldBytes isQueued others
    have exact_ := sound.exact
    show pool.usedBytes + event.approximateSizeBytes = _
    omega
  · exact allowed
  · intro other otherQueued
    by_cases here : other = event.writerGroup
    · have known := sound.accounted other otherQueued
      rw [here] at known ⊢
      rw [PoolState.accept, setWriter_self]
      exact ⟨known.batch, known.unreleased⟩
    · rw [others other here]
      exact sound.accounted other otherQueued

theorem BudgetSound.step
    {label : PoolLabel} (sound : BudgetSound limits maxBytes pool)
    (stepped : poolStep limits maxBytes pool label = some after) :
    BudgetSound limits maxBytes after := by
  have still : PoolSound limits after := sound.toPoolSound.step stepped
  cases label with
  | put event =>
      simp only [poolStep] at stepped
      split at stepped
      next => cases stepped
      next =>
        split at stepped
        next =>
          cases stepped
          exact sound
        next fits =>
          cases stepped
          exact sound.accept (not_lt.mp fits)
  | rotate universeHash =>
      simp only [poolStep, Option.ite_none_right_eq_some] at stepped
      rcases stepped with ⟨_, ⟨⟩⟩
      have writers : ∀ group ∈ queuedGroups,
          (pool.beginRotate universeHash).writers group =
            { pool.writers group with
              queue := (pool.writers group).queue ++
                [.rotate ⟨pool.hashes.length, universeHash⟩] } := by
        intro group isQueued
        rw [PoolState.beginRotate]
        exact if_pos isQueued
      apply sound.keep still rfl
      · intro group isQueued
        rw [writers group isQueued, queuedBytes_append]
        rfl
      · intro group isQueued known
        rw [writers group isQueued]
        exact ⟨known.batch, known.unreleased⟩
  | cancelRotate =>
      rcases Option.map_eq_some_iff.mp stepped with ⟨rotation, _, rfl⟩
      exact ⟨still, sound.exact, sound.within, sound.accounted⟩
  | returnRotate =>
      simp only [poolStep] at stepped
      split at stepped
      next =>
        cases stepped
        exact ⟨still, sound.exact, sound.within, sound.accounted⟩
      next => cases stepped
  | stop =>
      cases stepped
      apply sound.keep still rfl
      · intro group isQueued
        simp only [PoolState.beginStop]
        split
        next =>
          rw [queuedBytes_append]
          rfl
        next => rfl
      · intro group isQueued known
        simp only [PoolState.beginStop]
        split
        next => exact ⟨known.batch, known.unreleased⟩
        next => exact known
  | timeout group tooOld =>
      simp only [poolStep, Option.ite_none_right_eq_some] at stepped
      rcases stepped with ⟨⟨isQueued, isStage⟩, stepped⟩
      split at stepped
      next =>
        cases stepped
        have known := sound.accounted group isQueued
        refine sound.settle isQueued
          ((leaves_beginFinish pool .wait).settles ?_ ?_) still
        · apply heldBytes_restage
          · rw [isStage]
            rfl
          · rw [isStage]
            rfl
        · exact known.restage rfl
      next =>
        cases stepped
        exact sound
  | work group tooOld =>
      simp only [poolStep, Option.ite_none_right_eq_some] at stepped
      rcases stepped with ⟨isQueued, stepped⟩
      have reserved : (pool.writers group).heldBytes ≤ pool.usedBytes := by
        rw [sound.exact]
        exact le_total pool Writer.heldBytes isQueued
      exact sound.settle isQueued
        (settles_workStep (sound.writers group isQueued)
          (sound.accounted group isQueued) reserved stepped) still
  | sealDay utcDate =>
      cases stepped
      exact ⟨still, sound.exact, sound.within, sound.accounted⟩

theorem budgetSound_started
    (limits : ChunkLimits) (maxBytes : Nat) (universeHash : String) :
    BudgetSound limits maxBytes (.started universeHash) where
  toPoolSound := poolSound_started limits universeHash
  exact := rfl
  within := Nat.zero_le _
  accounted _ _ := {
    batch := by
      rintro session ⟨⟩
    unreleased := fun unreleased => absurd rfl unreleased }

/-! ## The budget -/

/-- The four places together. -/
theorem total_heldBytes (pool : PoolState) :
    pool.total Writer.heldBytes =
      pool.total Writer.queuedBytes + pool.total Writer.handBytes +
        pool.total Writer.unflushedBytes +
          pool.total Writer.unreleasedBytes := by
  simp only [PoolState.total, Writer.heldBytes, List.sum_map_add]

theorem reservedBytes_of_queueEntries
    {rotation : Nat} {queue : List WriterItem}
    (empty : queueEntries rotation queue = []) :
    (queue.map WriterItem.reservedBytes).sum = 0 := by
  induction queue generalizing rotation with
  | nil => rfl
  | cons item later induction =>
      rw [List.map_cons, List.sum_cons]
      cases item with
      | queued queued => cases empty
      | rotate tag => exact Nat.add_eq_zero_iff.mpr ⟨rfl, induction empty⟩
      | stop => exact Nat.add_eq_zero_iff.mpr ⟨rfl, induction empty⟩

/-- A writer with nothing but finished chunks holds no bytes. -/
theorem heldBytes_of_finished
    {writer : Writer} (known : writer.Accounted)
    (closed : writer.openRows = []) (idle : writer.waitingRows = []) :
    writer.heldBytes = 0 := by
  rcases List.append_eq_nil_iff.mp idle with ⟨noHand, noQueue⟩
  have queued : writer.queuedBytes = 0 :=
    reservedBytes_of_queueEntries (List.map_eq_nil_iff.mp noQueue)
  have hand : writer.handBytes = 0 := by
    rw [Writer.handBytes]
    cases isResume : writer.stage.resume with
    | add queued =>
        rw [isResume] at noHand
        cases noHand
    | wait => rfl
    | rotate tag => rfl
    | stop => rfl
  have empty : ∀ session ∈ writer.session,
      session.rows = [] ∧ session.batch = [] := by
    intro session isOpen
    rw [Writer.openRows, Option.mem_def.mp isOpen] at closed
    rcases List.append_eq_nil_iff.mp closed with ⟨noRows, noBatch⟩
    exact ⟨noRows, List.map_eq_nil_iff.mp noBatch⟩
  have unflushed : writer.unflushedBytes = 0 := by
    rw [Writer.unflushedBytes]
    cases isOpen : writer.session with
    | none => rfl
    | some session =>
        rw [Option.elim_some, (empty session isOpen).2]
        rfl
  have unreleased : writer.unreleasedBytes = 0 := by
    by_contra some
    rcases known.unreleased some with ⟨session, isOpen, rows⟩
    exact rows (empty session isOpen).1
  rw [Writer.heldBytes, queued, hand, unflushed, unreleased]

/-- All events which the writer was given are rows of its finished chunks. -/
def Writer.AllFinished (writer : Writer) : Prop :=
  (writer.accepted.map Prod.snd).Subperm
    (writer.finished.flatMap FinishedChunk.rows)

/-- Then no event is anywhere else. -/
theorem Partitioned.nothing_left
    {group : WriterGroup} {writer : Writer}
    (parted : Partitioned limits group writer)
    (all : writer.AllFinished) :
    writer.openRows = [] ∧ writer.waitingRows = [] := by
  have bounded := all.length_le
  rw [parted.accepted, List.length_append] at bounded
  apply List.append_eq_nil_iff.mp
  apply List.eq_nil_of_length_eq_zero
  omega

/-- What the byte budget of a pool promises. -/
structure StrictBudget (limits : ChunkLimits) (maxBytes : Nat)
    (pool : PoolState) : Prop where
  exact : pool.usedBytes =
    pool.total Writer.queuedBytes + pool.total Writer.handBytes +
      pool.total Writer.unflushedBytes + pool.total Writer.unreleasedBytes
  within : pool.usedBytes ≤ maxBytes
  releases : ∀ group ∈ queuedGroups, ∃ released,
    pool.release (pool.writers group).unreleasedBytes = some released
  rejects : ∀ event, pool.rotation = none →
    maxBytes < pool.usedBytes + event.approximateSizeBytes →
      poolStep limits maxBytes pool (.put event) = some pool
  finished : (∀ group ∈ queuedGroups, (pool.writers group).AllFinished) →
    pool.usedBytes = 0

theorem BudgetSound.strict
    (sound : BudgetSound limits maxBytes pool) :
    StrictBudget limits maxBytes pool where
  exact := by rw [sound.exact, total_heldBytes]
  within := sound.within
  releases group isQueued := by
    apply exists_release
    rw [sound.exact]
    exact le_total pool Writer.heldBytes isQueued
  rejects event free beyond := by
    rw [poolStep, if_neg (not_not.mpr free), if_pos beyond]
  finished all := by
    have none : ∀ group ∈ queuedGroups,
        (pool.writers group).heldBytes = 0 := by
      intro group isQueued
      have parted := (sound.writers group isQueued).partitioned
      rcases parted.nothing_left (all group isQueued) with ⟨closed, idle⟩
      exact heldBytes_of_finished (sound.accounted group isQueued) closed idle
    rw [sound.exact, PoolState.total, List.map_congr_left none]
    rfl

/--
Whatever the coordinator and the three writers do, the used bytes are those of
the events in the queues, in the hands of a writer, in the batches, and
written but not yet released.  They stay within the budget, every release
succeeds, a rejected event changes nothing, and no byte is used once all
accepted events are in finished chunks.
-/
theorem strict_budget
    (limits : ChunkLimits) (maxBytes : Nat) (universeHash : String)
    {labels : List PoolLabel} {final : PoolState}
    (reached : runFrom (poolStep limits maxBytes) (.started universeHash)
      labels = some final) :
    StrictBudget limits maxBytes final := by
  have sound : BudgetSound limits maxBytes final :=
    invariant_of_run (fun _ _ _ before _ stepped => before.step stepped)
      (budgetSound_started limits maxBytes universeHash)
      (stepsMeet_true _ _) reached
  exact sound.strict

end Pool

/-- The run of two events, a `rotate` and a third event keeps its budget. -/
theorem strict_budget_rotated :
    rotatedFinal.usedBytes = 266 ∧
      StrictBudget smallLimits 10000 rotatedFinal := by
  constructor
  · decide +kernel
  · exact strict_budget smallLimits 10000 "first"
      (Option.some_get rotatedRun_runs).symm

/-! ## An event in the hands of its writer -/

/-- While a chunk is created for the first event, it is in no other place. -/
theorem budget_misses_hand :
    (runFrom (poolStep smallLimits 10000) (.started "first")
        [.put (depthEvent 5), .work .depth false]).map (fun pool =>
      (pool.usedBytes, pool.total Writer.queuedBytes +
        pool.total Writer.unflushedBytes +
          pool.total Writer.unreleasedBytes)) = some (266, 0) := by
  decide +kernel

end ShadowDataPlane.Edge
