import ShadowDataPlane.Edge.ChunkIds

/-!
# Sealing behind the writers

`_apply_midnight_boundary` calls `rotate` twice and then seals the day before:
the writer barrier makes the sealed inventory complete.  `_seal_completed_days`
seals without it.

A seal is behind the barrier if every event of the day was accepted before a
`rotate` which has returned.  If all seals are, and no event of a sealed day is
accepted, the chunks recorded for a sealed day hold every accepted event of its
date, and no writer fails to record a chunk (`BehindSound.step`); without the
barrier a writer may fail (`sealed_without_rotate`).
-/

namespace ShadowDataPlane.Edge

open ShadowDataPlane.Foundation
open ShadowDataPlane.Contracts

/-! ## What is recorded -/

/-- The recorded chunks of a group, in the order of recording. -/
def recordedBy (index : DayIndex FinishedChunk) (group : WriterGroup) :
    List FinishedChunk :=
  (index.recorded.map Prod.snd).filter fun chunk => chunk.writerGroup = group

/-- A chunk which is finished and about to be recorded. -/
def Writer.unrecorded (writer : Writer) : List FinishedChunk :=
  match writer.stage with
  | .record chunk _ => [chunk]
  | _ => []

theorem unrecorded_of_stage
    {writer : Writer} {chunk : FinishedChunk} {resume : Resume}
    (isStage : writer.stage = .record chunk resume) :
    chunk ∈ writer.unrecorded := by
  rw [Writer.unrecorded, isStage]
  exact List.mem_singleton_self chunk

/-- The accepted events of a date, in order. -/
def Writer.acceptedOn (writer : Writer) (utcDate : Nat) : List RawEvent :=
  (writer.accepted.map Prod.snd).filter fun event =>
    event.receiveDate = utcDate

/-- The rows of the chunks of a group, in the order of the inventory. -/
def rowsOf (inventory : List FinishedChunk) (group : WriterGroup) :
    List RawEvent :=
  (inventory.filter fun chunk => chunk.writerGroup = group).flatMap
    FinishedChunk.rows

/-- What a writer has been given and has not recorded. -/
def Writer.pendingRows (writer : Writer) : List RawEvent :=
  writer.unrecorded.flatMap FinishedChunk.rows ++
    (writer.openRows ++ writer.waitingRows)

/-- Every event of the day was accepted before a `rotate` which returned. -/
def BarrierPassed (pool : PoolState) (utcDate : Nat) : Prop :=
  ∃ tag ∈ pool.returned, ∀ group ∈ queuedGroups,
    ∀ entry ∈ (pool.writers group).accepted,
      entry.2.receiveDate = utcDate → entry.1 < tag.rotation

instance (pool : PoolState) (utcDate : Nat) :
    Decidable (BarrierPassed pool utcDate) :=
  inferInstanceAs (Decidable (∃ tag ∈ _, _))

/-- Days are sealed behind the barrier and get no events any more. -/
def BehindBarrier (pool : PoolState) : PoolLabel → Prop
  | .put event => ¬ pool.index.DayIsSealed event.receiveDate
  | .sealDay utcDate =>
      pool.index.DayIsSealed utcDate ∨ BarrierPassed pool utcDate
  | .rotate _ | .cancelRotate | .returnRotate | .stop | .timeout _ _
  | .work _ _ => True

instance (pool : PoolState) : (label : PoolLabel) →
    Decidable (BehindBarrier pool label)
  | .put _ => inferInstanceAs (Decidable (¬ _))
  | .sealDay _ => inferInstanceAs (Decidable (_ ∨ _))
  | .rotate _ | .cancelRotate | .returnRotate | .stop | .timeout _ _
  | .work _ _ => inferInstanceAs (Decidable True)

/-- What runs guarantee which seal behind the barrier. -/
structure SealsComplete (pool : PoolState) : Prop where
  dated : ∀ entry ∈ pool.index.recorded, entry.1 = entry.2.utcDate
  queued : ∀ entry ∈ pool.index.recorded,
    entry.2.writerGroup ∈ queuedGroups
  finished : ∀ group ∈ queuedGroups, (pool.writers group).finished =
    recordedBy pool.index group ++ (pool.writers group).unrecorded
  agree : pool.index.SealsAgree
  complete : ∀ utcDate, pool.index.DayIsSealed utcDate →
    ∀ group ∈ queuedGroups, (pool.writers group).acceptedOn utcDate =
      rowsOf (pool.index.refs utcDate) group

/-! ## Accounting for a date -/

section Accounting

variable {limits : ChunkLimits} {pool : PoolState} {group : WriterGroup}

/-- The events of a date are the rows of the chunks of that date. -/
theorem filter_rows
    {chunks : List FinishedChunk}
    (dated : ∀ chunk ∈ chunks, ∀ event ∈ chunk.rows,
      event.receiveDate = chunk.utcDate) (utcDate : Nat) :
    (chunks.flatMap FinishedChunk.rows).filter
        (fun event => event.receiveDate = utcDate) =
      (chunks.filter fun chunk => chunk.utcDate = utcDate).flatMap
        FinishedChunk.rows := by
  induction chunks with
  | nil => rfl
  | cons chunk rest induction =>
      have others := induction fun other inRest =>
        dated other (List.mem_cons_of_mem _ inRest)
      have own := dated chunk List.mem_cons_self
      rw [List.flatMap_cons, List.filter_append, others, List.filter_cons]
      split
      next isDate =>
        rw [List.flatMap_cons, List.filter_eq_self.mpr]
        intro event member
        simpa [own event member] using isDate
      next notDate =>
        rw [List.filter_eq_nil_iff.mpr, List.nil_append]
        intro event member
        simpa [own event member] using notDate

theorem filter_recordedBy
    (dated : ∀ entry ∈ pool.index.recorded, entry.1 = entry.2.utcDate)
    (utcDate : Nat) :
    (recordedBy pool.index group).filter
        (fun chunk => chunk.utcDate = utcDate) =
      (pool.index.refs utcDate).filter
        fun chunk => chunk.writerGroup = group := by
  have sameDate : pool.index.recorded.filter
      (fun entry => entry.1 = utcDate) =
        pool.index.recorded.filter fun entry => entry.2.utcDate = utcDate := by
    apply List.filter_congr
    intro entry member
    rw [dated entry member]
  rw [recordedBy, DayIndex.refs, sameDate, List.filter_comm]
  exact congrArg _ List.filter_map

/-- The accepted events of a date are those recorded and those pending. -/
theorem SealsComplete.accounting
    (sound : PoolSound limits pool) (seals : SealsComplete pool)
    (isQueued : group ∈ queuedGroups) (utcDate : Nat) :
    (pool.writers group).acceptedOn utcDate =
      rowsOf (pool.index.refs utcDate) group ++
        (pool.writers group).pendingRows.filter fun event =>
          event.receiveDate = utcDate := by
  have parted := (sound.writers group isQueued).partitioned
  have dated : ∀ chunk ∈ recordedBy pool.index group,
      ∀ event ∈ chunk.rows, event.receiveDate = chunk.utcDate := by
    intro chunk member
    refine (parted.exactly chunk ?_).1.date
    rw [seals.finished group isQueued]
    exact List.mem_append_left _ member
  rw [Writer.acceptedOn, parted.accepted, seals.finished group isQueued,
    List.flatMap_append, List.append_assoc, List.filter_append,
    filter_rows dated, filter_recordedBy seals.dated]
  rfl

/-- A finished chunk has an event, and all of them are of its date. -/
theorem exists_row
    (sound : PoolSound limits pool) (isQueued : group ∈ queuedGroups)
    {chunk : FinishedChunk}
    (isFinished : chunk ∈ (pool.writers group).finished) :
    ∃ event ∈ chunk.rows, event.receiveDate = chunk.utcDate := by
  have exactly := ((sound.writers group isQueued).partitioned.exactly chunk
    isFinished).1
  rcases List.min?_eq_some_iff.mp exactly.earliest with ⟨isTime, _⟩
  rcases List.mem_map.mp isTime with ⟨event, isRow, _⟩
  exact ⟨event, isRow, exactly.date event isRow⟩

/-- A chunk which is not recorded has an event which is pending. -/
theorem SealsComplete.unrecorded_pending
    (sound : PoolSound limits pool) (seals : SealsComplete pool)
    (isQueued : group ∈ queuedGroups) {chunk : FinishedChunk}
    (isUnrecorded : chunk ∈ (pool.writers group).unrecorded)
    {utcDate : Nat} (isDate : chunk.utcDate = utcDate) :
    (pool.writers group).pendingRows.filter
      (fun event => event.receiveDate = utcDate) ≠ [] := by
  have isFinished : chunk ∈ (pool.writers group).finished := by
    rw [seals.finished group isQueued]
    exact List.mem_append_right _ isUnrecorded
  rcases exists_row sound isQueued isFinished with ⟨event, isRow, sameDate⟩
  apply List.ne_nil_of_mem (a := event)
  rw [List.mem_filter, decide_eq_true_eq]
  exact ⟨List.mem_append_left _
    (List.mem_flatMap.mpr ⟨chunk, isUnrecorded, isRow⟩),
    sameDate.trans isDate⟩

/-- What is about to be recorded is of an open day. -/
theorem SealsComplete.record_open
    (sound : PoolSound limits pool) (seals : SealsComplete pool)
    (isQueued : group ∈ queuedGroups) {chunk : FinishedChunk}
    (isUnrecorded : chunk ∈ (pool.writers group).unrecorded) :
    ¬ pool.index.DayIsSealed chunk.utcDate := by
  intro isSealed
  have nothing := seals.accounting sound isQueued chunk.utcDate
  rw [seals.complete chunk.utcDate isSealed group isQueued,
    List.self_eq_append_right] at nothing
  exact seals.unrecorded_pending sound isQueued isUnrecorded rfl nothing

/-- Behind the barrier nothing of the day is pending. -/
theorem SealsComplete.nothing_pending
    (sound : PoolSound limits pool) (ids : IdsSound pool)
    (seals : SealsComplete pool) (isQueued : group ∈ queuedGroups)
    {utcDate : Nat} (passed : BarrierPassed pool utcDate) :
    (pool.writers group).pendingRows.filter
      (fun event => event.receiveDate = utcDate) = [] := by
  rcases passed with ⟨tag, isReturned, before⟩
  rcases sound.returned tag isReturned with ⟨known, reached⟩
  have separated := (sound.writers group isQueued).separated known
    (reached group isQueued)
  have later : ∀ event ∈
      ((pool.writers group).finished.filter fun chunk =>
        tag.rotation ≤ chunk.tag.rotation).flatMap FinishedChunk.rows ++
          ((pool.writers group).openRows ++ (pool.writers group).waitingRows),
      event.receiveDate ≠ utcDate := by
    intro event member isDate
    rw [← separated.after] at member
    rcases List.mem_map.mp member with ⟨entry, isEntry, rfl⟩
    rcases List.mem_filter.mp isEntry with ⟨isAccepted, isLater⟩
    have earlier := before group isQueued entry isAccepted isDate
    simp only [decide_eq_true_eq] at isLater
    omega
  rw [List.filter_eq_nil_iff]
  intro event member
  rw [decide_eq_true_eq]
  rcases List.mem_append.mp member with isRow | isOther
  · rcases List.mem_flatMap.mp isRow with ⟨chunk, isUnrecorded, inChunk⟩
    have finished := seals.finished group isQueued
    have isFinished : chunk ∈ (pool.writers group).finished := by
      rw [finished]
      exact List.mem_append_right _ isUnrecorded
    by_cases isLater : tag.rotation ≤ chunk.tag.rotation
    · apply later event
      apply List.mem_append_left
      exact List.mem_flatMap.mpr
        ⟨chunk, List.mem_filter.mpr ⟨isFinished, by simpa using isLater⟩,
          inChunk⟩
    · exfalso
      have recorded := separated.recorded chunk isFinished
        (not_le.mp isLater)
      have isRecorded : chunk ∈ recordedBy pool.index group := by
        refine List.mem_filter.mpr ⟨?_, ?_⟩
        · rcases List.mem_map.mp recorded with ⟨entry, isEntry, rfl⟩
          exact List.mem_map_of_mem (List.mem_of_mem_filter isEntry)
        · have own := ((sound.writers group isQueued).partitioned.exactly
            chunk isFinished).2
          simpa using own
      have distinct : (pool.writers group).finished.Nodup :=
        ((List.nodup_append.mp (ids.distinct group)).1).of_map _
      rw [finished] at distinct
      exact (List.nodup_append.mp distinct).2.2 chunk isRecorded chunk
        isUnrecorded rfl
  · exact later event (List.mem_append_right _ isOther)

end Accounting

/-! ## The turn of a writer -/

/-- The writer goes on with nothing to record. -/
structure Idles (group : WriterGroup) (before after : PoolState) : Prop where
  index : after.index = before.index
  finished : ∀ other,
    (after.writers other).finished = (before.writers other).finished
  accepted : ∀ other,
    (after.writers other).accepted = (before.writers other).accepted
  others : ∀ other, other ≠ group →
    (after.writers other).unrecorded = (before.writers other).unrecorded
  idle : (after.writers group).unrecorded = []

/-- The writer finishes a chunk. -/
structure Closes (group : WriterGroup) (chunk : FinishedChunk)
    (before after : PoolState) : Prop where
  index : after.index = before.index
  accepted : ∀ other,
    (after.writers other).accepted = (before.writers other).accepted
  others : ∀ other, other ≠ group →
    (after.writers other).finished = (before.writers other).finished ∧
      (after.writers other).unrecorded = (before.writers other).unrecorded
  finished : (after.writers group).finished =
    (before.writers group).finished ++ [chunk]
  unrecorded : (after.writers group).unrecorded = [chunk]

section Turns

variable {limits : ChunkLimits} {pool middle after : PoolState}
variable {group : WriterGroup}

theorem Idles.trans
    (first : Idles group pool middle) (second : Idles group middle after) :
    Idles group pool after where
  index := second.index.trans first.index
  finished other := (second.finished other).trans (first.finished other)
  accepted other := (second.accepted other).trans (first.accepted other)
  others other different :=
    (second.others other different).trans (first.others other different)
  idle := second.idle

/-- What no writer notices. -/
theorem Idles.of_same
    (first : Idles group pool middle) (index : after.index = middle.index)
    (writers : after.writers = middle.writers) : Idles group pool after where
  index := index.trans first.index
  finished := by
    rw [writers]
    exact first.finished
  accepted := by
    rw [writers]
    exact first.accepted
  others := by
    rw [writers]
    exact first.others
  idle := by
    rw [writers]
    exact first.idle

theorem Idles.from_same
    (second : Idles group middle after) (index : middle.index = pool.index)
    (writers : middle.writers = pool.writers) : Idles group pool after where
  index := second.index.trans index
  finished := by
    rw [← writers]
    exact second.finished
  accepted := by
    rw [← writers]
    exact second.accepted
  others := by
    rw [← writers]
    exact second.others
  idle := second.idle

theorem idles_setWriter
    (pool : PoolState) {writer : Writer}
    (finished : writer.finished = (pool.writers group).finished)
    (accepted : writer.accepted = (pool.writers group).accepted)
    (idle : writer.unrecorded = []) :
    Idles group pool (pool.setWriter group writer) where
  index := rfl
  finished other := by
    by_cases here : other = group
    · rw [here, setWriter_self, finished]
    · rw [setWriter_other pool writer here]
  accepted other := by
    by_cases here : other = group
    · rw [here, setWriter_self, accepted]
    · rw [setWriter_other pool writer here]
  others other different := by
    rw [setWriter_other pool writer different]
  idle := by
    rw [setWriter_self]
    exact idle

theorem idles_fail (pool : PoolState) (resume : Resume) :
    Idles group pool (pool.fail group resume) := by
  have set : Idles group pool (pool.setWriter group
      { pool.writers group with stage := .failed resume }) :=
    idles_setWriter pool rfl rfl rfl
  unfold PoolState.fail
  cases resume with
  | rotate tag =>
      simp only [PoolState.raiseTo]
      split
      · exact set.of_same rfl rfl
      · exact set
  | add _ | wait | stop => exact set

theorem idles_resumeWith (pool : PoolState) (resume : Resume) :
    Idles group pool (pool.resumeWith group resume) := by
  cases resume with
  | add _ | wait | stop => exact idles_setWriter pool rfl rfl rfl
  | rotate tag =>
      simp only [PoolState.resumeWith]
      split
      · exact idles_setWriter pool rfl rfl rfl
      · have set : Idles group pool (pool.setWriter group
            { pool.writers group with
              tag := tag
              stage := .wait }) := idles_setWriter pool rfl rfl rfl
        exact set.of_same rfl rfl

theorem idles_beginFinish (pool : PoolState) (resume : Resume) :
    Idles group pool (pool.beginFinish group resume) := by
  unfold PoolState.beginFinish
  split
  · exact idles_resumeWith pool resume
  · exact idles_setWriter pool rfl rfl rfl

theorem idles_checkFull
    (pool : PoolState) (session : ChunkSession) (tooOld : Bool) :
    Idles group pool (pool.checkFull limits group session tooOld) := by
  unfold PoolState.checkFull
  split
  · exact idles_beginFinish pool .wait
  · exact idles_setWriter pool rfl rfl rfl

theorem idles_addEvent
    (pool : PoolState) (session : ChunkSession) (queued : QueuedEvent)
    (tooOld : Bool) (waits : (pool.writers group).unrecorded = []) :
    Idles group pool
      (pool.addEvent limits group session queued tooOld) := by
  simp only [PoolState.addEvent]
  split
  · exact idles_setWriter pool rfl rfl rfl
  · refine Idles.trans ?_ (idles_checkFull _ _ tooOld)
    exact idles_setWriter pool rfl rfl waits

theorem idles_takeItem
    (pool : PoolState) (item : WriterItem) (tooOld : Bool)
    (waits : (pool.writers group).unrecorded = []) :
    Idles group pool (pool.takeItem limits group tooOld item) := by
  cases item with
  | queued queued =>
      simp only [PoolState.takeItem]
      split
      · exact idles_setWriter pool rfl rfl rfl
      · split
        · exact idles_beginFinish pool _
        · exact idles_addEvent pool _ queued tooOld waits
  | rotate _ | stop => exact idles_beginFinish pool _

/-- The watermark of a writer is nothing to the others. -/
theorem Idles.noted
    {chunk : FinishedChunk} {index : DayIndex FinishedChunk}
    (resumed : Idles group (pool.noteRecorded group chunk index) after) :
    Idles group { pool with index := index } after := by
  have others : ∀ other, other ≠ group →
      (pool.noteRecorded group chunk index).writers other =
        pool.writers other :=
    fun other different => setWriter_other _ _ different
  have own : (pool.noteRecorded group chunk index).writers group =
      { pool.writers group with
        durableThroughNs :=
          some (max ((pool.writers group).durableThroughNs.getD 0)
            chunk.maxAppReceiveRealtimeNs) } := setWriter_self _ _ _
  exact {
    index := resumed.index
    finished := fun other => by
      rw [resumed.finished other]
      by_cases here : other = group
      · rw [here, own]
      · rw [others other here]
    accepted := fun other => by
      rw [resumed.accepted other]
      by_cases here : other = group
      · rw [here, own]
      · rw [others other here]
    others := fun other different => by
      rw [resumed.others other different, others other different]
    idle := resumed.idle }

/-- What a step of a writer means to the day index. -/
theorem workStep_cases
    {tooOld : Bool}
    (stepped : pool.workStep limits group tooOld = some after) :
    (pool.writers group).unrecorded = [] ∧
        (Idles group pool after ∨ ∃ chunk, Closes group chunk pool after) ∨
      ∃ chunk resume, (pool.writers group).stage = .record chunk resume ∧
        ((∃ problem, pool.index.recordGenerated chunk.utcDate chunk =
            .error problem) ∨
          ∃ index, pool.index.recordGenerated chunk.utcDate chunk =
              .ok index ∧
            Idles group { pool with index := index } after) := by
  simp only [PoolState.workStep] at stepped
  split at stepped
  next isStage =>
    have waits : (pool.writers group).unrecorded = [] := by
      rw [Writer.unrecorded, isStage]
    split at stepped
    next => cases stepped
    next item items _ =>
      cases stepped
      refine Or.inl ⟨waits, Or.inl (Idles.trans ?_
        (idles_takeItem _ item tooOld ?_))⟩
      · exact idles_setWriter pool rfl rfl waits
      · rw [setWriter_self]
        exact waits
  next queued isStage =>
    cases stepped
    have waits : (pool.writers group).unrecorded = [] := by
      rw [Writer.unrecorded, isStage]
    refine Or.inl ⟨waits, Or.inl ?_⟩
    exact (idles_addEvent _ _ queued tooOld (by exact waits)).from_same rfl rfl
  next session isStage isOpen =>
    have waits : (pool.writers group).unrecorded = [] := by
      rw [Writer.unrecorded, isStage]
    refine Or.inl ⟨waits, Or.inl ?_⟩
    split at stepped
    next =>
      cases stepped
      refine Idles.trans ?_ (idles_checkFull _ _ tooOld)
      exact idles_setWriter pool rfl rfl waits
    next =>
      cases stepped
      exact idles_setWriter pool rfl rfl rfl
  next reserved session isStage isOpen =>
    have waits : (pool.writers group).unrecorded = [] := by
      rw [Writer.unrecorded, isStage]
    refine Or.inl ⟨waits, Or.inl ?_⟩
    split at stepped
    next =>
      cases stepped
      exact idles_fail pool _
    next released =>
      cases stepped
      rw [release_eq_some released]
      exact (idles_checkFull _ _ tooOld).from_same rfl rfl
  next resume session isStage isOpen =>
    cases stepped
    have waits : (pool.writers group).unrecorded = [] := by
      rw [Writer.unrecorded, isStage]
    refine Or.inl ⟨waits, Or.inl (idles_setWriter pool rfl rfl ?_)⟩
    split <;> rfl
  next reserved resume isStage =>
    have waits : (pool.writers group).unrecorded = [] := by
      rw [Writer.unrecorded, isStage]
    refine Or.inl ⟨waits, Or.inl ?_⟩
    split at stepped
    next =>
      cases stepped
      exact idles_fail pool _
    next released =>
      cases stepped
      rw [release_eq_some released]
      refine Idles.from_same (idles_setWriter _ ?_ ?_ ?_) rfl rfl
      all_goals rfl
  next resume session isStage isOpen =>
    have waits : (pool.writers group).unrecorded = [] := by
      rw [Writer.unrecorded, isStage]
    refine Or.inl ⟨waits, ?_⟩
    split at stepped
    next =>
      cases stepped
      exact Or.inl (idles_fail pool _)
    next chunk finished =>
      cases stepped
      refine Or.inr ⟨chunk, rfl, fun other => ?_, fun other different => ?_,
        ?_, ?_⟩
      · by_cases here : other = group
        · rw [here, setWriter_self]
        · rw [setWriter_other pool _ here]
      · rw [setWriter_other pool _ different]
        exact ⟨rfl, rfl⟩
      · rw [setWriter_self]
      · rw [setWriter_self]
        rfl
  next chunk resume isStage =>
    refine Or.inr ⟨chunk, resume, isStage, ?_⟩
    split at stepped
    next problem refused =>
      cases stepped
      exact Or.inl ⟨problem, refused⟩
    next index recorded =>
      cases stepped
      refine Or.inr ⟨index, recorded, Idles.noted
        (idles_resumeWith _ resume)⟩
  all_goals cases stepped

end Turns

/-! ## Whole runs -/

section Runs

variable {limits : ChunkLimits} {maxBytes : Nat} {pool after : PoolState}
variable {group : WriterGroup}

theorem recordedBy_concat
    (index : DayIndex FinishedChunk) (utcDate : Nat) (chunk : FinishedChunk)
    (group : WriterGroup) :
    recordedBy
        { index with recorded := index.recorded ++ [(utcDate, chunk)] }
        group =
      recordedBy index group ++
        if chunk.writerGroup = group then [chunk] else [] := by
  simp only [recordedBy, List.map_append, List.filter_append]
  split
  next own => simp [own]
  next other => simp [other]

/-- Nothing changes which the index or the accepted events show. -/
theorem SealsComplete.same
    (seals : SealsComplete pool) (index : after.index = pool.index)
    (finished : ∀ other,
      (after.writers other).finished = (pool.writers other).finished)
    (accepted : ∀ other,
      (after.writers other).accepted = (pool.writers other).accepted)
    (unrecorded : ∀ other,
      (after.writers other).unrecorded = (pool.writers other).unrecorded) :
    SealsComplete after where
  dated := by
    rw [index]
    exact seals.dated
  queued := by
    rw [index]
    exact seals.queued
  finished other isQueued := by
    rw [index, finished, unrecorded]
    exact seals.finished other isQueued
  agree := by
    rw [index]
    exact seals.agree
  complete utcDate isSealed other isQueued := by
    rw [index] at isSealed ⊢
    rw [Writer.acceptedOn, accepted]
    exact seals.complete utcDate isSealed other isQueued

theorem SealsComplete.idles
    (seals : SealsComplete pool) (idles : Idles group pool after)
    (waits : (pool.writers group).unrecorded = []) : SealsComplete after := by
  apply seals.same idles.index idles.finished idles.accepted
  intro other
  by_cases here : other = group
  · rw [here, idles.idle, waits]
  · exact idles.others other here

theorem SealsComplete.closes
    {chunk : FinishedChunk} (seals : SealsComplete pool)
    (closes : Closes group chunk pool after)
    (waits : (pool.writers group).unrecorded = []) : SealsComplete after where
  dated := by
    rw [closes.index]
    exact seals.dated
  queued := by
    rw [closes.index]
    exact seals.queued
  finished other isQueued := by
    rw [closes.index]
    by_cases here : other = group
    · subst here
      rw [closes.finished, closes.unrecorded,
        seals.finished other isQueued, waits, List.append_nil]
    · rw [(closes.others other here).1, (closes.others other here).2]
      exact seals.finished other isQueued
  agree := by
    rw [closes.index]
    exact seals.agree
  complete utcDate isSealed other isQueued := by
    rw [closes.index] at isSealed ⊢
    rw [Writer.acceptedOn, closes.accepted]
    exact seals.complete utcDate isSealed other isQueued

/-- A chunk is recorded which was about to be. -/
theorem SealsComplete.records
    {chunk : FinishedChunk} {resume : Resume}
    {index : DayIndex FinishedChunk} (sound : PoolSound limits pool)
    (ids : IdsSound pool) (seals : SealsComplete pool)
    (isQueued : group ∈ queuedGroups)
    (isStage : (pool.writers group).stage = .record chunk resume)
    (recorded : pool.index.recordGenerated chunk.utcDate chunk = .ok index)
    (idles : Idles group { pool with index := index } after) :
    SealsComplete after := by
  have pending : (pool.writers group).unrecorded = [chunk] := by
    rw [Writer.unrecorded, isStage]
  have finished := seals.finished group isQueued
  rw [pending] at finished
  have own : chunk.writerGroup = group :=
    ((sound.writers group isQueued).partitioned.exactly chunk (by
      rw [finished]
      simp)).2
  have distinct : (pool.writers group).finished.Nodup :=
    ((List.nodup_append.mp (ids.distinct group)).1).of_map _
  rw [finished] at distinct
  have isNew : (chunk.utcDate, chunk) ∉ pool.index.recorded := by
    intro known
    refine (List.nodup_append.mp distinct).2.2 chunk ?_ chunk
      (List.mem_singleton_self chunk) rfl
    exact List.mem_filter.mpr
      ⟨List.mem_map_of_mem known, by simpa using own⟩
  rcases DayIndex.recordGenerated_eq_ok_iff.mp recorded with
    ⟨unsealed, isIndex⟩
  rw [if_neg isNew] at isIndex
  have sealedSame : index.sealedDays = pool.index.sealedDays := by
    rw [isIndex]
  have others : ∀ utcDate, pool.index.DayIsSealed utcDate →
      index.refs utcDate = pool.index.refs utcDate := by
    intro utcDate isSealed
    have different : chunk.utcDate ≠ utcDate := by
      rintro rfl
      exact unsealed isSealed
    rw [isIndex]
    simp [DayIndex.refs, different]
  exact {
    dated := by
      rw [idles.index, isIndex]
      intro entry member
      rcases List.mem_append.mp member with old | new
      · exact seals.dated entry old
      · rw [List.mem_singleton.mp new]
    queued := by
      rw [idles.index, isIndex]
      intro entry member
      rcases List.mem_append.mp member with old | new
      · exact seals.queued entry old
      · rw [List.mem_singleton.mp new]
        exact own ▸ isQueued
    finished := by
      intro other isOther
      rw [idles.index, idles.finished, isIndex, recordedBy_concat]
      by_cases here : other = group
      · rw [here, idles.idle, if_pos own, finished, List.append_nil]
      · rw [idles.others other here, if_neg (own.trans_ne (Ne.symm here)),
          List.append_nil]
        exact seals.finished other isOther
    agree := by
      rw [idles.index]
      intro utcDate inventory found
      rw [sealedSame] at found
      have isSealed : pool.index.DayIsSealed utcDate := by
        rw [DayIndex.DayIsSealed, found]
        rfl
      rw [others utcDate isSealed]
      exact seals.agree utcDate inventory found
    complete := by
      intro utcDate isSealed other isOther
      rw [idles.index, DayIndex.DayIsSealed, sealedSame] at isSealed
      rw [idles.index, others utcDate isSealed, Writer.acceptedOn,
        idles.accepted]
      exact seals.complete utcDate isSealed other isOther }

/-- An event of a day which is not sealed is accepted. -/
theorem SealsComplete.accept
    {event : RawEvent} (seals : SealsComplete pool)
    (isOpen : ¬ pool.index.DayIsSealed event.receiveDate) :
    SealsComplete (pool.accept event) where
  dated := seals.dated
  queued := seals.queued
  finished other isQueued := by
    by_cases here : other = event.writerGroup
    · subst here
      rw [PoolState.accept, setWriter_self]
      exact seals.finished _ isQueued
    · rw [PoolState.accept, setWriter_other _ _ here]
      exact seals.finished other isQueued
  agree := seals.agree
  complete utcDate isSealed other isQueued := by
    have before := seals.complete utcDate isSealed other isQueued
    by_cases here : other = event.writerGroup
    · subst here
      have different : event.receiveDate ≠ utcDate := by
        rintro rfl
        exact isOpen isSealed
      have nothing : [event].filter (fun other => other.receiveDate = utcDate) =
          [] := by
        simp [different]
      rw [PoolState.accept, setWriter_self]
      simp only [Writer.acceptedOn, List.map_append, List.filter_append,
        List.map_cons, List.map_nil]
      rw [nothing, List.append_nil]
      exact before
    · rw [PoolState.accept, setWriter_other _ _ here]
      exact before

/-- A day is sealed behind the barrier, or again. -/
theorem SealsComplete.sealDay
    {utcDate : Nat} (sound : PoolSound limits pool) (ids : IdsSound pool)
    (seals : SealsComplete pool)
    (behind : BehindBarrier pool (.sealDay utcDate)) :
    SealsComplete { pool with index := pool.index.sealDay utcDate } := by
  have recorded : (pool.index.sealDay utcDate).recorded =
      pool.index.recorded := by
    unfold DayIndex.sealDay
    split <;> rfl
  exact {
    dated := by
      rw [recorded]
      exact seals.dated
    queued := by
      rw [recorded]
      exact seals.queued
    finished := by
      intro other isQueued
      rw [recordedBy, recorded]
      exact seals.finished other isQueued
    agree := seals.agree.sealDay utcDate
    complete := by
      intro date isSealed other isQueued
      rw [DayIndex.refs_sealDay]
      rcases DayIndex.dayIsSealed_sealDay.mp isSealed with same | already
      · subst same
        rcases behind with already | passed
        · exact seals.complete date already other isQueued
        · have nothing := seals.nothing_pending sound ids isQueued passed
          have accounting := seals.accounting sound isQueued date
          rw [nothing, List.append_nil] at accounting
          exact accounting
      · exact seals.complete date already other isQueued }

theorem SealsComplete.step
    {label : PoolLabel} (sound : PoolSound limits pool) (ids : IdsSound pool)
    (seals : SealsComplete pool) (behind : BehindBarrier pool label)
    (stepped : poolStep limits maxBytes pool label = some after) :
    SealsComplete after := by
  cases label with
  | put event =>
      simp only [poolStep] at stepped
      split_ifs at stepped
      · cases stepped
        exact seals
      · cases stepped
        exact seals.accept behind
  | rotate universeHash =>
      simp only [poolStep, Option.ite_none_right_eq_some] at stepped
      rcases stepped with ⟨_, ⟨⟩⟩
      refine seals.same rfl ?_ ?_ ?_
      all_goals
        intro other
        simp only [PoolState.beginRotate]
        split <;> rfl
  | cancelRotate =>
      rcases Option.map_eq_some_iff.mp stepped with ⟨rotation, _, rfl⟩
      exact seals.same rfl (fun _ => rfl) (fun _ => rfl) fun _ => rfl
  | returnRotate =>
      simp only [poolStep] at stepped
      split at stepped
      next =>
        cases stepped
        exact seals.same rfl (fun _ => rfl) (fun _ => rfl) fun _ => rfl
      next => cases stepped
  | stop =>
      cases stepped
      refine seals.same rfl ?_ ?_ ?_
      all_goals
        intro other
        simp only [PoolState.beginStop]
        split <;> rfl
  | timeout group tooOld =>
      simp only [poolStep] at stepped
      split_ifs at stepped with waiting
      · cases stepped
        refine seals.idles (idles_beginFinish pool .wait) ?_
        rw [Writer.unrecorded, waiting.2]
      · cases stepped
        exact seals
  | work group tooOld =>
      simp only [poolStep, Option.ite_none_right_eq_some] at stepped
      rcases stepped with ⟨isQueued, worked⟩
      rcases workStep_cases worked with
        ⟨waits, idles | ⟨chunk, closes⟩⟩ |
          ⟨chunk, resume, isStage, ⟨problem, refused⟩ |
            ⟨index, recorded, idles⟩⟩
      · exact seals.idles idles waits
      · exact seals.closes closes waits
      · have isOpen := seals.record_open sound isQueued
          (unrecorded_of_stage isStage)
        simp [DayIndex.recordGenerated, isOpen] at refused
        split_ifs at refused
      · exact seals.records sound ids isQueued isStage recorded idles
  | sealDay utcDate =>
      cases stepped
      exact seals.sealDay sound ids behind

theorem sealsComplete_started (universeHash : String) :
    SealsComplete (.started universeHash) where
  dated := by
    rintro entry ⟨⟩
  queued := by
    rintro entry ⟨⟩
  finished _ _ := rfl
  agree := by
    rintro utcDate inventory ⟨⟩
  complete := by
    rintro utcDate ⟨⟩

/-- What a run behind the barrier keeps. -/
structure BehindSound (limits : ChunkLimits) (pool : PoolState) : Prop where
  sound : PoolSound limits pool
  ids : IdsSound pool
  seals : SealsComplete pool

theorem BehindSound.step
    {label : PoolLabel} (kept : BehindSound limits pool)
    (behind : BehindBarrier pool label)
    (stepped : poolStep limits maxBytes pool label = some after) :
    BehindSound limits after where
  sound := kept.sound.step stepped
  ids := by
    rcases ids_poolStep kept.sound stepped with same | ⟨group, draws⟩
    · exact kept.ids.same same
    · exact kept.ids.draws draws
  seals := kept.seals.step kept.sound kept.ids behind stepped

theorem behindSound_started (limits : ChunkLimits) (universeHash : String) :
    BehindSound limits (.started universeHash) where
  sound := poolSound_started limits universeHash
  ids := idsSound_started universeHash
  seals := sealsComplete_started universeHash

end Runs

/-! ## Sealing without the barrier -/

/-- An event is in an open chunk when its day is sealed. -/
def unrotatedRun : List PoolLabel :=
  [.put (depthEvent 5), .work .depth false, .work .depth false,
    .sealDay 0, .rotate "second"] ++ List.replicate 5 (.work .depth false)

/-- Sealing without the barrier loses the event and its writer. -/
theorem sealed_without_rotate :
    ∃ final resume,
      runFrom (poolStep smallLimits 10000) (.started "first") unrotatedRun =
        some final ∧
      (final.writers .depth).stage = .failed resume ∧
      final.index.sealedDays.get? 0 = some [] := by
  have observed : (runFrom (poolStep smallLimits 10000) (.started "first")
      unrotatedRun).map (fun final =>
        ((final.writers .depth).stage, final.index.sealedDays.get? 0)) =
      some (.failed (.rotate ⟨1, "second"⟩), some []) := by
    decide +kernel
  rcases Option.map_eq_some_iff.mp observed with ⟨final, reached, isFinal⟩
  rcases Prod.mk.inj isFinal with ⟨isStage, inventory⟩
  exact ⟨final, _, reached, isStage, inventory⟩

end ShadowDataPlane.Edge
