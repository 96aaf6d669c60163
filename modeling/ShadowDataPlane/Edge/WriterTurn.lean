import ShadowDataPlane.Edge.WriterContents

/-!
# The turn of a writer

What a writer does between two awaits concerns its own queue and chunks, the
day index, which it only adds to, and the `rotate` call which waits for it.
`Turn` says so, and `WriterWorked` adds that the writer is left sound.
-/

namespace ShadowDataPlane.Edge

open ShadowDataPlane.Foundation
open ShadowDataPlane.Contracts

/-! ## The turn of a writer -/

/-- What a turn leaves of a writer, and what it may add. -/
structure WriterGrows (before after : Writer) : Prop where
  forward : before.tag.rotation ≤ after.tag.rotation
  accepted : after.accepted = before.accepted
  finished : before.finished <+: after.finished
  durable : ∀ durableNs ∈ after.durableThroughNs,
    durableNs ∈ before.durableThroughNs ∨
      ∃ chunk ∈ after.finished,
        chunk.maxAppReceiveRealtimeNs = durableNs

/-- What a turn of one writer means to the pool. -/
structure Turn (group : WriterGroup) (before after : PoolState) : Prop where
  others : ∀ other, other ≠ group →
    after.writers other = before.writers other
  hashes : after.hashes = before.hashes
  returned : after.returned = before.returned
  index : ∀ date chunk, chunk ∈ before.index.refs date →
    chunk ∈ after.index.refs date
  sealedDays : after.index.sealedDays = before.index.sealedDays
  grows : WriterGrows (before.writers group) (after.writers group)
  rotation : ∀ rotation ∈ after.rotation, ∃ earlier ∈ before.rotation,
    rotation.tag = earlier.tag ∧
      ∀ other ∈ earlier.pending, other ∈ rotation.pending ∨
        other = group ∧
          rotation.tag.rotation ≤ (after.writers group).tag.rotation

/-- The turn leaves its writer sound. -/
structure WriterWorked (limits : ChunkLimits) (group : WriterGroup)
    (before after : PoolState) : Prop extends Turn group before after where
  sound : WriterSound limits group after.hashes after.index
    (after.writers group)

section Turns

variable {limits : ChunkLimits} {group : WriterGroup}
  {before middle after : PoolState}

theorem WriterGrows.trans
    {first second third : Writer} (earlier : WriterGrows first second)
    (later : WriterGrows second third) : WriterGrows first third where
  forward := earlier.forward.trans later.forward
  accepted := later.accepted.trans earlier.accepted
  finished := earlier.finished.trans later.finished
  durable := by
    intro durableNs isDurable
    rcases later.durable durableNs isDurable with old | new
    · apply (earlier.durable durableNs old).imp_right
      rintro ⟨chunk, member, isMax⟩
      exact ⟨chunk, later.finished.subset member, isMax⟩
    · exact Or.inr new

/-- A writer whose chunks and watermark stay as they are. -/
theorem writerGrows_of_same
    {before after : Writer}
    (forward : before.tag.rotation ≤ after.tag.rotation)
    (accepted : after.accepted = before.accepted)
    (finished : after.finished = before.finished)
    (durable : after.durableThroughNs = before.durableThroughNs) :
    WriterGrows before after where
  forward := forward
  accepted := accepted
  finished := by
    simp only [finished, List.prefix_rfl]
  durable := by
    rw [durable]
    exact fun _ => Or.inl

theorem Turn.trans
    (first : Turn group before middle) (second : Turn group middle after) :
    Turn group before after where
  others other different :=
    (second.others other different).trans (first.others other different)
  hashes := second.hashes.trans first.hashes
  returned := second.returned.trans first.returned
  index date chunk member :=
    second.index date chunk (first.index date chunk member)
  sealedDays := second.sealedDays.trans first.sealedDays
  grows := first.grows.trans second.grows
  rotation := by
    intro rotation current
    rcases second.rotation rotation current with
      ⟨between, isBetween, sameTag, answered⟩
    rcases first.rotation between isBetween with
      ⟨earlier, isEarlier, sameTag', answered'⟩
    refine ⟨earlier, isEarlier, sameTag.trans sameTag', ?_⟩
    intro other waiting
    rcases answered' other waiting with still | ⟨rfl, reached⟩
    · exact answered other still
    · rw [← sameTag] at reached
      exact Or.inr ⟨rfl, reached.trans second.grows.forward⟩

theorem setWriter_other
    (pool : PoolState) {group other : WriterGroup} (writer : Writer)
    (different : other ≠ group) :
    (pool.setWriter group writer).writers other = pool.writers other :=
  Function.update_of_ne different ..

@[simp]
theorem setWriter_self (pool : PoolState) (group : WriterGroup)
    (writer : Writer) : (pool.setWriter group writer).writers group = writer :=
  Function.update_self ..

/-- The shared parts of the pool are left as they are. -/
theorem turn_setWriter
    (pool : PoolState) {writer : Writer}
    (grows : WriterGrows (pool.writers group) writer) :
    Turn group pool (pool.setWriter group writer) where
  others _ different := setWriter_other pool writer different
  hashes := rfl
  returned := rfl
  index _ _ member := member
  sealedDays := rfl
  grows := by
    rw [setWriter_self]
    exact grows
  rotation := fun rotation current =>
    ⟨rotation, current, rfl, fun _ waiting => Or.inl waiting⟩

/-- A writer of its own may be set to any sound one. -/
theorem worked_setWriter
    {pool : PoolState} {writer : Writer}
    (grows : WriterGrows (pool.writers group) writer)
    (sound : WriterSound limits group pool.hashes pool.index writer) :
    WriterWorked limits group pool (pool.setWriter group writer) where
  toTurn := turn_setWriter pool grows
  sound := by
    rw [setWriter_self]
    exact sound

theorem WriterWorked.after_turn
    (first : Turn group before middle) (second : WriterWorked limits group middle after) :
    WriterWorked limits group before after where
  toTurn := first.trans second.toTurn
  sound := second.sound

/-- The writer raises; only a `rotate` which waits for it notices. -/
theorem worked_fail
    {pool : PoolState} {resume : Resume}
    (sound : WriterSound limits group pool.hashes pool.index
      { pool.writers group with stage := .failed resume }) :
    WriterWorked limits group pool (pool.fail group resume) := by
  have set : WriterWorked limits group pool
      (pool.setWriter group
        { pool.writers group with stage := .failed resume }) := by
    apply worked_setWriter
    · exact writerGrows_of_same (le_refl _) rfl rfl rfl
    · exact sound
  have raised : ∀ pool : PoolState,
      pool.raiseTo resume = pool ∨
        pool.raiseTo resume = { pool with rotation := none } := by
    intro pool
    cases resume with
    | rotate tag =>
        simp only [PoolState.raiseTo]
        split
        · exact Or.inr rfl
        · exact Or.inl rfl
    | add queued => exact Or.inl rfl
    | wait => exact Or.inl rfl
    | stop => exact Or.inl rfl
  rw [PoolState.fail]
  rcases raised (pool.setWriter group
    { pool.writers group with stage := .failed resume }) with same | dropped
  · rw [same]
    exact set
  · rw [dropped]
    exact {
      others := set.others
      hashes := set.hashes
      returned := set.returned
      index := set.index
      sealedDays := set.sealedDays
      grows := set.grows
      rotation := by
        rintro rotation ⟨⟩
      sound := set.sound }

theorem worked_resumeWith
    {pool : PoolState} {resume : Resume}
    (closed : (pool.writers group).session = none)
    (sound : WriterSound limits group pool.hashes pool.index
      { pool.writers group with stage := .flush resume }) :
    WriterWorked limits group pool (pool.resumeWith group resume) := by
  have recorded := sound.all_recorded fun _ => id
  cases resume with
  | add queued =>
      apply worked_setWriter
      · exact writerGrows_of_same (le_refl _) rfl rfl rfl
      · exact sound.restage rfl closed fun chunk member =>
          Or.inl (recorded chunk member)
  | wait =>
      apply worked_setWriter
      · exact writerGrows_of_same (le_refl _) rfl rfl rfl
      · exact sound.restage rfl trivial fun chunk member =>
          Or.inl (recorded chunk member)
  | stop =>
      apply worked_setWriter
      · exact writerGrows_of_same (le_refl _) rfl rfl rfl
      · exact sound.restage rfl trivial fun chunk member =>
          Or.inl (recorded chunk member)
  | rotate tag =>
      have forward : (pool.writers group).tag.rotation ≤ tag.rotation :=
        sound.forward
      simp only [PoolState.resumeWith]
      split
      next =>
        apply worked_setWriter
        · exact writerGrows_of_same forward rfl rfl rfl
        · exact sound.reach closed (Or.inr rfl) trivial
      next =>
        have set : WriterWorked limits group pool
            (pool.setWriter group
              { pool.writers group with
                tag := tag
                stage := .wait }) :=
          worked_setWriter (writerGrows_of_same forward rfl rfl rfl)
            (sound.reach closed (Or.inl rfl) trivial)
        exact {
          others := set.others
          hashes := set.hashes
          returned := set.returned
          index := set.index
          sealedDays := set.sealedDays
          grows := set.grows
          rotation := by
            intro rotation current
            rcases Option.map_eq_some_iff.mp current with
              ⟨earlier, isEarlier, isRotation⟩
            refine ⟨earlier, isEarlier, ?_⟩
            split at isRotation
            next sameTag =>
              subst isRotation
              refine ⟨rfl, ?_⟩
              intro other waiting
              by_cases here : other = group
              · subst here
                right
                refine ⟨rfl, ?_⟩
                simp only [PoolState.answer, setWriter_self, sameTag, le_refl]
              · left
                exact (List.mem_erase_of_ne here).mpr waiting
            next =>
              subst isRotation
              exact ⟨rfl, fun _ waiting => Or.inl waiting⟩
          sound := set.sound }

theorem worked_beginFinish
    {pool : PoolState} {resume : Resume}
    (sound : WriterSound limits group pool.hashes pool.index
      { pool.writers group with stage := .flush resume }) :
    WriterWorked limits group pool (pool.beginFinish group resume) := by
  unfold PoolState.beginFinish
  split
  next closed => exact worked_resumeWith closed sound
  next =>
    apply worked_setWriter
    · exact writerGrows_of_same (le_refl _) rfl rfl rfl
    · exact sound

theorem worked_checkFull
    {pool : PoolState} {session : ChunkSession} {tooOld : Bool}
    (sound : WriterSound limits group pool.hashes pool.index
      { pool.writers group with stage := .wait }) :
    WriterWorked limits group pool
      (pool.checkFull limits group session tooOld) := by
  unfold PoolState.checkFull
  split
  next =>
    apply worked_beginFinish
    exact sound.restage rfl trivial fun chunk member =>
      Or.inl (sound.all_recorded (fun _ => id) chunk member)
  next =>
    apply worked_setWriter
    · exact writerGrows_of_same (le_refl _) rfl rfl rfl
    · exact sound

theorem worked_addEvent
    {pool : PoolState} {session : ChunkSession} {queued : QueuedEvent}
    {tooOld : Bool}
    (sound : WriterSound limits group pool.hashes pool.index
      { pool.writers group with
        session := some session
        stage := .flush (.add queued) })
    (stays : session.shouldRotateBefore limits queued.event = false) :
    WriterWorked limits group pool
      (pool.addEvent limits group session queued tooOld) := by
  simp only [PoolState.addEvent]
  split
  next =>
    apply worked_setWriter
    · exact writerGrows_of_same (le_refl _) rfl rfl rfl
    · exact sound.add stays rfl trivial
  next =>
    have turn : Turn group pool
        (pool.setWriter group
          { pool.writers group with
            session := some (session.add limits queued).1 }) := by
      apply turn_setWriter
      exact writerGrows_of_same (le_refl _) rfl rfl rfl
    apply WriterWorked.after_turn turn
    apply worked_checkFull
    rw [setWriter_self]
    exact sound.add stays rfl trivial

theorem worked_takeItem
    {pool : PoolState} {item : WriterItem} {tooOld : Bool}
    (sound : WriterSound limits group pool.hashes pool.index
      { pool.writers group with stage := .flush item.resume }) :
    WriterWorked limits group pool
      (pool.takeItem limits group tooOld item) := by
  cases item with
  | queued queued =>
      simp only [PoolState.takeItem]
      split
      next closed =>
        apply worked_setWriter
        · exact writerGrows_of_same (le_refl _) rfl rfl rfl
        · exact sound.restage rfl closed fun chunk member =>
            Or.inl (sound.all_recorded (fun _ => id) chunk member)
      next session isOpen =>
        split
        next => exact worked_beginFinish sound
        next stays =>
          apply worked_addEvent _ (by simpa using stays)
          rw [← isOpen]
          exact sound
  | rotate tag => exact worked_beginFinish sound
  | stop => exact worked_beginFinish sound

/-- Freeing bytes of the budget concerns no writer. -/
theorem release_eq_some
    {pool after : PoolState} {reserved : Nat}
    (released : pool.release reserved = some after) :
    after = { pool with usedBytes := pool.usedBytes - reserved } := by
  unfold PoolState.release at released
  split at released
  next =>
    cases released
    rfl
  next => cases released

/-- A step which leaves all writers and their `rotate` as they are. -/
theorem turn_of_same
    (writers : after.writers = before.writers)
    (hashes : after.hashes = before.hashes)
    (returned : after.returned = before.returned)
    (rotation : after.rotation = before.rotation)
    (index : ∀ date chunk, chunk ∈ before.index.refs date →
      chunk ∈ after.index.refs date)
    (sealedDays : after.index.sealedDays = before.index.sealedDays) :
    Turn group before after where
  others other _ := congrFun writers other
  hashes := hashes
  returned := returned
  index := index
  sealedDays := sealedDays
  grows := by
    rw [writers]
    exact writerGrows_of_same (le_refl _) rfl rfl rfl
  rotation := by
    rw [rotation]
    exact fun current isCurrent =>
      ⟨current, isCurrent, rfl, fun _ waiting => Or.inl waiting⟩

theorem turn_release
    {pool : PoolState} {reserved : Nat}
    (released : pool.release reserved = some after) :
    Turn group pool after := by
  rw [release_eq_some released]
  apply turn_of_same
  · rfl
  · rfl
  · rfl
  · rfl
  · exact fun _ _ member => member
  · rfl

theorem mem_refs_recordGenerated
    {index later : DayIndex FinishedChunk} {chunk : FinishedChunk}
    (recorded : index.recordGenerated chunk.utcDate chunk = .ok later) :
    chunk ∈ later.refs chunk.utcDate ∧
      ∀ date other, other ∈ index.refs date → other ∈ later.refs date := by
  constructor
  · rw [DayIndex.refs_recordGenerated recorded]
    split
    next => exact List.mem_append_right _ List.mem_cons_self
    next known => exact not_not.mp fun unknown => known ⟨rfl, unknown⟩
  · intro date other member
    rw [DayIndex.refs_recordGenerated recorded]
    split
    next => exact List.mem_append_left _ member
    next => exact member

/-- The day index takes in the chunk which has just been finished. -/
theorem worked_record
    {pool : PoolState} {chunk : FinishedChunk} {resume : Resume}
    {index : DayIndex FinishedChunk}
    (sound : WriterSound limits group pool.hashes pool.index
      (pool.writers group))
    (isStage : (pool.writers group).stage = .record chunk resume)
    (recorded : pool.index.recordGenerated chunk.utcDate chunk = .ok index) :
    WriterWorked limits group pool
      ((pool.noteRecorded group chunk index).resumeWith group resume) := by
  rcases mem_refs_recordGenerated recorded with ⟨isKnown, grows⟩
  have fits := sound.fits
  rw [isStage] at fits
  rcases fits with ⟨closed, finished⟩
  have turn : Turn group pool (pool.noteRecorded group chunk index) := by
    have indexed : Turn group pool { pool with index := index } := by
      apply turn_of_same
      · rfl
      · rfl
      · rfl
      · rfl
      · exact grows
      · exact DayIndex.sealedDays_recordGenerated recorded
    apply indexed.trans
    apply turn_setWriter
    exact {
      forward := le_refl _
      accepted := rfl
      finished := List.prefix_refl _
      durable := by
        rintro _ ⟨⟩
        cases known : (pool.writers group).durableThroughNs with
        | none => exact Or.inr ⟨chunk, finished, (Nat.zero_max _).symm⟩
        | some earlier =>
            rcases max_choice earlier chunk.maxAppReceiveRealtimeNs with
              old | new
            · exact Or.inl (congrArg some old.symm)
            · exact Or.inr ⟨chunk, finished, new.symm⟩ }
  have restaged : WriterSound limits group pool.hashes index
      { pool.writers group with stage := .flush resume } := by
    apply (sound.mono grows).restage
    · rw [isStage]
      rfl
    · trivial
    · intro other member
      left
      rcases sound.recorded other member with known | ⟨_, missed⟩
      · exact grows _ other known
      · rw [isStage] at missed
        rw [show other = chunk from missed]
        exact isKnown
  apply WriterWorked.after_turn turn
  apply worked_resumeWith
  · rw [PoolState.noteRecorded, setWriter_self]
    exact closed
  · rw [PoolState.noteRecorded, setWriter_self]
    exact { restaged with }

theorem worked_workStep
    {pool : PoolState} {tooOld : Bool}
    (sound : WriterSound limits group pool.hashes pool.index
      (pool.writers group))
    (stepped : pool.workStep limits group tooOld = some after) :
    WriterWorked limits group pool after := by
  simp only [PoolState.workStep] at stepped
  split at stepped
  next isStage =>
    split at stepped
    next => cases stepped
    next item items head =>
      cases stepped
      have turn : Turn group pool
          (pool.setWriter group
            { pool.writers group with queue := items }) := by
        apply turn_setWriter
        exact writerGrows_of_same (le_refl _) rfl rfl rfl
      apply WriterWorked.after_turn turn
      apply worked_takeItem
      rw [setWriter_self]
      exact sound.take isStage head
  next queued isStage =>
    cases stepped
    have turn : Turn group pool
        { pool with chunksCreated := pool.chunksCreated + 1 } := by
      apply turn_of_same
      · rfl
      · rfl
      · rfl
      · rfl
      · exact fun _ _ member => member
      · rfl
    apply WriterWorked.after_turn turn
    apply worked_addEvent
    · exact sound.create isStage _ _
    · simp [ChunkSession.shouldRotateBefore]
  next session isStage isOpen =>
    split at stepped
    next =>
      cases stepped
      have turn : Turn group pool
          (pool.setWriter group
            { pool.writers group with session := some session.flush.1 }) := by
        apply turn_setWriter
        exact writerGrows_of_same (le_refl _) rfl rfl rfl
      apply WriterWorked.after_turn turn
      apply worked_checkFull
      rw [setWriter_self]
      apply sound.flushed isOpen
      · rw [isStage]
        rfl
      · simp [isStage, WriterStage.MayMiss]
      · exact fun _ => trivial
    next =>
      cases stepped
      apply worked_setWriter
      · exact writerGrows_of_same (le_refl _) rfl rfl rfl
      · apply sound.flushed isOpen
        · rw [isStage]
          rfl
        · simp [isStage, WriterStage.MayMiss]
        · exact fun _ => trivial
  next reserved session isStage isOpen =>
    split at stepped
    next =>
      cases stepped
      apply worked_fail
      apply sound.fail
      rw [isStage]
      rfl
    next released =>
      cases stepped
      apply WriterWorked.after_turn (turn_release released)
      rw [release_eq_some released]
      apply worked_checkFull
      apply sound.restage
      · rw [isStage]
        rfl
      · trivial
      · exact fun chunk member => Or.inl (sound.all_recorded
          (by simp [isStage, WriterStage.MayMiss]) chunk member)
  next resume session isStage isOpen =>
    cases stepped
    apply worked_setWriter
    · exact writerGrows_of_same (le_refl _) rfl rfl rfl
    · apply sound.flushed isOpen
      · rw [isStage]
        split <;> rfl
      · simp [isStage, WriterStage.MayMiss]
      · intro session
        split <;> trivial
  next reserved resume isStage =>
    split at stepped
    next =>
      cases stepped
      apply worked_fail
      apply sound.fail
      rw [isStage]
      rfl
    next released =>
      cases stepped
      apply WriterWorked.after_turn (turn_release released)
      rw [release_eq_some released]
      apply worked_setWriter
      · exact writerGrows_of_same (le_refl _) rfl rfl rfl
      · apply sound.restage
        · rw [isStage]
          rfl
        · trivial
        · exact fun chunk member => Or.inl (sound.all_recorded
            (by simp [isStage, WriterStage.MayMiss]) chunk member)
  next resume session isStage isOpen =>
    split at stepped
    next =>
      cases stepped
      apply worked_fail
      apply sound.fail
      rw [isStage]
      rfl
    next chunk finished =>
      cases stepped
      apply worked_setWriter
      · exact {
          forward := le_refl _
          accepted := rfl
          finished := List.prefix_append _ _
          durable := fun _ => Or.inl }
      · exact sound.close isOpen isStage finished
  next chunk resume isStage =>
    split at stepped
    next =>
      cases stepped
      apply worked_fail
      apply sound.fail
      rw [isStage]
      rfl
    next index recorded =>
      cases stepped
      exact worked_record sound isStage recorded
  all_goals cases stepped

/-- The chunk has become too old while the writer was waiting. -/
theorem worked_timeout
    {pool : PoolState}
    (sound : WriterSound limits group pool.hashes pool.index
      (pool.writers group))
    (isStage : (pool.writers group).stage = .wait) :
    WriterWorked limits group pool (pool.beginFinish group .wait) := by
  apply worked_beginFinish
  apply sound.restage
  · rw [isStage]
    rfl
  · trivial
  · exact fun chunk member => Or.inl (sound.all_recorded
      (by simp [isStage, WriterStage.MayMiss]) chunk member)

end Turns

end ShadowDataPlane.Edge
