import ShadowDataPlane.Edge.WriterPartition

/-!
# The ids of chunks

Every `ChunkSession` draws an id of its own, which its chunk keeps.  A step of
the pool moves ids from open chunks to finished ones or draws the next one, so
no two chunks of a run share an id (`IdsSound.run`).
-/

namespace ShadowDataPlane.Edge

open ShadowDataPlane.Foundation
open ShadowDataPlane.Contracts

/-- The ids of the chunks which a writer has finished or holds open. -/
def Writer.chunkIds (writer : Writer) : List Nat :=
  writer.finished.map FinishedChunk.chunkId ++
    writer.session.toList.map ChunkSession.chunkId

/-- Every id has been drawn, and no two chunks have the same. -/
structure IdsSound (pool : PoolState) : Prop where
  drawn : ∀ group, ∀ chunkId ∈ (pool.writers group).chunkIds,
    chunkId < pool.chunksCreated
  distinct : ∀ group, (pool.writers group).chunkIds.Nodup
  apart : ∀ left right, left ≠ right →
    (pool.writers left).chunkIds.Disjoint (pool.writers right).chunkIds

/-- No id is drawn. -/
structure SameIds (before after : PoolState) : Prop where
  created : after.chunksCreated = before.chunksCreated
  ids : ∀ group,
    (after.writers group).chunkIds = (before.writers group).chunkIds

/-- A writer draws the next id. -/
structure DrawsId (group : WriterGroup) (before after : PoolState) :
    Prop where
  created : after.chunksCreated = before.chunksCreated + 1
  own : (after.writers group).chunkIds =
    (before.writers group).chunkIds ++ [before.chunksCreated]
  others : ∀ other, other ≠ group →
    (after.writers other).chunkIds = (before.writers other).chunkIds

section Invariant

variable {before middle after : PoolState} {group : WriterGroup}

theorem SameIds.refl (pool : PoolState) : SameIds pool pool :=
  ⟨rfl, fun _ => rfl⟩

/-- A step which leaves all writers as they are. -/
theorem sameIds_of_same
    (writers : after.writers = before.writers)
    (created : after.chunksCreated = before.chunksCreated) :
    SameIds before after := by
  refine ⟨created, fun group => ?_⟩
  rw [writers]

theorem SameIds.trans
    (first : SameIds before middle) (second : SameIds middle after) :
    SameIds before after :=
  ⟨second.created.trans first.created,
    fun group => (second.ids group).trans (first.ids group)⟩

theorem DrawsId.trans
    (first : DrawsId group before middle) (second : SameIds middle after) :
    DrawsId group before after where
  created := second.created.trans first.created
  own := (second.ids group).trans first.own
  others other different :=
    (second.ids other).trans (first.others other different)

theorem IdsSound.same
    (sound : IdsSound before) (same : SameIds before after) :
    IdsSound after where
  drawn group chunkId member := by
    rw [same.created]
    rw [same.ids] at member
    exact sound.drawn group chunkId member
  distinct group := by
    rw [same.ids]
    exact sound.distinct group
  apart left right different := by
    rw [same.ids, same.ids]
    exact sound.apart left right different

theorem IdsSound.draws
    (sound : IdsSound before) (draws : DrawsId group before after) :
    IdsSound after := by
  have fresh : ∀ other, before.chunksCreated ∉
      (before.writers other).chunkIds :=
    fun other member => lt_irrefl _ (sound.drawn other _ member)
  have ids : ∀ other chunkId, chunkId ∈ (after.writers other).chunkIds →
      chunkId ∈ (before.writers other).chunkIds ∨
        other = group ∧ chunkId = before.chunksCreated := by
    intro other chunkId member
    by_cases here : other = group
    · subst here
      rw [draws.own, List.mem_append, List.mem_singleton] at member
      exact member.imp_right fun isNew => ⟨rfl, isNew⟩
    · rw [draws.others other here] at member
      exact Or.inl member
  constructor
  · intro other chunkId member
    rw [draws.created]
    rcases ids other chunkId member with old | ⟨_, rfl⟩
    · exact Nat.lt_succ_of_lt (sound.drawn other chunkId old)
    · exact Nat.lt_succ_self _
  · intro other
    by_cases here : other = group
    · subst here
      rw [draws.own]
      refine List.nodup_append.mpr ⟨sound.distinct other,
        List.nodup_singleton _, ?_⟩
      rintro chunkId old other' isNew rfl
      rw [List.mem_singleton.mp isNew] at old
      exact fresh _ old
    · rw [draws.others other here]
      exact sound.distinct other
  · intro left right different chunkId isLeft isRight
    rcases ids left chunkId isLeft with oldLeft | ⟨rfl, rfl⟩
    · rcases ids right chunkId isRight with oldRight | ⟨rfl, rfl⟩
      · exact sound.apart left right different oldLeft oldRight
      · exact fresh left oldLeft
    · rcases ids right _ isRight with oldRight | ⟨rfl, _⟩
      · exact fresh right oldRight
      · exact different rfl

end Invariant

/-! ## The turn of a writer -/

section Turns

variable {limits : ChunkLimits} {pool after : PoolState}
variable {group : WriterGroup}

theorem sameIds_setWriter
    (pool : PoolState) {writer : Writer}
    (same : writer.chunkIds = (pool.writers group).chunkIds) :
    SameIds pool (pool.setWriter group writer) where
  created := rfl
  ids other := by
    by_cases here : other = group
    · subst here
      rw [setWriter_self]
      exact same
    · rw [setWriter_other pool writer here]

theorem sameIds_raiseTo (pool : PoolState) (resume : Resume) :
    SameIds pool (pool.raiseTo resume) := by
  cases resume with
  | rotate tag =>
      simp only [PoolState.raiseTo]
      split <;> exact ⟨rfl, fun _ => rfl⟩
  | add _ | wait | stop => exact SameIds.refl pool

theorem sameIds_fail (pool : PoolState) (resume : Resume) :
    SameIds pool (pool.fail group resume) := by
  refine SameIds.trans ?_ (sameIds_raiseTo _ resume)
  exact sameIds_setWriter pool rfl

theorem sameIds_resumeWith (pool : PoolState) (resume : Resume) :
    SameIds pool (pool.resumeWith group resume) := by
  cases resume with
  | add _ | wait | stop => exact sameIds_setWriter pool rfl
  | rotate tag =>
      simp only [PoolState.resumeWith]
      split
      · exact sameIds_setWriter pool rfl
      · refine SameIds.trans (sameIds_setWriter pool ?_) (sameIds_of_same rfl rfl)
        rfl

theorem sameIds_beginFinish (pool : PoolState) (resume : Resume) :
    SameIds pool (pool.beginFinish group resume) := by
  unfold PoolState.beginFinish
  split
  · exact sameIds_resumeWith pool resume
  · exact sameIds_setWriter pool rfl

theorem sameIds_checkFull
    (pool : PoolState) (session : ChunkSession) (tooOld : Bool) :
    SameIds pool (pool.checkFull limits group session tooOld) := by
  unfold PoolState.checkFull
  split
  · exact sameIds_beginFinish pool .wait
  · exact sameIds_setWriter pool rfl

/-- An event enters a chunk, which may have been opened for it. -/
theorem addEvent_ids
    (pool : PoolState) (session : ChunkSession) (queued : QueuedEvent)
    (tooOld : Bool) :
    SameIds
      (pool.setWriter group
        { pool.writers group with session := some session })
      (pool.addEvent limits group session queued tooOld) := by
  have same : ∀ stage, SameIds
      (pool.setWriter group
        { pool.writers group with session := some session })
      (pool.setWriter group
        { pool.writers group with
          session := some (session.add limits queued).1
          stage := stage }) := by
    intro stage
    refine ⟨rfl, fun other => ?_⟩
    by_cases here : other = group
    · subst here
      simp only [setWriter_self, Writer.chunkIds, ChunkSession.add,
        Option.toList_some, List.map_cons, List.map_nil]
    · rw [setWriter_other _ _ here, setWriter_other _ _ here]
  simp only [PoolState.addEvent]
  split
  · exact same .flushBatch
  · exact (same (pool.writers group).stage).trans
      (sameIds_checkFull _ _ tooOld)

theorem sameIds_takeItem
    (pool : PoolState) (item : WriterItem) (tooOld : Bool) :
    SameIds pool (pool.takeItem limits group tooOld item) := by
  cases item with
  | queued queued =>
      simp only [PoolState.takeItem]
      split
      next => exact sameIds_setWriter pool rfl
      next session isOpen =>
        split
        next => exact sameIds_beginFinish pool _
        next =>
          refine SameIds.trans (sameIds_setWriter pool ?_)
            (addEvent_ids pool session queued tooOld)
          simp only [Writer.chunkIds, isOpen]
  | rotate _ | stop => exact sameIds_beginFinish pool _

/-- A chunk which is opened has the next id. -/
theorem drawsId_create
    {queued : QueuedEvent} (closed : (pool.writers group).session = none)
    (session : ChunkSession) (isNext : session.chunkId = pool.chunksCreated)
    (tooOld : Bool) :
    DrawsId group pool
      (({ pool with chunksCreated := pool.chunksCreated + 1 }).addEvent
        limits group session queued tooOld) := by
  refine DrawsId.trans ?_ (addEvent_ids _ session queued tooOld)
  refine ⟨rfl, ?_, fun other different => ?_⟩
  · simp [Writer.chunkIds, closed, isNext]
  · rw [setWriter_other _ _ different]

theorem chunkId_of_finish
    {session : ChunkSession} {chunk : FinishedChunk}
    (finished : session.finish group = some chunk) :
    chunk.chunkId = session.chunkId := by
  unfold ChunkSession.finish at finished
  split_ifs at finished
  split at finished
  next => rw [← Option.some.inj finished]
  next => cases finished

theorem ids_workStep
    {tooOld : Bool} {index : DayIndex FinishedChunk} {hashes : List String}
    (sound : WriterSound limits group hashes index (pool.writers group))
    (stepped : pool.workStep limits group tooOld = some after) :
    SameIds pool after ∨ DrawsId group pool after := by
  simp only [PoolState.workStep] at stepped
  split at stepped
  next isStage =>
    split at stepped
    next => cases stepped
    next item items _ =>
      cases stepped
      refine Or.inl (SameIds.trans ?_ (sameIds_takeItem _ item tooOld))
      exact sameIds_setWriter pool rfl
  next queued isStage =>
    cases stepped
    have fits := sound.fits
    rw [isStage] at fits
    exact Or.inr (drawsId_create fits _ rfl tooOld)
  next session isStage isOpen =>
    apply Or.inl
    split at stepped
    next =>
      cases stepped
      refine (sameIds_setWriter pool ?_).trans (sameIds_checkFull _ _ tooOld)
      simp [Writer.chunkIds, isOpen, ChunkSession.flush]
    next =>
      cases stepped
      apply sameIds_setWriter
      simp [Writer.chunkIds, isOpen, ChunkSession.flush]
  next reserved session isStage isOpen =>
    apply Or.inl
    split at stepped
    next =>
      cases stepped
      exact sameIds_fail pool _
    next released =>
      cases stepped
      rw [release_eq_some released]
      refine SameIds.trans ?_ (sameIds_checkFull _ _ tooOld)
      exact sameIds_of_same rfl rfl
  next resume session isStage isOpen =>
    cases stepped
    apply Or.inl
    apply sameIds_setWriter
    simp [Writer.chunkIds, isOpen, ChunkSession.flush]
  next reserved resume isStage =>
    apply Or.inl
    split at stepped
    next =>
      cases stepped
      exact sameIds_fail pool _
    next released =>
      cases stepped
      rw [release_eq_some released]
      refine SameIds.trans ?_ (sameIds_setWriter _ rfl)
      exact sameIds_of_same rfl rfl
  next resume session isStage isOpen =>
    apply Or.inl
    split at stepped
    next =>
      cases stepped
      exact sameIds_fail pool _
    next chunk finished =>
      cases stepped
      apply sameIds_setWriter
      have sameId : chunk.chunkId = session.chunkId :=
        chunkId_of_finish finished
      simp [Writer.chunkIds, isOpen, sameId]
  next chunk resume isStage =>
    apply Or.inl
    split at stepped
    next =>
      cases stepped
      exact sameIds_fail pool _
    next index recorded =>
      cases stepped
      refine SameIds.trans ?_ (sameIds_resumeWith _ resume)
      refine SameIds.trans ?_ (sameIds_setWriter _ rfl)
      exact sameIds_of_same rfl rfl
  all_goals cases stepped

end Turns

/-! ## Whole runs -/

section Runs

variable {limits : ChunkLimits} {maxBytes : Nat} {before after : PoolState}

/-- Items of the queues are no chunks. -/
theorem sameIds_of_queues
    {writers : WriterGroup → Writer}
    (same : ∀ group, (writers group).finished =
      (before.writers group).finished ∧
        (writers group).session = (before.writers group).session)
    (writersAfter : after.writers = writers)
    (created : after.chunksCreated = before.chunksCreated) :
    SameIds before after := by
  refine ⟨created, fun group => ?_⟩
  rw [writersAfter, Writer.chunkIds, Writer.chunkIds, (same group).1,
    (same group).2]

theorem ids_poolStep
    {label : PoolLabel} (sound : PoolSound limits before)
    (stepped : poolStep limits maxBytes before label = some after) :
    SameIds before after ∨ ∃ group, DrawsId group before after := by
  cases label with
  | put event =>
      simp only [poolStep] at stepped
      split_ifs at stepped
      · cases stepped
        exact Or.inl (SameIds.refl _)
      · cases stepped
        apply Or.inl
        refine SameIds.trans ?_ (sameIds_setWriter _ rfl)
        exact sameIds_of_same rfl rfl
  | rotate universeHash =>
      simp only [poolStep, Option.ite_none_right_eq_some] at stepped
      rcases stepped with ⟨_, ⟨⟩⟩
      refine Or.inl (sameIds_of_queues (fun group => ?_) rfl rfl)
      simp only [PoolState.beginRotate]
      split <;> exact ⟨rfl, rfl⟩
  | cancelRotate =>
      rcases Option.map_eq_some_iff.mp stepped with ⟨rotation, _, rfl⟩
      exact Or.inl (sameIds_of_same rfl rfl)
  | returnRotate =>
      simp only [poolStep] at stepped
      split at stepped
      next =>
        cases stepped
        exact Or.inl (sameIds_of_same rfl rfl)
      next => cases stepped
  | stop =>
      cases stepped
      refine Or.inl (sameIds_of_queues (fun group => ?_) rfl rfl)
      simp only [PoolState.beginStop]
      split <;> exact ⟨rfl, rfl⟩
  | timeout group tooOld =>
      simp only [poolStep] at stepped
      split_ifs at stepped
      · cases stepped
        exact Or.inl (sameIds_beginFinish before .wait)
      · cases stepped
        exact Or.inl (SameIds.refl _)
  | work group tooOld =>
      simp only [poolStep, Option.ite_none_right_eq_some] at stepped
      rcases stepped with ⟨isQueued, worked⟩
      exact (ids_workStep (sound.writers group isQueued) worked).imp_right
        fun draws => ⟨group, draws⟩
  | sealDay utcDate =>
      cases stepped
      exact Or.inl (sameIds_of_same rfl rfl)

theorem idsSound_started (universeHash : String) :
    IdsSound (.started universeHash) where
  drawn := by
    rintro group chunkId ⟨⟩
  distinct _ := List.nodup_nil
  apart := by
    rintro left right _ chunkId ⟨⟩

/-- At every moment of every run the pool is sound, and no id comes twice. -/
theorem IdsSound.run
    {universeHash : String} {labels : List PoolLabel} {final : PoolState}
    (reached : runFrom (poolStep limits maxBytes) (.started universeHash)
      labels = some final) :
    PoolSound limits final ∧ IdsSound final := by
  have preserved : ∀ before label after,
      PoolSound limits before ∧ IdsSound before → True →
        poolStep limits maxBytes before label = some after →
          PoolSound limits after ∧ IdsSound after := by
    rintro before label after ⟨sound, ids⟩ _ stepped
    refine ⟨sound.step stepped, ?_⟩
    rcases ids_poolStep sound stepped with same | ⟨group, draws⟩
    · exact ids.same same
    · exact ids.draws draws
  exact invariant_of_run preserved
    ⟨poolSound_started limits universeHash, idsSound_started universeHash⟩
    (stepsMeet_true _ labels) reached

/-- Two finished chunks with one id are the same chunk. -/
theorem IdsSound.eq_of_chunkId
    {pool : PoolState} (ids : IdsSound pool) {left right : WriterGroup}
    {chunk other : FinishedChunk}
    (isChunk : chunk ∈ (pool.writers left).finished)
    (isOther : other ∈ (pool.writers right).finished)
    (sameId : chunk.chunkId = other.chunkId) : chunk = other := by
  have known : ∀ group, ∀ chunk ∈ (pool.writers group).finished,
      chunk.chunkId ∈ (pool.writers group).chunkIds :=
    fun group chunk member =>
      List.mem_append_left _ (List.mem_map_of_mem member)
  by_cases sameWriter : left = right
  · subst sameWriter
    have distinct := (List.nodup_append.mp (ids.distinct left)).1
    exact List.inj_on_of_nodup_map distinct isChunk isOther sameId
  · have isRight := known right other isOther
    rw [← sameId] at isRight
    exact absurd isRight
      (ids.apart left right sameWriter (known left chunk isChunk))

end Runs

end ShadowDataPlane.Edge
