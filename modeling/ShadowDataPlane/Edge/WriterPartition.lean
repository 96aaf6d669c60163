import ShadowDataPlane.Edge.WriterTurn
import ShadowDataPlane.Foundation.Transition

/-!
# The writers partition what was accepted

At every moment the accepted events of a group are parted, in order, among its
finished chunks, its open chunk, the event which the writer has taken from the
queue and not yet written, and the queue.  Each part is written under the
universe hash of the `rotate` call before it, so that a `rotate` which has
returned is a barrier (`writers_partition_accepted`).
-/

namespace ShadowDataPlane.Edge

open ShadowDataPlane.Foundation
open ShadowDataPlane.Contracts

/-! ## The pool -/

/-- What holds of the pool between any two steps. -/
structure PoolSound (limits : ChunkLimits) (pool : PoolState) : Prop where
  writers : ∀ group ∈ queuedGroups,
    WriterSound limits group pool.hashes pool.index (pool.writers group)
  rotation : ∀ rotation ∈ pool.rotation, Brought pool.hashes rotation.tag ∧
    ∀ group ∈ queuedGroups, group ∉ rotation.pending →
      rotation.tag.rotation ≤ (pool.writers group).tag.rotation
  returned : ∀ tag ∈ pool.returned, Brought pool.hashes tag ∧
    ∀ group ∈ queuedGroups,
      tag.rotation ≤ (pool.writers group).tag.rotation

section Pool

variable {limits : ChunkLimits} {maxBytes : Nat} {pool after : PoolState}

theorem PoolSound.turn
    {group : WriterGroup} (sound : PoolSound limits pool)
    (turn : WriterWorked limits group pool after) : PoolSound limits after := by
  have forward : ∀ other,
      (pool.writers other).tag.rotation ≤
        (after.writers other).tag.rotation := by
    intro other
    by_cases here : other = group
    · rw [here]
      exact turn.grows.forward
    · rw [turn.others other here]
  constructor
  · intro other isQueued
    by_cases here : other = group
    · subst here
      exact turn.sound
    · rw [turn.others other here, turn.hashes]
      exact (sound.writers other isQueued).mono turn.index
  · intro rotation current
    rcases turn.rotation rotation current with
      ⟨earlier, isEarlier, sameTag, answered⟩
    rcases sound.rotation earlier isEarlier with ⟨known, reached⟩
    rw [turn.hashes, sameTag]
    refine ⟨known, ?_⟩
    intro other isQueued answers
    by_cases waiting : other ∈ earlier.pending
    · rcases answered other waiting with still | ⟨rfl, here⟩
      · exact absurd still answers
      · rw [← sameTag]
        exact here
    · exact (reached other isQueued waiting).trans (forward other)
  · intro tag isReturned
    rw [turn.returned] at isReturned
    rcases sound.returned tag isReturned with ⟨known, reached⟩
    rw [turn.hashes]
    refine ⟨known, ?_⟩
    intro other isQueued
    exact (reached other isQueued).trans (forward other)

theorem PoolSound.accept
    (sound : PoolSound limits pool) (event : RawEvent) :
    PoolSound limits (pool.accept event) := by
  have tags : ∀ group,
      ((pool.accept event).writers group).tag =
        (pool.writers group).tag := by
    intro group
    by_cases here : group = event.writerGroup
    · rw [here, PoolState.accept, setWriter_self]
    · rw [PoolState.accept, setWriter_other _ _ here]
  constructor
  · intro group isQueued
    have isSound := sound.writers group isQueued
    by_cases here : group = event.writerGroup
    · subst here
      have last := isSound.last
      have rotations : pool.rotations =
          lastRotation (pool.writers event.writerGroup).queueStart
            (pool.writers event.writerGroup).queue := by
        rw [PoolState.rotations, ← last]
        rfl
      rw [PoolState.accept, setWriter_self]
      show WriterSound limits event.writerGroup pool.hashes pool.index _
      rw [← List.append_nil pool.hashes]
      apply isSound.enqueue [] _
      · rw [rotations]
        rfl
      · rw [List.append_nil]
        exact last
      · trivial
      · rintro tag ⟨⟩
    · rw [PoolState.accept, setWriter_other _ _ here]
      exact isSound
  · intro rotation current
    rcases sound.rotation rotation current with ⟨known, reached⟩
    refine ⟨known, ?_⟩
    intro group isQueued answered
    rw [tags]
    exact reached group isQueued answered
  · intro tag isReturned
    rcases sound.returned tag isReturned with ⟨known, reached⟩
    refine ⟨known, ?_⟩
    intro group isQueued
    rw [tags]
    exact reached group isQueued

theorem PoolSound.beginRotate
    (sound : PoolSound limits pool) (universeHash : String) :
    PoolSound limits (pool.beginRotate universeHash) := by
  have writersOf : ∀ group ∈ queuedGroups,
      (pool.beginRotate universeHash).writers group =
        { pool.writers group with
          queue := (pool.writers group).queue ++
            [.rotate ⟨pool.hashes.length, universeHash⟩] } := by
    intro group isQueued
    rw [PoolState.beginRotate]
    exact if_pos isQueued
  have tags : ∀ group,
      ((pool.beginRotate universeHash).writers group).tag =
        (pool.writers group).tag := by
    intro group
    simp only [PoolState.beginRotate]
    split <;> rfl
  have fresh : Brought (pool.hashes ++ [universeHash])
      ⟨pool.hashes.length, universeHash⟩ := by
    simp [Brought]
  constructor
  · intro group isQueued
    rw [writersOf group isQueued]
    have isSound := sound.writers group isQueued
    have last := isSound.last
    apply isSound.enqueue
    · simp [queueEntries]
    · simp [lastRotation]
    · refine ⟨?_, trivial⟩
      show _ ≤ pool.hashes.length
      omega
    · rintro tag ⟨⟩
      exact fresh
  · rintro rotation ⟨⟩
    refine ⟨fresh, ?_⟩
    intro group isQueued answered
    exact absurd isQueued answered
  · intro tag isReturned
    rcases sound.returned tag isReturned with ⟨known, reached⟩
    refine ⟨known.append _, ?_⟩
    intro group isQueued
    rw [tags]
    exact reached group isQueued

theorem PoolSound.beginStop
    (sound : PoolSound limits pool) : PoolSound limits pool.beginStop := by
  have tags : ∀ group,
      (pool.beginStop.writers group).tag = (pool.writers group).tag := by
    intro group
    simp only [PoolState.beginStop]
    split <;> rfl
  constructor
  · intro group isQueued
    have isSound := sound.writers group isQueued
    simp only [PoolState.beginStop]
    split
    next =>
      rw [← List.append_nil pool.hashes]
      apply isSound.enqueue [] .stop
      · simp [queueEntries]
      · rw [List.append_nil]
        exact isSound.last
      · trivial
      · rintro tag ⟨⟩
    next => exact isSound
  · intro rotation current
    rcases sound.rotation rotation current with ⟨known, reached⟩
    refine ⟨known, ?_⟩
    intro group isQueued answered
    rw [tags]
    exact reached group isQueued answered
  · intro tag isReturned
    rcases sound.returned tag isReturned with ⟨known, reached⟩
    refine ⟨known, ?_⟩
    intro group isQueued
    rw [tags]
    exact reached group isQueued

/-- A `rotate` which is over, whether it has returned or not. -/
theorem PoolSound.dropRotation
    (sound : PoolSound limits pool) (cancelled : List Nat)
    (more : List UniverseTag)
    (returns : ∀ tag ∈ more, Brought pool.hashes tag ∧
      ∀ group ∈ queuedGroups,
        tag.rotation ≤ (pool.writers group).tag.rotation) :
    PoolSound limits
      { pool with
        rotation := none
        cancelled := cancelled
        returned := more ++ pool.returned } where
  writers := sound.writers
  rotation := by
    rintro rotation ⟨⟩
  returned := by
    intro tag member
    rcases List.mem_append.mp member with new | old
    · exact returns tag new
    · exact sound.returned tag old

theorem mem_refs_sealDay
    (index : DayIndex FinishedChunk) (utcDate date : Nat)
    (chunk : FinishedChunk) (member : chunk ∈ index.refs date) :
    chunk ∈ (index.sealDay utcDate).refs date := by
  rw [DayIndex.refs_sealDay]
  exact member

theorem PoolSound.step
    {label : PoolLabel} (sound : PoolSound limits pool)
    (stepped : poolStep limits maxBytes pool label = some after) :
    PoolSound limits after := by
  cases label with
  | put event =>
      simp only [poolStep] at stepped
      split at stepped
      next => cases stepped
      next =>
        split at stepped
        next =>
          cases stepped
          exact sound
        next =>
          cases stepped
          exact sound.accept event
  | rotate universeHash =>
      simp only [poolStep, Option.ite_none_right_eq_some] at stepped
      rcases stepped with ⟨_, ⟨⟩⟩
      exact sound.beginRotate universeHash
  | cancelRotate =>
      rcases Option.map_eq_some_iff.mp stepped with ⟨rotation, _, rfl⟩
      exact sound.dropRotation _ [] (by rintro tag ⟨⟩)
  | returnRotate =>
      simp only [poolStep] at stepped
      split at stepped
      next tag current =>
        cases stepped
        rcases sound.rotation _ current with ⟨known, reached⟩
        apply sound.dropRotation pool.cancelled [tag]
        intro other member
        rw [List.mem_singleton.mp member]
        exact ⟨known, fun group isQueued =>
          reached group isQueued List.not_mem_nil⟩
      next => cases stepped
  | stop =>
      cases stepped
      exact sound.beginStop
  | timeout group tooOld =>
      simp only [poolStep, Option.ite_none_right_eq_some] at stepped
      rcases stepped with ⟨⟨isQueued, isStage⟩, stepped⟩
      split at stepped
      next =>
        cases stepped
        exact sound.turn
          (worked_timeout (sound.writers group isQueued) isStage)
      next =>
        cases stepped
        exact sound
  | work group tooOld =>
      simp only [poolStep, Option.ite_none_right_eq_some] at stepped
      rcases stepped with ⟨isQueued, stepped⟩
      exact sound.turn
        (worked_workStep (sound.writers group isQueued) stepped)
  | sealDay utcDate =>
      cases stepped
      exact {
        writers := fun group isQueued =>
          (sound.writers group isQueued).mono
            (mem_refs_sealDay pool.index utcDate)
        rotation := sound.rotation
        returned := sound.returned }

end Pool

/-! ## The result -/

/-- The accepted events of a group, place by place. -/
structure Partitioned (limits : ChunkLimits) (group : WriterGroup)
    (writer : Writer) : Prop where
  accepted : writer.accepted.map Prod.snd =
    writer.finished.flatMap FinishedChunk.rows ++
      (writer.openRows ++ writer.waitingRows)
  exactly : ∀ chunk ∈ writer.finished,
    ChunkExact limits chunk ∧ chunk.writerGroup = group

/--
What was accepted before a `rotate` is recorded under earlier universe hashes;
what was accepted after it is written under its hash or later ones.
-/
structure Separated (pool : PoolState) (writer : Writer)
    (tag : UniverseTag) : Prop where
  brought : Brought pool.hashes tag
  before :
    (writer.accepted.filter fun entry => entry.1 < tag.rotation).map
        Prod.snd =
      (writer.finished.filter fun chunk =>
        chunk.tag.rotation < tag.rotation).flatMap FinishedChunk.rows
  recorded : ∀ chunk ∈ writer.finished, chunk.tag.rotation < tag.rotation →
    chunk ∈ pool.index.refs chunk.utcDate
  after :
    (writer.accepted.filter fun entry => tag.rotation ≤ entry.1).map
        Prod.snd =
      (writer.finished.filter fun chunk =>
        tag.rotation ≤ chunk.tag.rotation).flatMap FinishedChunk.rows ++
          (writer.openRows ++ writer.waitingRows)
  finished : ∀ chunk ∈ writer.finished, Brought pool.hashes chunk.tag
  opened : ∀ session ∈ writer.session,
    tag.rotation ≤ session.tag.rotation ∧ Brought pool.hashes session.tag

section Places

variable {limits : ChunkLimits} {group : WriterGroup} {hashes : List String}
  {index : DayIndex FinishedChunk} {writer : Writer}

theorem WriterSound.partitioned
    (sound : WriterSound limits group hashes index writer) :
    Partitioned limits group writer where
  accepted := by
    rw [sound.accepted, ← map_snd_laterEntries, ← map_snd_flatMap_tagged,
      ← List.map_append]
    rfl
  exactly chunk member :=
    ⟨(sound.finished chunk member).1, (sound.finished chunk member).2.1⟩

theorem WriterSound.separated
    {pool : PoolState} {tag : UniverseTag}
    (sound : WriterSound limits group pool.hashes pool.index writer)
    (known : Brought pool.hashes tag)
    (reached : tag.rotation ≤ writer.tag.rotation) :
    Separated pool writer tag where
  brought := known
  before := by
    have none_ : writer.laterEntries.filter
        (fun entry => decide (entry.1 < tag.rotation)) = [] := by
      rw [List.filter_eq_nil_iff]
      intro entry member
      have later := reached.trans (sound.le_of_mem_laterEntries member)
      simpa using later
    rw [sound.accepted]
    show ((_ ++ writer.laterEntries).filter _).map _ = _
    rw [List.filter_append, none_, List.append_nil,
      filter_flatMap_tagged (fun number => number < tag.rotation),
      map_snd_flatMap_tagged]
  recorded chunk member earlier := by
    rcases sound.recorded chunk member with isKnown | ⟨sameTag, _⟩
    · exact isKnown
    · rw [sameTag] at earlier
      exact absurd reached (not_le.mpr earlier)
  after := by
    have all : writer.laterEntries.filter
        (fun entry => decide (tag.rotation ≤ entry.1)) =
          writer.laterEntries := by
      rw [List.filter_eq_self]
      intro entry member
      have later := reached.trans (sound.le_of_mem_laterEntries member)
      simpa using later
    rw [sound.accepted]
    show ((_ ++ writer.laterEntries).filter _).map _ = _
    rw [List.filter_append, all,
      filter_flatMap_tagged (fun number => tag.rotation ≤ number),
      List.map_append, map_snd_flatMap_tagged, map_snd_laterEntries]
  finished chunk member := (sound.finished chunk member).2.2
  opened session isOpen := by
    rcases sound.session session isOpen with ⟨_, sameTag⟩
    rw [sameTag]
    exact ⟨reached, sound.known⟩

end Places

theorem poolSound_started (limits : ChunkLimits) (universeHash : String) :
    PoolSound limits (.started universeHash) where
  writers group _ := {
    accepted := rfl
    last := rfl
    forward := le_refl _
    rising := trivial
    session := by
      rintro session ⟨⟩
    fits := trivial
    finished := by
      rintro chunk ⟨⟩
    known := rfl
    resumed := by
      rintro tag ⟨⟩
    queued := by
      rintro tag ⟨⟩
    recorded := by
      rintro chunk ⟨⟩ }
  rotation := by
    rintro rotation ⟨⟩
  returned := by
    rintro tag ⟨⟩

/--
At every moment of every run, the accepted events of each group are parted
among its finished chunks, its open chunk, the event in the writer's hand and
its queue, in order, and every `rotate` which has returned is a barrier.
-/
theorem writers_partition_accepted
    (limits : ChunkLimits) (maxBytes : Nat) (universeHash : String)
    {labels : List PoolLabel} {final : PoolState}
    (reached : runFrom (poolStep limits maxBytes) (.started universeHash)
      labels = some final) :
    ∀ group ∈ queuedGroups,
      Partitioned limits group (final.writers group) ∧
        ∀ tag ∈ final.returned,
          Separated final (final.writers group) tag := by
  have sound : PoolSound limits final :=
    invariant_of_run (fun _ _ _ before _ stepped => before.step stepped)
      (poolSound_started limits universeHash)
      (stepsMeet_true _ _) reached
  intro group isQueued
  have isSound := sound.writers group isQueued
  refine ⟨isSound.partitioned, ?_⟩
  intro tag isReturned
  rcases sound.returned tag isReturned with ⟨known, passed⟩
  exact isSound.separated known (passed group isQueued)

/-! ## A run -/

def smallLimits : ChunkLimits where
  maxBytes := 1000
  maxEvents := 2
  batchEvents := 2
  batchBytes := 1000

def depthEvent (receivedNs : Nat) : RawEvent where
  streamType := .depth
  appReceiveRealtimeNs := receivedNs
  payloadSize := 10

/-- Two events before a `rotate`, one after it. -/
def rotatedRun : List PoolLabel :=
  [.put (depthEvent 5), .put (depthEvent 7), .rotate "second"] ++
    List.replicate 9 (.work .depth false) ++
    [.work .tradesMarket false, .work .metadata false, .returnRotate,
      .put (depthEvent 9), .work .depth false, .work .depth false]

theorem rotatedRun_runs :
    (runFrom (poolStep smallLimits 10000) (.started "first")
      rotatedRun).isSome := by
  decide +kernel

/-- Where the run leads. -/
def rotatedFinal : PoolState :=
  (runFrom (poolStep smallLimits 10000) (.started "first") rotatedRun).get
    rotatedRun_runs

theorem writers_partition_accepted_rotated :
    (rotatedFinal.writers .depth).accepted =
      [(0, depthEvent 5), (0, depthEvent 7), (1, depthEvent 9)] ∧
      Partitioned smallLimits .depth (rotatedFinal.writers .depth) ∧
        Separated rotatedFinal (rotatedFinal.writers .depth) ⟨1, "second"⟩ := by
  have accepted : (rotatedFinal.writers .depth).accepted =
      [(0, depthEvent 5), (0, depthEvent 7), (1, depthEvent 9)] := by
    decide +kernel
  have returned : ⟨1, "second"⟩ ∈ rotatedFinal.returned := by
    decide +kernel
  have isQueued : WriterGroup.depth ∈ queuedGroups := by
    decide
  rcases writers_partition_accepted smallLimits 10000 "first"
      (Option.some_get rotatedRun_runs).symm .depth isQueued with
    ⟨parted, barrier⟩
  exact ⟨accepted, parted, barrier _ returned⟩

end ShadowDataPlane.Edge
