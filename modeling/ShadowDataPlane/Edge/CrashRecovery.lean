import ShadowDataPlane.Edge.WriterPartition

/-!
# The lease and what a crash loses

While the collector runs, its lease names an instant from which the next boot
opens a gap if the collector does not stop cleanly.  The instant is the latest
receive time in the finished chunks of the depth writer or of the trades
writer, whichever is earlier, but never before the last sealed day.

The maximum over finished chunks stands for everything accepted before it only
if events are accepted in the order of their receive times.  A snapshot whose
receive time was taken before that of other events, but which is accepted
after them, may be lost from before the gap (`lost_before_recovery`).  In runs
which accept in order, and seal a day only when its events are on disk, the
gap covers all that is lost (`recovery_covers_lost`).
-/

namespace ShadowDataPlane.Edge

open ShadowDataPlane.Foundation
open ShadowDataPlane.Contracts

/-! ## The lease -/

/-- What the lease says about the end of the process. -/
inductive LeaseMode where
  | running
  | clean
deriving DecidableEq, Repr

/-- The lease file. -/
structure LeaseFile where
  mode : LeaseMode
  affectedFromRealtimeNs : Nat
deriving DecidableEq, Repr

/-- `_latest_sealed_boundary_ns`. -/
def latestSealedBoundaryNs (index : DayIndex FinishedChunk) : Nat :=
  match (index.sealedDays.entries.map Prod.fst).max? with
  | none => 0
  | some utcDate => midnightNs (utcDate + 1)

/-- `recovery_start_ns` of a boot which finds these files. -/
def recoveryStartNs (lease : Option LeaseFile)
    (index : DayIndex FinishedChunk) : Option Nat :=
  match lease with
  | none => none
  | some ⟨.clean, _⟩ => none
  | some ⟨.running, affectedFromNs⟩ =>
      some (max affectedFromNs (latestSealedBoundaryNs index))

/-- `durable_through_ns` of the metrics. -/
def durableThroughNs (pool : PoolState) : Option Nat :=
  match (pool.writers .depth).durableThroughNs,
    (pool.writers .tradesMarket).durableThroughNs with
  | some depth, some tradesMarket => some (min depth tradesMarket)
  | _, _ => none

/--
A running collector.  A heartbeat takes the watermark first; its thread writes
the file later, and two such threads may be under way.
-/
structure CollectorState where
  pool : PoolState
  serviceStartedNs : Nat
  lease : Option LeaseFile
  sealedFloorNs : Nat
  writes : List Nat := []

/-- `_lease_watermark_ns`; a watermark of zero counts as none. -/
def leaseWatermarkNs (state : CollectorState) : Nat :=
  match durableThroughNs state.pool with
  | none => state.serviceStartedNs
  | some watermark =>
      if watermark = 0 then state.serviceStartedNs else watermark

/-- The collector once `run` has written its lease and started the writers. -/
def CollectorState.booted (universeHash : String)
    (index : DayIndex FinishedChunk) (startedNs : Nat) : CollectorState where
  pool := { PoolState.started universeHash with index := index }
  serviceStartedNs := startedNs
  lease := some ⟨.running, max startedNs (latestSealedBoundaryNs index)⟩
  sealedFloorNs := latestSealedBoundaryNs index

/-- The steps of the pool, of the lease and of the process. -/
inductive CollectorLabel where
  | pool (label : PoolLabel)
  | heartbeat
  | writeRunning (position : Nat)
  | recordSealed (utcDate : Nat)
deriving DecidableEq, Repr

def collectorStep (limits : ChunkLimits) (maxBytes : Nat)
    (state : CollectorState) : CollectorLabel → Option CollectorState
  | .pool label =>
      (poolStep limits maxBytes state.pool label).map fun pool =>
        { state with pool := pool }
  | .heartbeat =>
      some { state with writes := state.writes ++ [leaseWatermarkNs state] }
  | .writeRunning position =>
      state.writes[position]?.map fun affectedFromNs =>
        { state with
          lease := some
            ⟨.running, max affectedFromNs state.sealedFloorNs⟩
          writes := state.writes.eraseIdx position }
  | .recordSealed utcDate =>
      if state.pool.index.DayIsSealed utcDate then
        some
          { state with
            sealedFloorNs :=
              max state.sealedFloorNs (midnightNs (utcDate + 1)) }
      else none

/-! ## The condition -/

/-- The groups whose events the watermark is about. -/
def criticalGroups : List WriterGroup :=
  [.depth, .tradesMarket]

theorem queued_of_critical
    {group : WriterGroup} (critical : group ∈ criticalGroups) :
    group ∈ queuedGroups := by
  simp only [criticalGroups, List.mem_cons, List.not_mem_nil,
    or_false] at critical
  rcases critical with rfl | rfl <;> decide

/-- The events which are in no finished chunk. -/
def Writer.unfinished (writer : Writer) : List RawEvent :=
  writer.openRows ++ writer.waitingRows

/--
An event of a critical group is not older than those accepted before it, nor
than the service, nor does it belong to a sealed day; and a day is sealed only
when no critical event up to its end is unfinished.
-/
def InOrder (state : CollectorState) : CollectorLabel → Prop
  | .pool (.put event) =>
      event.writerGroup ∈ criticalGroups →
        (∀ earlier ∈ (state.pool.writers event.writerGroup).accepted,
          earlier.2.appReceiveRealtimeNs ≤ event.appReceiveRealtimeNs) ∧
        state.serviceStartedNs ≤ event.appReceiveRealtimeNs ∧
        latestSealedBoundaryNs state.pool.index ≤ event.appReceiveRealtimeNs
  | .pool (.sealDay utcDate) =>
      ∀ group ∈ criticalGroups,
        ∀ event ∈ (state.pool.writers group).unfinished,
          midnightNs (utcDate + 1) ≤ event.appReceiveRealtimeNs
  | _ => True

instance (state : CollectorState) :
    (label : CollectorLabel) → Decidable (InOrder state label)
  | .pool (.put _) => inferInstanceAs (Decidable (_ → _ ∧ _ ∧ _))
  | .pool (.sealDay _) => inferInstanceAs (Decidable (∀ group ∈ _, _))
  | .pool (.rotate _) | .pool .cancelRotate | .pool .returnRotate
  | .pool .stop | .pool (.timeout _ _) | .pool (.work _ _) | .heartbeat
  | .writeRunning _ | .recordSealed _ => inferInstanceAs (Decidable True)

/-! ## The sealed floor -/

theorem latestSealedBoundaryNs_le_iff
    (index : DayIndex FinishedChunk) (ns : Nat) :
    latestSealedBoundaryNs index ≤ ns ↔
      ∀ utcDate, index.DayIsSealed utcDate → midnightNs (utcDate + 1) ≤ ns := by
  have isSealed : ∀ utcDate, index.DayIsSealed utcDate ↔
      utcDate ∈ index.sealedDays.entries.map Prod.fst := by
    intro utcDate
    rw [DayIndex.DayIsSealed, Option.isSome_iff_exists, List.mem_map]
    constructor
    · rintro ⟨inventory, found⟩
      exact ⟨(utcDate, inventory), (Dict.mem_entries_iff _).mpr found, rfl⟩
    · rintro ⟨⟨_, inventory⟩, member, rfl⟩
      exact ⟨inventory, (Dict.mem_entries_iff _).mp member⟩
  simp only [isSealed]
  unfold latestSealedBoundaryNs
  split
  next none_ =>
    rw [List.max?_eq_none_iff.mp none_]
    simp
  next latest isLatest =>
    rcases List.max?_eq_some_iff.mp isLatest with ⟨member, above⟩
    constructor
    · intro bound utcDate isDate
      apply (midnightNs_le_midnightNs_iff.mpr _).trans bound
      exact Nat.succ_le_succ (above utcDate isDate)
    · exact fun bound => bound latest member

theorem latestSealedBoundaryNs_sealDay
    (index : DayIndex FinishedChunk) (utcDate ns : Nat) :
    latestSealedBoundaryNs (index.sealDay utcDate) ≤ ns ↔
      midnightNs (utcDate + 1) ≤ ns ∧ latestSealedBoundaryNs index ≤ ns := by
  simp only [latestSealedBoundaryNs_le_iff, DayIndex.dayIsSealed_sealDay,
    or_imp, forall_and, forall_eq]

theorem latestSealedBoundaryNs_congr
    {before after : DayIndex FinishedChunk}
    (same : after.sealedDays = before.sealedDays) :
    latestSealedBoundaryNs after = latestSealedBoundaryNs before := by
  rw [latestSealedBoundaryNs, latestSealedBoundaryNs, same]

/-! ## What is lost -/

section Losses

variable {limits : ChunkLimits} {group : WriterGroup} {hashes later : List String}
  {index grown : DayIndex FinishedChunk} {before after writer : Writer}

theorem WriterSound.accepted_eq
    (sound : WriterSound limits group hashes index writer) :
    writer.accepted.map Prod.snd =
      writer.finished.flatMap FinishedChunk.rows ++ writer.unfinished :=
  sound.partitioned.accepted

/-- A turn of its writer takes events from the unfinished ones only. -/
theorem unfinished_of_grows
    (sound : WriterSound limits group hashes index before)
    (soundAfter : WriterSound limits group later grown after)
    (grows : WriterGrows before after) :
    after.unfinished ⊆ before.unfinished := by
  rcases grows.finished with ⟨more, isMore⟩
  have parted := soundAfter.accepted_eq
  rw [grows.accepted, sound.accepted_eq, ← isMore, List.flatMap_append,
    List.append_assoc, List.append_cancel_left_eq] at parted
  rw [parted]
  exact List.subset_append_right _ _

/-- An event which is accepted is unfinished. -/
theorem unfinished_of_accept
    {entry : Nat × RawEvent}
    (sound : WriterSound limits group hashes index before)
    (soundAfter : WriterSound limits group later grown after)
    (accepted : after.accepted = before.accepted ++ [entry])
    (finished : after.finished = before.finished) :
    after.unfinished = before.unfinished ++ [entry.2] := by
  have parted := soundAfter.accepted_eq
  rw [accepted, finished, List.map_append, sound.accepted_eq,
    List.append_assoc, List.append_cancel_left_eq] at parted
  exact parted.symm

theorem WriterSound.unfinished_mem
    (sound : WriterSound limits group hashes index writer)
    {event : RawEvent} (member : event ∈ writer.unfinished) :
    ∃ entry ∈ writer.accepted, entry.2 = event := by
  have accepted : event ∈ writer.accepted.map Prod.snd := by
    rw [sound.accepted_eq]
    exact List.mem_append_right _ member
  exact List.mem_map.mp accepted

/-- The events have been accepted in the order of their receive times. -/
def Writer.Ordered (writer : Writer) : Prop :=
  writer.accepted.Pairwise fun earlier later =>
    earlier.2.appReceiveRealtimeNs ≤ later.2.appReceiveRealtimeNs

/-- The latest event of a chunk stands before everything unfinished. -/
theorem WriterSound.chunk_before_unfinished
    (sound : WriterSound limits group hashes index writer)
    (ordered : writer.Ordered) {chunk : FinishedChunk}
    (member : chunk ∈ writer.finished) :
    (∃ entry ∈ writer.accepted,
      entry.2.appReceiveRealtimeNs = chunk.maxAppReceiveRealtimeNs) ∧
      ∀ event ∈ writer.unfinished,
        chunk.maxAppReceiveRealtimeNs ≤ event.appReceiveRealtimeNs := by
  have latest := List.max?_mem (sound.finished chunk member).1.latest
  rcases List.mem_map.mp latest with ⟨row, isRow, isLatest⟩
  have finished : row ∈ writer.finished.flatMap FinishedChunk.rows :=
    List.mem_flatMap.mpr ⟨chunk, member, isRow⟩
  have orderedRows : (writer.accepted.map Prod.snd).Pairwise fun left right =>
      left.appReceiveRealtimeNs ≤ right.appReceiveRealtimeNs :=
    List.pairwise_map.mpr ordered
  rw [sound.accepted_eq] at orderedRows
  constructor
  · have accepted : row ∈ writer.accepted.map Prod.snd := by
      rw [sound.accepted_eq]
      exact List.mem_append_left _ finished
    rcases List.mem_map.mp accepted with ⟨entry, isEntry, rfl⟩
    exact ⟨entry, isEntry, isLatest⟩
  · intro event isUnfinished
    rw [← isLatest]
    exact (List.pairwise_append.mp orderedRows).2.2 row finished event
      isUnfinished

end Losses

/-! ## The steps of the pool -/

section PoolSteps

variable {limits : ChunkLimits} {maxBytes : Nat} {before after : PoolState}

/-- Only `put` and a seal do more than let the writers grow. -/
def Quiet : PoolLabel → Prop
  | .put _ | .sealDay _ => False
  | _ => True

theorem poolStep_grows
    {label : PoolLabel} (sound : PoolSound limits before)
    (quiet : Quiet label)
    (stepped : poolStep limits maxBytes before label = some after) :
    (∀ group ∈ queuedGroups,
      WriterGrows (before.writers group) (after.writers group)) ∧
      after.index.sealedDays = before.index.sealedDays := by
  have ofTurn : ∀ group, Turn group before after →
      (∀ other ∈ queuedGroups,
        WriterGrows (before.writers other) (after.writers other)) ∧
          after.index.sealedDays = before.index.sealedDays := by
    intro group turn
    refine ⟨?_, turn.sealedDays⟩
    intro other _
    by_cases here : other = group
    · rw [here]
      exact turn.grows
    · rw [turn.others other here]
      exact writerGrows_of_same (le_refl _) rfl rfl rfl
  cases label with
  | put event => exact quiet.elim
  | sealDay utcDate => exact quiet.elim
  | rotate universeHash =>
      simp only [poolStep, Option.ite_none_right_eq_some] at stepped
      rcases stepped with ⟨_, ⟨⟩⟩
      refine ⟨?_, rfl⟩
      intro group isQueued
      simp only [PoolState.beginRotate, if_pos isQueued]
      exact writerGrows_of_same (le_refl _) rfl rfl rfl
  | cancelRotate =>
      rcases Option.map_eq_some_iff.mp stepped with ⟨rotation, _, rfl⟩
      refine ⟨?_, rfl⟩
      exact fun _ _ => writerGrows_of_same (le_refl _) rfl rfl rfl
  | returnRotate =>
      simp only [poolStep] at stepped
      split at stepped
      next =>
        cases stepped
        refine ⟨?_, rfl⟩
        exact fun _ _ => writerGrows_of_same (le_refl _) rfl rfl rfl
      next => cases stepped
  | stop =>
      cases stepped
      refine ⟨?_, rfl⟩
      intro group _
      simp only [PoolState.beginStop]
      split
      next => exact writerGrows_of_same (le_refl _) rfl rfl rfl
      next => exact writerGrows_of_same (le_refl _) rfl rfl rfl
  | timeout group tooOld =>
      simp only [poolStep, Option.ite_none_right_eq_some] at stepped
      rcases stepped with ⟨⟨isQueued, isStage⟩, stepped⟩
      split at stepped
      next =>
        cases stepped
        have worked := worked_timeout (sound.writers group isQueued) isStage
        exact ofTurn group worked.toTurn
      next =>
        cases stepped
        refine ⟨?_, rfl⟩
        exact fun _ _ => writerGrows_of_same (le_refl _) rfl rfl rfl
  | work group tooOld =>
      simp only [poolStep, Option.ite_none_right_eq_some] at stepped
      rcases stepped with ⟨isQueued, stepped⟩
      have worked := worked_workStep (sound.writers group isQueued) stepped
      exact ofTurn group worked.toTurn

end PoolSteps

/-! ## The invariant -/

/-- A gap from this instant covers what is unfinished, now and later on. -/
def Covers (state : CollectorState) (ns : Nat) : Prop :=
  ∀ group ∈ criticalGroups,
    (∀ event ∈ (state.pool.writers group).unfinished,
      ns ≤ event.appReceiveRealtimeNs) ∧
      (ns ≤ state.serviceStartedNs ∨
        ns ≤ latestSealedBoundaryNs state.pool.index ∨
          ∃ entry ∈ (state.pool.writers group).accepted,
            ns ≤ entry.2.appReceiveRealtimeNs)

/-- What holds of one critical group. -/
structure GroupCovered (state : CollectorState) (writer : Writer) :
    Prop where
  ordered : writer.Ordered
  started : ∀ entry ∈ writer.accepted,
    state.serviceStartedNs ≤ entry.2.appReceiveRealtimeNs
  durable : ∀ durableNs ∈ writer.durableThroughNs,
    ∃ chunk ∈ writer.finished, chunk.maxAppReceiveRealtimeNs = durableNs
  unsealed : ∀ event ∈ writer.unfinished,
    latestSealedBoundaryNs state.pool.index ≤ event.appReceiveRealtimeNs

/-- What holds of the collector between any two steps. -/
structure CollectorSound (limits : ChunkLimits) (state : CollectorState) :
    Prop where
  pool : PoolSound limits state.pool
  groups : ∀ group ∈ criticalGroups,
    GroupCovered state (state.pool.writers group)
  lease : ∃ affectedFromNs,
    state.lease = some ⟨.running, affectedFromNs⟩ ∧
      Covers state affectedFromNs
  writes : ∀ ns ∈ state.writes, Covers state ns
  floor : state.sealedFloorNs ≤ latestSealedBoundaryNs state.pool.index

/-- What a step of the pool means to the instants which cover. -/
structure Progress (before after : CollectorState) : Prop where
  started : after.serviceStartedNs = before.serviceStartedNs
  boundary : latestSealedBoundaryNs before.pool.index ≤
    latestSealedBoundaryNs after.pool.index
  accepted : ∀ group ∈ criticalGroups,
    (before.pool.writers group).accepted ⊆
      (after.pool.writers group).accepted
  unfinished : ∀ group ∈ criticalGroups,
    ∀ event ∈ (after.pool.writers group).unfinished,
      event ∈ (before.pool.writers group).unfinished ∨
        before.serviceStartedNs ≤ event.appReceiveRealtimeNs ∧
        latestSealedBoundaryNs before.pool.index ≤
            event.appReceiveRealtimeNs ∧
          ∀ entry ∈ (before.pool.writers group).accepted,
            entry.2.appReceiveRealtimeNs ≤ event.appReceiveRealtimeNs

section Invariant

variable {limits : ChunkLimits} {maxBytes : Nat}
  {before after state : CollectorState} {ns : Nat}

theorem Covers.progress
    (covers : Covers before ns) (progress : Progress before after) :
    Covers after ns := by
  intro group critical
  rcases covers group critical with ⟨unfinished, reason⟩
  constructor
  · intro event member
    rcases progress.unfinished group critical event member with
      old | ⟨started, boundary, accepted⟩
    · exact unfinished event old
    · rcases reason with early | isSealed | ⟨entry, isEntry, bound⟩
      · exact early.trans started
      · exact isSealed.trans boundary
      · exact bound.trans (accepted entry isEntry)
  · rcases reason with early | isSealed | ⟨entry, isEntry, bound⟩
    · left
      rw [progress.started]
      exact early
    · exact Or.inr (Or.inl (isSealed.trans progress.boundary))
    · exact Or.inr (Or.inr
        ⟨entry, progress.accepted group critical isEntry, bound⟩)

theorem Covers.max
    {other : Nat} (left : Covers state ns) (right : Covers state other) :
    Covers state (max ns other) := by
  rcases max_choice ns other with isLeft | isRight
  · rw [isLeft]
    exact left
  · rw [isRight]
    exact right

theorem CollectorSound.progress
    (sound : CollectorSound limits before) (progress : Progress before after)
    (pool : PoolSound limits after.pool)
    (groups : ∀ group ∈ criticalGroups,
      GroupCovered after (after.pool.writers group))
    (lease : after.lease = before.lease)
    (writes : after.writes = before.writes)
    (floor : after.sealedFloorNs = before.sealedFloorNs) :
    CollectorSound limits after where
  pool := pool
  groups := groups
  lease := by
    rcases sound.lease with ⟨affectedFromNs, isLease, covers⟩
    exact ⟨affectedFromNs, lease.trans isLease, covers.progress progress⟩
  writes := by
    rw [writes]
    exact fun ns member => (sound.writes ns member).progress progress
  floor := by
    rw [floor]
    exact sound.floor.trans progress.boundary

/-- The watermark of the metrics, and its stand-in, cover. -/
theorem CollectorSound.covers_started
    (sound : CollectorSound limits state) :
    Covers state state.serviceStartedNs := by
  intro group critical
  have isSound := sound.pool.writers group (queued_of_critical critical)
  refine ⟨?_, Or.inl (le_refl _)⟩
  intro event member
  rcases isSound.unfinished_mem member with ⟨entry, isEntry, rfl⟩
  exact (sound.groups group critical).started entry isEntry

theorem CollectorSound.covers_floor
    (sound : CollectorSound limits state) :
    Covers state state.sealedFloorNs := by
  intro group critical
  refine ⟨?_, Or.inr (Or.inl sound.floor)⟩
  intro event member
  exact sound.floor.trans ((sound.groups group critical).unsealed event member)

/-- What is below the maximum of every critical group covers. -/
theorem CollectorSound.covers_durable
    (sound : CollectorSound limits state)
    (below : ∀ group ∈ criticalGroups,
      ∃ durableNs ∈ (state.pool.writers group).durableThroughNs,
        ns ≤ durableNs) : Covers state ns := by
  intro group critical
  have isSound := sound.pool.writers group (queued_of_critical critical)
  have covered := sound.groups group critical
  rcases below group critical with ⟨durableNs, isDurable, bound⟩
  rcases covered.durable durableNs isDurable with ⟨chunk, member, rfl⟩
  rcases isSound.chunk_before_unfinished covered.ordered member with
    ⟨⟨entry, isEntry, isLatest⟩, unfinished⟩
  constructor
  · exact fun event isEvent => bound.trans (unfinished event isEvent)
  · exact Or.inr (Or.inr ⟨entry, isEntry, bound.trans isLatest.ge⟩)

theorem CollectorSound.covers_watermark
    (sound : CollectorSound limits state) :
    Covers state (leaseWatermarkNs state) := by
  unfold leaseWatermarkNs
  split
  next => exact sound.covers_started
  next watermark isWatermark =>
    split
    next => exact sound.covers_started
    next =>
      apply sound.covers_durable
      unfold durableThroughNs at isWatermark
      split at isWatermark
      next depth tradesMarket isDepth isTrades =>
        cases isWatermark
        intro group critical
        simp only [criticalGroups, List.mem_cons, List.not_mem_nil,
          or_false] at critical
        rcases critical with rfl | rfl
        · exact ⟨depth, isDepth, min_le_left _ _⟩
        · exact ⟨tradesMarket, isTrades, min_le_right _ _⟩
      next => cases isWatermark

theorem CollectorSound.quiet
    {label : PoolLabel} {pool : PoolState}
    (sound : CollectorSound limits state)
    (stepped : poolStep limits maxBytes state.pool label = some pool)
    (quiet : Quiet label) :
    CollectorSound limits { state with pool := pool } := by
  have poolAfter := sound.pool.step stepped
  rcases poolStep_grows sound.pool quiet stepped with ⟨grows, sealedDays⟩
  have boundary := latestSealedBoundaryNs_congr sealedDays
  have unfinished : ∀ group ∈ criticalGroups,
      (pool.writers group).unfinished ⊆
        (state.pool.writers group).unfinished := by
    intro group critical
    have isQueued := queued_of_critical critical
    exact unfinished_of_grows (sound.pool.writers group isQueued)
      (poolAfter.writers group isQueued) (grows group isQueued)
  have progress : Progress state { state with pool := pool } := {
    started := rfl
    boundary := boundary.ge
    accepted := by
      intro group critical
      show _ ⊆ (pool.writers group).accepted
      rw [(grows group (queued_of_critical critical)).accepted]
      exact List.Subset.refl _
    unfinished := fun group critical event member =>
      Or.inl (unfinished group critical member) }
  refine sound.progress progress poolAfter ?_ rfl rfl rfl
  intro group critical
  have covered := sound.groups group critical
  have grown := grows group (queued_of_critical critical)
  exact {
    ordered := by
      rw [Writer.Ordered, grown.accepted]
      exact covered.ordered
    started := by
      rw [grown.accepted]
      exact covered.started
    durable := by
      intro durableNs isDurable
      rcases grown.durable durableNs isDurable with old | new
      · rcases covered.durable durableNs old with ⟨chunk, member, isMax⟩
        exact ⟨chunk, grown.finished.subset member, isMax⟩
      · exact new
    unsealed := by
      intro event member
      rw [boundary]
      exact covered.unsealed event (unfinished group critical member) }

theorem CollectorSound.accept
    {event : RawEvent} (sound : CollectorSound limits state)
    (inOrder : InOrder state (.pool (.put event))) :
    CollectorSound limits
      { state with pool := state.pool.accept event } := by
  have poolAfter := sound.pool.accept event
  have writerOf : ∀ group, group ≠ event.writerGroup →
      (state.pool.accept event).writers group = state.pool.writers group :=
    fun group different => setWriter_other _ _ different
  have accepted : ((state.pool.accept event).writers
      event.writerGroup).accepted =
        (state.pool.writers event.writerGroup).accepted ++
          [(state.pool.rotations, event)] := by
    rw [PoolState.accept, setWriter_self]
  have finished : ((state.pool.accept event).writers
      event.writerGroup).finished =
        (state.pool.writers event.writerGroup).finished := by
    rw [PoolState.accept, setWriter_self]
  have durable : ((state.pool.accept event).writers
      event.writerGroup).durableThroughNs =
        (state.pool.writers event.writerGroup).durableThroughNs := by
    rw [PoolState.accept, setWriter_self]
  have isQueued := writerGroup_mem_queuedGroups event
  have unfinished := unfinished_of_accept
    (sound.pool.writers event.writerGroup isQueued)
    (poolAfter.writers event.writerGroup isQueued) accepted finished
  have progress : Progress state
      { state with pool := state.pool.accept event } := {
    started := rfl
    boundary := le_refl _
    accepted := by
      intro group _
      by_cases here : group = event.writerGroup
      · subst here
        rw [accepted]
        exact List.subset_append_left _ _
      · show _ ⊆ ((state.pool.accept event).writers group).accepted
        rw [writerOf group here]
        exact List.Subset.refl _
    unfinished := by
      intro group critical other member
      by_cases here : group = event.writerGroup
      · subst here
        rcases inOrder critical with ⟨later, started, unsealed⟩
        rw [unfinished] at member
        rcases List.mem_append.mp member with old | new
        · exact Or.inl old
        · rw [List.mem_singleton.mp new]
          exact Or.inr ⟨started, unsealed, later⟩
      · left
        rw [← writerOf group here]
        exact member }
  refine sound.progress progress poolAfter ?_ rfl rfl rfl
  intro group critical
  have covered := sound.groups group critical
  by_cases here : group = event.writerGroup
  · subst here
    rcases inOrder critical with ⟨later, started, unsealed⟩
    exact {
      ordered := by
        rw [Writer.Ordered, accepted]
        apply List.pairwise_append.mpr
        refine ⟨covered.ordered, List.pairwise_singleton _ _, ?_⟩
        intro earlier isEarlier entry isEntry
        rw [List.mem_singleton.mp isEntry]
        exact later earlier isEarlier
      started := by
        intro entry isEntry
        rw [accepted] at isEntry
        rcases List.mem_append.mp isEntry with old | new
        · exact covered.started entry old
        · rw [List.mem_singleton.mp new]
          exact started
      durable := by
        rw [durable, finished]
        exact covered.durable
      unsealed := by
        intro other member
        rw [unfinished] at member
        rcases List.mem_append.mp member with old | new
        · exact covered.unsealed other old
        · rw [List.mem_singleton.mp new]
          exact unsealed }
  · show GroupCovered _ ((state.pool.accept event).writers group)
    rw [writerOf group here]
    exact { covered with }

theorem CollectorSound.sealDay
    {utcDate : Nat} (sound : CollectorSound limits state)
    (inOrder : InOrder state (.pool (.sealDay utcDate)))
    (poolAfter : PoolSound limits
      { state.pool with index := state.pool.index.sealDay utcDate }) :
    CollectorSound limits
      { state with
        pool :=
          { state.pool with index := state.pool.index.sealDay utcDate } } := by
  have progress : Progress state
      { state with
        pool :=
          { state.pool with
            index := state.pool.index.sealDay utcDate } } := {
    started := rfl
    boundary :=
      ((latestSealedBoundaryNs_sealDay _ utcDate _).mp (le_refl _)).2
    accepted := fun _ _ => List.Subset.refl _
    unfinished := fun _ _ _ member => Or.inl member }
  refine sound.progress progress poolAfter ?_ rfl rfl rfl
  intro group critical
  have covered := sound.groups group critical
  exact {
    ordered := covered.ordered
    started := covered.started
    durable := covered.durable
    unsealed := by
      intro event member
      apply (latestSealedBoundaryNs_sealDay _ _ _).mpr
      exact ⟨inOrder group critical event member,
        covered.unsealed event member⟩ }

theorem CollectorSound.step
    {label : CollectorLabel} (sound : CollectorSound limits before)
    (inOrder : InOrder before label)
    (stepped : collectorStep limits maxBytes before label = some after) :
    CollectorSound limits after := by
  cases label with
  | pool label =>
      rcases Option.map_eq_some_iff.mp stepped with ⟨pool, poolStepped, rfl⟩
      cases label with
      | put event =>
          simp only [poolStep] at poolStepped
          split at poolStepped
          next => cases poolStepped
          next =>
            split at poolStepped
            next =>
              cases poolStepped
              exact sound
            next =>
              cases poolStepped
              exact sound.accept inOrder
      | sealDay utcDate =>
          have poolAfter := sound.pool.step poolStepped
          cases poolStepped
          exact sound.sealDay inOrder poolAfter
      | rotate universeHash => exact sound.quiet poolStepped trivial
      | cancelRotate => exact sound.quiet poolStepped trivial
      | returnRotate => exact sound.quiet poolStepped trivial
      | stop => exact sound.quiet poolStepped trivial
      | timeout group tooOld => exact sound.quiet poolStepped trivial
      | work group tooOld => exact sound.quiet poolStepped trivial
  | heartbeat =>
      cases stepped
      exact {
        pool := sound.pool
        groups := fun group critical =>
          { sound.groups group critical with }
        lease := sound.lease
        writes := by
          intro ns member
          rcases List.mem_append.mp member with old | new
          · exact sound.writes ns old
          · rw [List.mem_singleton.mp new]
            exact sound.covers_watermark
        floor := sound.floor }
  | writeRunning position =>
      rcases Option.map_eq_some_iff.mp stepped with ⟨ns, isWrite, rfl⟩
      have covers := sound.writes ns (List.mem_of_getElem? isWrite)
      exact {
        pool := sound.pool
        groups := fun group critical =>
          { sound.groups group critical with }
        lease := ⟨_, rfl, covers.max sound.covers_floor⟩
        writes := fun other member =>
          sound.writes other (List.mem_of_mem_eraseIdx member)
        floor := sound.floor }
  | recordSealed utcDate =>
      simp only [collectorStep, Option.ite_none_right_eq_some] at stepped
      rcases stepped with ⟨isSealed, ⟨⟩⟩
      exact {
        pool := sound.pool
        groups := fun group critical =>
          { sound.groups group critical with }
        lease := sound.lease
        writes := sound.writes
        floor := max_le sound.floor
          ((latestSealedBoundaryNs_le_iff _ _).mp (le_refl _) utcDate
            isSealed) }

end Invariant

/-! ## The result -/

theorem collectorSound_booted
    (limits : ChunkLimits) (universeHash : String)
    (index : DayIndex FinishedChunk) (startedNs : Nat) :
    CollectorSound limits (.booted universeHash index startedNs) where
  pool := {
    writers := fun group isQueued =>
      ((poolSound_started limits universeHash).writers group isQueued).mono
        (by rintro date chunk ⟨⟩)
    rotation := by
      rintro rotation ⟨⟩
    returned := by
      rintro tag ⟨⟩ }
  groups group _ := {
    ordered := List.Pairwise.nil
    started := by
      rintro entry ⟨⟩
    durable := by
      rintro durableNs ⟨⟩
    unsealed := by
      rintro event ⟨⟩ }
  lease := by
    refine ⟨_, rfl, ?_⟩
    intro group _
    constructor
    · rintro event ⟨⟩
    · rcases max_choice startedNs (latestSealedBoundaryNs index) with
        isStarted | isBoundary
      · exact Or.inl isStarted.le
      · exact Or.inr (Or.inl isBoundary.le)
  writes := by
    rintro ns ⟨⟩
  floor := le_refl _

/--
In a run which accepts critical events in order and seals days only when they
are on disk, the next boot opens a gap which covers every critical event that
was accepted and is in no finished chunk, wherever the run is cut off.
-/
theorem recovery_covers_lost
    (limits : ChunkLimits) (maxBytes : Nat) (universeHash : String)
    (index : DayIndex FinishedChunk) (startedNs : Nat)
    {labels : List CollectorLabel} {final : CollectorState}
    (inOrder : StepsMeet (collectorStep limits maxBytes) InOrder
      (.booted universeHash index startedNs) labels)
    (reached : runFrom (collectorStep limits maxBytes)
      (.booted universeHash index startedNs) labels = some final) :
    ∃ startNs ∈ recoveryStartNs final.lease final.pool.index,
      ∀ group ∈ criticalGroups, ∀ lost,
        (final.pool.writers group).accepted.map Prod.snd =
            (final.pool.writers group).finished.flatMap
              FinishedChunk.rows ++ lost →
          ∀ event ∈ lost, startNs ≤ event.appReceiveRealtimeNs := by
  have sound : CollectorSound limits final :=
    invariant_of_run
      (fun _ _ _ before condition stepped => before.step condition stepped)
      (collectorSound_booted limits universeHash index startedNs)
      inOrder reached
  rcases sound.lease with ⟨affectedFromNs, isLease, covers⟩
  refine ⟨max affectedFromNs (latestSealedBoundaryNs final.pool.index), ?_, ?_⟩
  · rw [isLease]
    rfl
  · intro group critical lost parted event member
    have isSound := sound.pool.writers group (queued_of_critical critical)
    rw [isSound.accepted_eq, List.append_cancel_left_eq] at parted
    rw [← parted] at member
    exact max_le ((covers group critical).1 event member)
      ((sound.groups group critical).unsealed event member)

/-! ## Runs -/

def singleLimits : ChunkLimits where
  maxBytes := 1000
  maxEvents := 1
  batchEvents := 2
  batchBytes := 1000

def tradeEvent (receivedNs : Nat) : RawEvent where
  streamType := .trade
  appReceiveRealtimeNs := receivedNs
  payloadSize := 10

/--
A depth event and a trade are finished and the lease moves up to them; then
another depth event is accepted.
-/
def acceptedAfter (receivedNs : Nat) : List CollectorLabel :=
  [.pool (.put (depthEvent 200))] ++
    List.replicate 6 (.pool (.work .depth false)) ++
    [.pool (.put (tradeEvent 200))] ++
    List.replicate 6 (.pool (.work .tradesMarket false)) ++
    [.heartbeat, .writeRunning 0, .pool (.put (depthEvent receivedNs))]

theorem acceptedAfter_runs :
    (runFrom (collectorStep singleLimits 10000) (.booted "first" {} 50)
      (acceptedAfter 300)).isSome := by
  decide +kernel

/-- Where the run leads when the last event is the latest one. -/
def orderedFinal : CollectorState :=
  (runFrom (collectorStep singleLimits 10000) (.booted "first" {} 50)
    (acceptedAfter 300)).get acceptedAfter_runs

theorem recovery_covers_lost_ordered :
    ∃ startNs ∈ recoveryStartNs orderedFinal.lease orderedFinal.pool.index,
      startNs ≤ (depthEvent 300).appReceiveRealtimeNs := by
  have inOrder : StepsMeet (collectorStep singleLimits 10000) InOrder
      (.booted "first" {} 50) (acceptedAfter 300) := by
    decide +kernel
  have parted : (orderedFinal.pool.writers .depth).accepted.map Prod.snd =
      (orderedFinal.pool.writers .depth).finished.flatMap
        FinishedChunk.rows ++ [depthEvent 300] := by
    decide +kernel
  have critical : WriterGroup.depth ∈ criticalGroups := by
    decide
  rcases recovery_covers_lost singleLimits 10000 "first" {} 50 inOrder
      (Option.some_get acceptedAfter_runs).symm with
    ⟨startNs, isStart, covered⟩
  exact ⟨startNs, isStart, covered .depth critical [depthEvent 300] parted
    (depthEvent 300) List.mem_cons_self⟩

/-- A snapshot of an earlier receive time is lost from before the gap. -/
theorem lost_before_recovery :
    ∃ final ∈ runFrom (collectorStep singleLimits 10000)
        (.booted "first" {} 50) (acceptedAfter 100),
      recoveryStartNs final.lease final.pool.index = some 200 ∧
        (final.pool.writers .depth).accepted.map Prod.snd =
          (final.pool.writers .depth).finished.flatMap
            FinishedChunk.rows ++ [depthEvent 100] := by
  decide +kernel

end ShadowDataPlane.Edge
