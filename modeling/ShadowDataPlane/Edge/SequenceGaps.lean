import Mathlib.Data.Option.Basic
import ShadowDataPlane.Edge.RouteLiveness

/-!
# The sequence gaps of depth streams

`_check_depth_sequence` opens an `L2_SEQUENCE` gap for a discontinuity and
leaves it to a task of the connection, which fetches a snapshot and closes the
gap.  Nothing else closes it while the service runs.

All ways in which a connection ends, an audit error, silence, an overload, a
rotation, a reconnect and a stop, come to the same `finally`, which cancels the
tasks of the connection.  A gap is published by a thread, which goes on when
the coroutine which awaits it is cancelled: the gap is recorded then, and its
ID is lost.  So a gap has somebody to close it exactly as long as no task fails,
no connection ends before its tasks and no thread publishes a gap for a
connection which has ended (`owned_iff`).

The connections of a route are taken together, since a rotation has two.  A
label is what one coroutine does between two awaits.  The ID of a connection
and of a gap are new when they are made.
-/

namespace ShadowDataPlane.Edge

open ShadowDataPlane.Contracts
open ShadowDataPlane.Foundation

/-! ## One connection -/

/-- How far a re-anchor task has come. -/
inductive ReanchorPhase where
  | fetching
  /-- The snapshot is ingested, and `_on_depth_reanchored` is awaited. -/
  | closing
  /-- The task has ended, and the loop has not removed it yet. -/
  | ended
  | failed
deriving DecidableEq

/-- The task will close its gap. -/
def ReanchorPhase.Pending (phase : ReanchorPhase) : Prop :=
  phase = .fetching ∨ phase = .closing

instance (phase : ReanchorPhase) : Decidable phase.Pending :=
  inferInstanceAs (Decidable (_ ∨ _))

/-- `reanchor` for one gap. -/
structure ReanchorTask where
  gapId : String
  phase : ReanchorPhase
deriving DecidableEq

/-- How far the opening of a gap has come. -/
inductive GapOpening where
  /-- The lock of the day index is awaited. -/
  | waiting
  /-- A thread publishes the gap. -/
  | publishing
  /-- The gap is recorded, and its state file is written. -/
  | recorded (gapId : String)
deriving DecidableEq

/-- The gap once it is recorded. -/
def GapOpening.gapId : GapOpening → Option String
  | .waiting | .publishing => none
  | .recorded gapId => some gapId

/-- A connection as far as its depth streams go. -/
structure DepthStreams where
  previousU : Dict LivenessKey Int := Dict.empty
  resyncTasks : Dict LivenessKey ReanchorTask := Dict.empty
  snapshotPending : List (String × StreamType)
  /-- `_on_depth_gap` is awaited. -/
  opening : Option (LivenessKey × GapOpening) := none
  ready : Bool := false
deriving DecidableEq

/-- The snapshot which anchors a depth stream. -/
def anchoringSnapshot (key : LivenessKey) : String × StreamType :=
  (key.2, if key.1 = .rpiDepth then .rpiDepthSnapshot else .depthSnapshot)

/-- `_check_depth_sequence` opens no gap. -/
def sequenceSilent (expected : Option Int) (previous : Int)
    (resyncing pending : Bool) : Bool :=
  expected.isNone || expected = some previous || resyncing || pending

namespace DepthStreams

/-- A diff of the connection, with `_check_depth_sequence`. -/
def check (streams : DepthStreams) (key : LivenessKey)
    (previous final : Int) : DepthStreams :=
  { streams with
    previousU := streams.previousU.set key final
    opening :=
      if sequenceSilent (streams.previousU.get? key) previous
          (streams.resyncTasks.get? key).isSome
          (anchoringSnapshot key ∈ streams.snapshotPending) then none
      else some (key, .waiting) }

/-- Replace the task of a stream. -/
def setTask (streams : DepthStreams) (key : LivenessKey) (gapId : String)
    (phase : ReanchorPhase) : DepthStreams :=
  { streams with
    resyncTasks := streams.resyncTasks.set key ⟨gapId, phase⟩ }

/-- A snapshot which is not pending any more. -/
def discard (streams : DepthStreams) (request : String × StreamType) :
    DepthStreams :=
  { streams with
    snapshotPending := streams.snapshotPending.filter (· ≠ request) }

end DepthStreams

/-! ## The connections of a route -/

/-- An `L2_SEQUENCE` gap. -/
structure SequenceGap where
  connectionId : String
  key : LivenessKey
deriving DecidableEq

namespace DepthStreams

/-- The gap which a thread still publishes when the connection ends. -/
def leftPublication (streams : DepthStreams) (connectionId : String) :
    List SequenceGap :=
  match streams.opening with
  | some (key, .publishing) => [⟨connectionId, key⟩]
  | _ => []

/-- The gaps whose end a thread may still publish when the connection ends. -/
def leftClosings (streams : DepthStreams) : List String :=
  (streams.resyncTasks.values.filter fun task => task.phase = .closing).map
    ReanchorTask.gapId

end DepthStreams

/-- The connections of a route and the gaps which the journal has open. -/
structure DepthRoute where
  connections : Dict String DepthStreams := Dict.empty
  openGaps : Dict String SequenceGap := Dict.empty
  /-- Gaps which threads publish for connections which have ended. -/
  publications : List SequenceGap := []
  /-- Gaps whose end threads publish for connections which have ended. -/
  closings : List String := []
deriving DecidableEq

/-- What happens to the connections of a route and to their tasks. -/
inductive SequenceLabel where
  | connect (connectionId : String) (requests : List (String × StreamType))
  | ready (connectionId : String)
  | depth (connectionId : String) (key : LivenessKey) (previous final : Int)
  /-- The day index is free, and a thread publishes the gap. -/
  | publishes (connectionId : String)
  /-- The journal has recorded the gap which is being opened. -/
  | gapRecorded (connectionId gapId : String)
  /-- The gap is recorded after its connection has ended. -/
  | lateRecorded (gap : SequenceGap) (gapId : String)
  | gapOpened (connectionId : String)
  /-- An update of the subscriptions asks for snapshots. -/
  | request (connectionId : String) (requests : List (String × StreamType))
  /-- A snapshot which was asked for is ingested. -/
  | capture (connectionId : String) (request : String × StreamType)
  /-- The task of a stream has ingested its snapshot. -/
  | fetched (connectionId : String) (key : LivenessKey)
  | gapClosed (connectionId : String) (key : LivenessKey)
  /-- The end of the gap is recorded after its connection has ended. -/
  | lateClosed (gapId : String)
  | taskFails (connectionId : String) (key : LivenessKey)
  | taskRemoved (connectionId : String) (key : LivenessKey)
  | ends (connectionId : String)
deriving DecidableEq

namespace DepthRoute

/-- What happens on one connection. -/
def onConnection (route : DepthRoute) (connectionId : String)
    (change : DepthStreams → Option DepthStreams) : Option DepthRoute :=
  match route.connections.get? connectionId with
  | none => none
  | some streams =>
      (change streams).map fun changed =>
        { route with
          connections := route.connections.set connectionId changed }

/-- What a connection or a thread does between two awaits. -/
def step (route : DepthRoute) : SequenceLabel → Option DepthRoute
  | .connect connectionId requests =>
      if (route.connections.get? connectionId).isNone then
        some { route with
          connections := route.connections.set connectionId
            { snapshotPending := requests } }
      else none
  | .ready connectionId =>
      route.onConnection connectionId fun streams =>
        some { streams with ready := true }
  | .depth connectionId key previous final =>
      route.onConnection connectionId fun streams =>
        if (key.1 = .depth ∨ key.1 = .rpiDepth) ∧ streams.opening = none then
          some (streams.check key previous final)
        else none
  | .publishes connectionId =>
      route.onConnection connectionId fun streams =>
        match streams.opening with
        | some (key, .waiting) =>
            some { streams with opening := some (key, .publishing) }
        | _ => none
  | .gapRecorded connectionId gapId =>
      match route.connections.get? connectionId with
      | some streams =>
          match streams.opening with
          | some (key, .publishing) =>
              if (route.openGaps.get? gapId).isNone then
                some { route with
                  connections := route.connections.set connectionId
                    { streams with opening := some (key, .recorded gapId) }
                  openGaps := route.openGaps.set gapId ⟨connectionId, key⟩ }
              else none
          | _ => none
      | none => none
  | .lateRecorded gap gapId =>
      if gap ∈ route.publications ∧ (route.openGaps.get? gapId).isNone then
        some { route with
          openGaps := route.openGaps.set gapId gap
          publications := route.publications.erase gap }
      else none
  | .gapOpened connectionId =>
      route.onConnection connectionId fun streams =>
        match streams.opening with
        | some (key, .recorded gapId) =>
            some { streams.setTask key gapId .fetching with opening := none }
        | _ => none
  | .request connectionId requests =>
      route.onConnection connectionId fun streams =>
        if streams.opening = none then
          some { streams with
            snapshotPending := requests ++ streams.snapshotPending }
        else none
  | .capture connectionId request =>
      route.onConnection connectionId fun streams =>
        some (streams.discard request)
  | .fetched connectionId key =>
      route.onConnection connectionId fun streams =>
        match streams.resyncTasks.get? key with
        | some ⟨gapId, .fetching⟩ =>
            some ((streams.discard (anchoringSnapshot key)).setTask key gapId
              .closing)
        | _ => none
  | .gapClosed connectionId key =>
      match route.connections.get? connectionId with
      | some streams =>
          match streams.resyncTasks.get? key with
          | some ⟨gapId, .closing⟩ =>
              some { route with
                connections := route.connections.set connectionId
                  (streams.setTask key gapId .ended)
                openGaps := route.openGaps.erase gapId }
          | _ => none
      | none => none
  | .lateClosed gapId =>
      if gapId ∈ route.closings then
        some { route with
          openGaps := route.openGaps.erase gapId
          closings := route.closings.erase gapId }
      else none
  | .taskFails connectionId key =>
      route.onConnection connectionId fun streams =>
        match streams.resyncTasks.get? key with
        | some ⟨gapId, .fetching⟩ | some ⟨gapId, .closing⟩ =>
            some (streams.setTask key gapId .failed)
        | _ => none
  | .taskRemoved connectionId key =>
      route.onConnection connectionId fun streams =>
        match streams.resyncTasks.get? key with
        | some ⟨_, .ended⟩ =>
            if streams.opening = none then
              some { streams with
                resyncTasks := streams.resyncTasks.erase key }
            else none
        | _ => none
  | .ends connectionId =>
      (route.connections.get? connectionId).map fun streams =>
        { route with
          connections := route.connections.erase connectionId
          publications :=
            route.publications ++ streams.leftPublication connectionId
          closings := route.closings ++ streams.leftClosings }

end DepthRoute

/-! ## Who closes a gap -/

namespace DepthStreams

/-- The connection has a task for the gap, or is about to make it. -/
def Owes (streams : DepthStreams) (key : LivenessKey) (gapId : String) :
    Prop :=
  (∃ phase, phase.Pending ∧
    streams.resyncTasks.get? key = some ⟨gapId, phase⟩) ∨
  streams.opening = some (key, .recorded gapId)

/-- The tasks of the connection have ended, and no recorded gap is opened. -/
def Settled (streams : DepthStreams) : Prop :=
  (∀ task ∈ streams.resyncTasks.values, ¬ task.phase.Pending) ∧
    ∀ opening ∈ streams.opening, opening.2.gapId = none

instance (streams : DepthStreams) : Decidable streams.Settled :=
  inferInstanceAs (Decidable (_ ∧ _))

end DepthStreams

namespace DepthRoute

/-- Every open gap is one that its connection will close. -/
def Owned (route : DepthRoute) : Prop :=
  ∀ gapId gap, route.openGaps.get? gapId = some gap →
    ∃ streams, route.connections.get? gap.connectionId = some streams ∧
      streams.Owes gap.key gapId

/--
No task fails, a connection ends after its tasks, and no gap is recorded for a
connection which has ended.
-/
def Keeps (route : DepthRoute) : SequenceLabel → Prop
  | .taskFails _ _ => False
  | .lateRecorded _ _ => False
  | .ends connectionId =>
      ∀ streams ∈ route.connections.get? connectionId, streams.Settled
  | _ => True

instance (route : DepthRoute) (label : SequenceLabel) :
    Decidable (route.Keeps label) :=
  match label with
  | .taskFails _ _ => .isFalse id
  | .lateRecorded _ _ => .isFalse id
  | .ends connectionId =>
      inferInstanceAs (Decidable
        (∀ streams ∈ route.connections.get? connectionId, streams.Settled))
  | .connect _ _ | .ready _ | .depth _ _ _ _ | .publishes _
  | .gapRecorded _ _ | .gapOpened _ | .request _ _ | .capture _ _
  | .fetched _ _ | .gapClosed _ _ | .lateClosed _ | .taskRemoved _ _ =>
      .isTrue trivial

end DepthRoute

/-! ## What a connection owes -/

namespace DepthStreams

variable {streams : DepthStreams} {key other : LivenessKey}
    {gapId otherGap : String}

/-- A connection owes the gap of a task until the task has ended. -/
theorem owes_setTask_iff
    (settled : ∀ opening ∈ streams.opening, opening.1 ≠ key)
    (phase : ReanchorPhase) :
    (streams.setTask key gapId phase).Owes other otherGap ↔
      if other = key then otherGap = gapId ∧ phase.Pending
      else streams.Owes other otherGap := by
  unfold Owes
  simp only [setTask, Dict.get?_set]
  split
  next same =>
    constructor
    · rintro (⟨found, pending, isTask⟩ | isOpening)
      · cases isTask
        exact ⟨rfl, pending⟩
      · exact absurd same (settled _ isOpening)
    · rintro ⟨rfl, pending⟩
      exact Or.inl ⟨phase, pending, rfl⟩
  next => rfl

/-- The task which is made for a recorded gap takes it over. -/
theorem owes_startTask_iff
    (isOpening : streams.opening = some (key, .recorded gapId))
    (noTask : streams.resyncTasks.get? key = none) :
    ({ streams.setTask key gapId .fetching with opening := none } :
      DepthStreams).Owes other otherGap ↔ streams.Owes other otherGap := by
  unfold Owes
  rw [isOpening]
  simp only [setTask, Dict.get?_set]
  constructor
  · rintro (⟨phase, pending, isTask⟩ | isNone)
    · split at isTask
      next same =>
        cases isTask
        rw [same]
        exact Or.inr rfl
      next => exact Or.inl ⟨phase, pending, isTask⟩
    · cases isNone
  · rintro (⟨phase, pending, isTask⟩ | same)
    · refine Or.inl ⟨phase, pending, ?_⟩
      rw [if_neg]
      · exact isTask
      · rintro rfl
        rw [noTask] at isTask
        cases isTask
    · cases same
      exact Or.inl ⟨.fetching, Or.inl rfl, if_pos rfl⟩

/-- A task which has ended is owed nothing. -/
theorem owes_eraseTask_iff
    (isTask : streams.resyncTasks.get? key = some ⟨gapId, .ended⟩) :
    ({ streams with resyncTasks := streams.resyncTasks.erase key } :
      DepthStreams).Owes other otherGap ↔ streams.Owes other otherGap := by
  refine or_congr (exists_congr fun phase => and_congr_right fun pending => ?_)
    Iff.rfl
  rw [Dict.get?_erase]
  split
  next same =>
    rw [same, isTask]
    refine iff_of_false (Option.some_ne_none _ ∘ Eq.symm) ?_
    intro isPhase
    cases isPhase
    exact absurd pending (by decide)
  next => rfl

theorem settled_iff :
    streams.Settled ↔ ∀ key gapId, ¬ streams.Owes key gapId := by
  constructor
  · rintro ⟨tasks, opening⟩ key gapId (⟨phase, pending, isTask⟩ | isOpening)
    · exact tasks _ ((Dict.mem_values_iff _).mpr ⟨key, isTask⟩) pending
    · cases opening _ isOpening
  · intro noGap
    constructor
    · intro task member pending
      rcases (Dict.mem_values_iff _).mp member with ⟨key, isTask⟩
      exact noGap key task.gapId (Or.inl ⟨task.phase, pending, isTask⟩)
    · rintro ⟨key, opening⟩ isOpening
      cases opening with
      | waiting => rfl
      | publishing => rfl
      | recorded gapId => exact absurd (Or.inr isOpening) (noGap key gapId)

/-- A connection whose tasks have ended leaves no end of a gap to a thread. -/
theorem leftClosings_eq_nil (settled : streams.Settled) :
    streams.leftClosings = [] := by
  rw [leftClosings, List.map_eq_nil_iff, List.filter_eq_nil_iff]
  intro task isTask isClosing
  exact settled.1 task isTask (Or.inr (of_decide_eq_true isClosing))

/-- Only `_resync_tasks` and the gap which is being opened matter. -/
theorem Owes.congr {changed : DepthStreams}
    (tasks : changed.resyncTasks = streams.resyncTasks)
    (opening : changed.opening = streams.opening) :
    changed.Owes key gapId ↔ streams.Owes key gapId := by
  rw [Owes, Owes, tasks, opening]

end DepthStreams

namespace DepthRoute

/-! ## The invariant -/

/-- The open gaps are those which the connections owe. -/
def Matched (route : DepthRoute) : Prop :=
  ∀ gapId connectionId key,
    route.openGaps.get? gapId = some ⟨connectionId, key⟩ ↔
      ∃ streams, route.connections.get? connectionId = some streams ∧
        streams.Owes key gapId

/-- No gap is opened for a stream which has a task. -/
def Apart (route : DepthRoute) : Prop :=
  ∀ connectionId streams,
    route.connections.get? connectionId = some streams →
      ∀ opening ∈ streams.opening, streams.resyncTasks.get? opening.1 = none

/-- What every state satisfies in which each open gap is owned. -/
structure SequenceSound (route : DepthRoute) : Prop where
  matched : route.Matched
  apart : route.Apart
  closings : route.closings = []

theorem SequenceSound.owned {route : DepthRoute}
    (sound : route.SequenceSound) : route.Owned :=
  fun gapId gap isOpen =>
    (sound.matched gapId gap.connectionId gap.key).mp isOpen

variable {route after : DepthRoute} {connectionId : String}
    {streams changed : DepthStreams}

/-- A connection changes which owes what it owed. -/
theorem SequenceSound.rebind
    (sound : route.SequenceSound)
    (owes : ∀ key gapId, changed.Owes key gapId ↔
      ∃ streams, route.connections.get? connectionId = some streams ∧
        streams.Owes key gapId)
    (apart : ∀ opening ∈ changed.opening,
      changed.resyncTasks.get? opening.1 = none) :
    { route with
      connections :=
        route.connections.set connectionId changed }.SequenceSound where
  matched gapId otherId key := by
    rw [sound.matched gapId otherId key]
    simp only [Dict.get?_set]
    split
    next same =>
      subst same
      simp only [Option.some.injEq, exists_eq_left', owes]
    next => rfl
  apart otherId other := by
    simp only [Dict.get?_set]
    split
    next =>
      intro isChanged
      cases isChanged
      exact apart
    next => exact sound.apart otherId other
  closings := sound.closings

theorem exists_owes_iff
    (found : route.connections.get? connectionId = some streams)
    {key : LivenessKey} {gapId : String} :
    (∃ streams, route.connections.get? connectionId = some streams ∧
      streams.Owes key gapId) ↔ streams.Owes key gapId := by
  simp only [found, Option.some.injEq, exists_eq_left']

/-- A step of a connection which owes what it owed. -/
theorem SequenceSound.onConnection
    (sound : route.SequenceSound)
    {change : DepthStreams → Option DepthStreams}
    (changes : ∀ streams changed, change streams = some changed →
      route.connections.get? connectionId = some streams →
      (∀ key gapId, changed.Owes key gapId ↔ streams.Owes key gapId) ∧
        ∀ opening ∈ changed.opening,
          changed.resyncTasks.get? opening.1 = none)
    (stepped : route.onConnection connectionId change = some after) :
    after.SequenceSound := by
  rw [DepthRoute.onConnection] at stepped
  cases found : route.connections.get? connectionId with
  | none => simp only [found, reduceCtorEq] at stepped
  | some streams =>
      simp only [found] at stepped
      rcases Option.map_eq_some_iff.mp stepped with ⟨changed, isChange, rfl⟩
      rcases changes streams changed isChange found with ⟨owes, apart⟩
      apply sound.rebind
      · intro key gapId
        rw [exists_owes_iff found]
        exact owes key gapId
      · exact apart

/-! ## Steps -/

theorem SequenceSound.connect
    (sound : route.SequenceSound) {requests : List (String × StreamType)}
    (fresh : route.connections.get? connectionId = none) :
    { route with
      connections := route.connections.set connectionId
        { snapshotPending := requests } }.SequenceSound := by
  apply sound.rebind
  · intro key gapId
    simp only [fresh, reduceCtorEq, false_and, exists_false, iff_false]
    rintro (⟨phase, _, isTask⟩ | isOpening)
    · cases isTask
    · cases isOpening
  · rintro opening ⟨⟩

theorem SequenceSound.gapRecorded
    (sound : route.SequenceSound) {key : LivenessKey} {gapId : String}
    (found : route.connections.get? connectionId = some streams)
    (isOpening : streams.opening = some (key, .publishing))
    (fresh : route.openGaps.get? gapId = none) :
    { route with
      connections := route.connections.set connectionId
        { streams with opening := some (key, .recorded gapId) }
      openGaps :=
        route.openGaps.set gapId ⟨connectionId, key⟩ }.SequenceSound where
  matched otherGap otherId other := by
    have noTask := sound.apart connectionId streams found _ isOpening
    have notOwed (owner : String) (owed : LivenessKey) :
        ¬ ∃ streams, route.connections.get? owner = some streams ∧
          streams.Owes owed gapId := by
      intro owes
      have isOpen := (sound.matched gapId owner owed).mpr owes
      rw [fresh] at isOpen
      cases isOpen
    simp only [Dict.get?_set]
    by_cases sameGap : otherGap = gapId
    · subst sameGap
      rw [if_pos rfl]
      by_cases sameId : otherId = connectionId
      · subst sameId
        rw [if_pos rfl]
        simp only [Option.some.injEq, SequenceGap.mk.injEq, true_and,
          exists_eq_left']
        constructor
        · rintro rfl
          exact Or.inr rfl
        · rintro (⟨phase, pending, isTask⟩ | isNew)
          · exact absurd ⟨streams, found, Or.inl ⟨phase, pending, isTask⟩⟩
              (notOwed otherId other)
          · cases isNew
            rfl
      · rw [if_neg sameId]
        refine iff_of_false ?_ (notOwed otherId other)
        intro same
        cases same
        exact sameId rfl
    · rw [if_neg sameGap, sound.matched otherGap otherId other]
      by_cases sameId : otherId = connectionId
      · subst sameId
        rw [if_pos rfl, exists_owes_iff found]
        simp only [Option.some.injEq, exists_eq_left']
        constructor
        · rintro (task | isOld)
          · exact Or.inl task
          · rw [isOpening] at isOld
            cases isOld
        · rintro (task | isNew)
          · exact Or.inl task
          · cases isNew
            exact absurd rfl sameGap
      · rw [if_neg sameId]
  apart otherId other := by
    simp only [Dict.get?_set]
    split
    next =>
      rintro ⟨⟩ opening ⟨⟩
      exact sound.apart connectionId streams found (key, .publishing) isOpening
    next => exact sound.apart otherId other
  closings := sound.closings

/-- No gap is being opened for a stream which has a task. -/
theorem SequenceSound.opening_ne
    (sound : route.SequenceSound) {key : LivenessKey} {task : ReanchorTask}
    (found : route.connections.get? connectionId = some streams)
    (isTask : streams.resyncTasks.get? key = some task) :
    ∀ opening ∈ streams.opening, opening.1 ≠ key := by
  rintro opening isOpening rfl
  rw [sound.apart connectionId streams found opening isOpening] at isTask
  cases isTask

/-- The task of a stream is all that the connection owes for it. -/
theorem SequenceSound.owes_of_task
    (sound : route.SequenceSound) {key : LivenessKey} {task : ReanchorTask}
    (found : route.connections.get? connectionId = some streams)
    (isTask : streams.resyncTasks.get? key = some task) {gapId : String} :
    streams.Owes key gapId ↔ gapId = task.gapId ∧ task.phase.Pending := by
  constructor
  · rintro (⟨phase, pending, isOther⟩ | isOpening)
    · cases isOther.symm.trans isTask
      exact ⟨rfl, pending⟩
    · exact absurd rfl (sound.opening_ne found isTask _ isOpening)
  · rintro ⟨rfl, pending⟩
    exact Or.inl ⟨task.phase, pending, isTask⟩

/-- A task goes on and is as pending as before. -/
theorem SequenceSound.owes_setTask_iff
    (sound : route.SequenceSound) {key : LivenessKey} {gapId : String}
    {before phase : ReanchorPhase}
    (found : route.connections.get? connectionId = some streams)
    (isTask : streams.resyncTasks.get? key = some ⟨gapId, before⟩)
    (same : phase.Pending ↔ before.Pending) (other : LivenessKey)
    (otherGap : String) :
    (streams.setTask key gapId phase).Owes other otherGap ↔
      streams.Owes other otherGap := by
  rw [DepthStreams.owes_setTask_iff (sound.opening_ne found isTask)]
  split
  next here => rw [here, sound.owes_of_task found isTask, same]
  next => rfl

theorem SequenceSound.apart_setTask
    (sound : route.SequenceSound) {key : LivenessKey} {task : ReanchorTask}
    (found : route.connections.get? connectionId = some streams)
    (isTask : streams.resyncTasks.get? key = some task) {gapId : String}
    (phase : ReanchorPhase) :
    ∀ opening ∈ (streams.setTask key gapId phase).opening,
      (streams.setTask key gapId phase).resyncTasks.get? opening.1 =
        none := by
  intro opening isOpening
  have ne := sound.opening_ne found isTask opening isOpening
  rw [DepthStreams.setTask, Dict.get?_set, if_neg ne]
  exact sound.apart connectionId streams found opening isOpening

theorem SequenceSound.gapClosed
    (sound : route.SequenceSound) {key : LivenessKey} {gapId : String}
    (found : route.connections.get? connectionId = some streams)
    (isTask : streams.resyncTasks.get? key = some ⟨gapId, .closing⟩) :
    { route with
      connections := route.connections.set connectionId
        (streams.setTask key gapId .ended)
      openGaps := route.openGaps.erase gapId }.SequenceSound where
  matched otherGap otherId other := by
    have isOpen : route.openGaps.get? gapId = some ⟨connectionId, key⟩ :=
      (sound.matched gapId connectionId key).mpr
        ⟨streams, found, Or.inl ⟨.closing, Or.inr rfl, isTask⟩⟩
    have notPending : ¬ ReanchorPhase.ended.Pending := by decide
    rw [Dict.get?_erase, Dict.get?_set]
    by_cases sameId : otherId = connectionId
    · subst sameId
      simp only [if_pos, Option.some.injEq, exists_eq_left',
        DepthStreams.owes_setTask_iff (sound.opening_ne found isTask)]
      by_cases sameKey : other = key
      · subst sameKey
        rw [if_pos rfl]
        refine iff_of_false ?_ fun ended => notPending ended.2
        split
        next => exact Option.some_ne_none _ ∘ Eq.symm
        next apart =>
          rw [sound.matched, exists_owes_iff found,
            sound.owes_of_task found isTask]
          exact fun same => apart same.1
      · rw [if_neg sameKey, ← exists_owes_iff found, ← sound.matched]
        split
        next same =>
          rw [same, isOpen]
          refine iff_of_false (Option.some_ne_none _ ∘ Eq.symm) ?_
          intro isOther
          cases isOther
          exact sameKey rfl
        next => rfl
    · rw [if_neg sameId, ← sound.matched]
      split
      next same =>
        rw [same, isOpen]
        refine iff_of_false (Option.some_ne_none _ ∘ Eq.symm) ?_
        intro isOther
        cases isOther
        exact sameId rfl
      next => rfl
  apart otherId other := by
    simp only [Dict.get?_set]
    split
    next =>
      rintro ⟨⟩
      exact sound.apart_setTask found isTask .ended
    next => exact sound.apart otherId other
  closings := sound.closings

theorem SequenceSound.ends
    (sound : route.SequenceSound)
    (found : route.connections.get? connectionId = some streams)
    (settled : streams.Settled) :
    { route with
      connections := route.connections.erase connectionId
      publications :=
        route.publications ++ streams.leftPublication connectionId
      closings := route.closings ++ streams.leftClosings }.SequenceSound where
  matched gapId otherId key := by
    rw [sound.matched gapId otherId key, Dict.get?_erase]
    split
    next same =>
      rw [same, exists_owes_iff found]
      refine iff_of_false (DepthStreams.settled_iff.mp settled key gapId) ?_
      rintro ⟨_, ⟨⟩, _⟩
    next => rfl
  apart otherId other := by
    rw [Dict.get?_erase]
    split
    next => rintro ⟨⟩
    next => exact sound.apart otherId other
  closings := by
    rw [sound.closings, DepthStreams.leftClosings_eq_nil settled,
      List.append_nil]

theorem SequenceSound.step
    (sound : route.SequenceSound) {label : SequenceLabel}
    (keeps : route.Keeps label) (stepped : route.step label = some after) :
    after.SequenceSound := by
  cases label with
  | connect connectionId requests =>
      simp only [DepthRoute.step] at stepped
      split at stepped
      next fresh =>
        cases stepped
        exact sound.connect (Option.isNone_iff_eq_none.mp fresh)
      next => cases stepped
  | ready connectionId =>
      refine sound.onConnection ?_ stepped
      rintro streams _ ⟨⟩ found
      exact ⟨fun _ _ => DepthStreams.Owes.congr rfl rfl,
        sound.apart connectionId streams found⟩
  | depth connectionId key previous final =>
      refine sound.onConnection ?_ stepped
      intro streams changed isChange found
      split at isChange
      next idle =>
        cases isChange
        constructor
        · intro other gapId
          refine or_congr Iff.rfl ?_
          rw [idle.2]
          refine iff_of_false ?_ (Option.some_ne_none _ ∘ Eq.symm)
          simp only [DepthStreams.check]
          split
          next => exact Option.some_ne_none _ ∘ Eq.symm
          next =>
            intro same
            cases same
        · intro opening isOpening
          simp only [DepthStreams.check] at isOpening ⊢
          split at isOpening
          next => cases isOpening
          next speaks =>
            cases isOpening
            simp only [sequenceSilent, Bool.or_eq_true, not_or] at speaks
            simpa using speaks.1.2
      next => cases isChange
  | publishes connectionId =>
      refine sound.onConnection ?_ stepped
      intro streams changed isChange found
      split at isChange
      next key isOpening =>
        cases isChange
        have noTask := sound.apart connectionId streams found _ isOpening
        constructor
        · intro other gapId
          refine or_congr Iff.rfl ?_
          rw [isOpening]
          exact iff_of_false (by rintro ⟨⟩) (by rintro ⟨⟩)
        · rintro opening ⟨⟩
          exact noTask
      next => cases isChange
  | gapRecorded connectionId gapId =>
      simp only [DepthRoute.step] at stepped
      split at stepped
      next streams found =>
        split at stepped
        next key isOpening =>
          split at stepped
          next fresh =>
            cases stepped
            exact sound.gapRecorded found isOpening
              (Option.isNone_iff_eq_none.mp fresh)
          next => cases stepped
        next => cases stepped
      next => cases stepped
  | gapOpened connectionId =>
      refine sound.onConnection ?_ stepped
      intro streams changed isChange found
      split at isChange
      next key gapId isOpening =>
        cases isChange
        have noTask := sound.apart connectionId streams found _ isOpening
        refine ⟨fun _ _ => DepthStreams.owes_startTask_iff isOpening noTask, ?_⟩
        rintro opening ⟨⟩
      next => cases isChange
  | request connectionId requests =>
      refine sound.onConnection ?_ stepped
      intro streams changed isChange found
      split at isChange
      next =>
        cases isChange
        exact ⟨fun _ _ => DepthStreams.Owes.congr rfl rfl,
          sound.apart connectionId streams found⟩
      next => cases isChange
  | capture connectionId request =>
      refine sound.onConnection ?_ stepped
      rintro streams _ ⟨⟩ found
      exact ⟨fun _ _ => DepthStreams.Owes.congr rfl rfl,
        sound.apart connectionId streams found⟩
  | fetched connectionId key =>
      refine sound.onConnection ?_ stepped
      intro streams changed isChange found
      split at isChange
      next gapId isTask =>
        cases isChange
        have stillPending : ReanchorPhase.closing.Pending ↔
            ReanchorPhase.fetching.Pending := by decide
        exact ⟨fun other otherGap => (DepthStreams.Owes.congr rfl rfl).trans
            (sound.owes_setTask_iff found isTask stillPending other otherGap),
          sound.apart_setTask found isTask .closing⟩
      next => cases isChange
  | gapClosed connectionId key =>
      simp only [DepthRoute.step] at stepped
      split at stepped
      next streams found =>
        split at stepped
        next gapId isTask =>
          cases stepped
          exact sound.gapClosed found isTask
        next => cases stepped
      next => cases stepped
  | lateRecorded gap gapId => cases keeps
  | lateClosed gapId =>
      simp only [DepthRoute.step, sound.closings, List.not_mem_nil,
        if_false] at stepped
      cases stepped
  | taskFails connectionId key => cases keeps
  | taskRemoved connectionId key =>
      refine sound.onConnection ?_ stepped
      intro streams changed isChange found
      split at isChange
      next gapId isTask =>
        split at isChange
        next idle =>
          cases isChange
          refine ⟨fun _ _ => DepthStreams.owes_eraseTask_iff isTask, ?_⟩
          rw [idle]
          rintro opening ⟨⟩
        next => cases isChange
      next => cases isChange
  | ends connectionId =>
      rcases Option.map_eq_some_iff.mp stepped with ⟨streams, found, rfl⟩
      exact sound.ends found (keeps streams found)

/-! ## What breaks the ownership -/

/-- The gap of a task which fails is left open. -/
theorem SequenceSound.not_owned_of_taskFails
    (sound : route.SequenceSound) {key : LivenessKey}
    (stepped : route.step (.taskFails connectionId key) = some after) :
    ¬ after.Owned := by
  intro owned
  simp only [DepthRoute.step, DepthRoute.onConnection] at stepped
  split at stepped
  next => cases stepped
  next streams found =>
    rcases Option.map_eq_some_iff.mp stepped with ⟨changed, isChange, rfl⟩
    have leaves {gapId : String} {phase : ReanchorPhase}
        (isTask : streams.resyncTasks.get? key = some ⟨gapId, phase⟩)
        (pending : phase.Pending)
        (isChanged : changed = streams.setTask key gapId .failed) : False := by
      have isOpen := (sound.matched gapId connectionId key).mpr
        ⟨streams, found, Or.inl ⟨phase, pending, isTask⟩⟩
      rcases owned gapId _ isOpen with ⟨other, isOther, owes⟩
      rw [Dict.get?_set_self] at isOther
      rw [← Option.some.inj isOther, isChanged,
        DepthStreams.owes_setTask_iff (sound.opening_ne found isTask),
        if_pos rfl] at owes
      exact absurd owes.2 (by decide)
    split at isChange
    next gapId isTask =>
      cases isChange
      exact leaves isTask (Or.inl rfl) rfl
    next gapId isTask =>
      cases isChange
      exact leaves isTask (Or.inr rfl) rfl
    next => cases isChange

theorem SequenceSound.keeps_of_owned
    (sound : route.SequenceSound) {label : SequenceLabel}
    (stepped : route.step label = some after) (owned : after.Owned) :
    route.Keeps label := by
  cases label with
  | taskFails connectionId key =>
      exact sound.not_owned_of_taskFails stepped owned
  | lateRecorded gap gapId =>
      simp only [DepthRoute.step, Option.ite_none_right_eq_some] at stepped
      rcases stepped with ⟨⟨_, fresh⟩, ⟨⟩⟩
      rcases owned gapId gap (Dict.get?_set_self _ _ _) with
        ⟨streams, found, owes⟩
      -- Nobody owed the gap before it was recorded.
      have isOpen := (sound.matched gapId gap.connectionId gap.key).mpr
        ⟨streams, found, owes⟩
      rw [isOpen] at fresh
      cases fresh
  | ends connectionId =>
      intro streams found
      rw [DepthStreams.settled_iff]
      intro key gapId owes
      rcases Option.map_eq_some_iff.mp stepped with ⟨_, _, rfl⟩
      have isOpen := (sound.matched gapId connectionId key).mpr
        ⟨streams, found, owes⟩
      rcases owned gapId _ isOpen with ⟨other, isOther, _⟩
      rw [Dict.get?_erase, if_pos rfl] at isOther
      cases isOther
  | connect _ _ | ready _ | depth _ _ _ _ | publishes _ | gapRecorded _ _
  | gapOpened _ | request _ _ | capture _ _ | fetched _ _ | gapClosed _ _
  | lateClosed _ | taskRemoved _ _ => trivial

theorem sequenceSound_start : ({} : DepthRoute).SequenceSound where
  matched gapId connectionId key := by
    refine iff_of_false ?_ ?_
    · rintro ⟨⟩
    · rintro ⟨_, ⟨⟩, _⟩
  apart := by
    rintro connectionId streams ⟨⟩
  closings := rfl

/--
In every run of the connections of a route, each open sequence gap is one
which a task of its own connection will close, exactly if no task fails, every
connection ends after its tasks and no gap is recorded for a connection which
has ended.
-/
theorem owned_iff
    {labels : List SequenceLabel} {final : DepthRoute}
    (reached : runFrom step {} labels = some final) :
    Throughout step Owned {} labels ↔ StepsMeet step Keeps {} labels :=
  throughout_iff_stepsMeet
    (fun _ _ _ sound keeps stepped => sound.step keeps stepped)
    (fun _ sound => sound.owned)
    (fun _ _ _ sound stepped owned => sound.keeps_of_owned stepped owned)
    sequenceSound_start reached

/-! ## Three runs -/

def sampleStream : LivenessKey := (.depth, "BTCUSDT")

/-- A connection with its snapshot receives two diffs which do not follow. -/
def breaking (connectionId : String) : List SequenceLabel :=
  [.connect connectionId [("BTCUSDT", .depthSnapshot)],
    .capture connectionId ("BTCUSDT", .depthSnapshot), .ready connectionId,
    .depth connectionId sampleStream 9 10,
    .depth connectionId sampleStream 12 13, .publishes connectionId]

/-- Its gap is recorded and has a task. -/
def discontinuity (connectionId gapId : String) : List SequenceLabel :=
  breaking connectionId ++
    [.gapRecorded connectionId gapId, .gapOpened connectionId]

/-- The connection is replaced after its stream was anchored again. -/
def reanchoredRun : List SequenceLabel :=
  discontinuity "first" "gap-0001" ++
    [.depth "first" sampleStream 15 16, .fetched "first" sampleStream,
      .connect "second" [], .gapClosed "first" sampleStream,
      .taskRemoved "first" sampleStream, .ready "second", .ends "first"]

theorem reanchoredRun_runs : (runFrom step {} reanchoredRun).isSome := by
  decide +kernel

theorem owned_reanchored : Throughout step Owned {} reanchoredRun := by
  apply (owned_iff (Option.some_get reanchoredRun_runs).symm).mpr
  decide +kernel

/-- The connection ends while its task fetches the snapshot. -/
def orphaningRun : List SequenceLabel :=
  discontinuity "first" "gap-0001" ++
    [.ends "first", .connect "second" [("BTCUSDT", .depthSnapshot)],
      .capture "second" ("BTCUSDT", .depthSnapshot), .ready "second"]

theorem orphaningRun_runs :
    (runFrom step {} orphaningRun).map (fun route =>
      (route.openGaps.get? "gap-0001", route.connections.get? "first",
        (route.connections.get? "second").map DepthStreams.ready)) =
      some (some ⟨"first", sampleStream⟩, none, some true) := by
  decide +kernel

/-- The gap is open, and the ready replacement knows nothing of it. -/
theorem replaced_connection_leaves_gap :
    ¬ Throughout step Owned {} orphaningRun := by
  intro visited
  rcases Option.map_eq_some_iff.mp orphaningRun_runs with
    ⟨final, reached, ended⟩
  simp only [Prod.mk.injEq] at ended
  have owned := visited _ [] final (List.append_nil _).symm reached
  rcases owned "gap-0001" _ ended.1 with ⟨streams, found, _⟩
  rw [ended.2.1] at found
  cases found

/-- The connection ends while a thread publishes its gap. -/
def abandonedRun : List SequenceLabel :=
  breaking "first" ++
    [.ends "first", .connect "second" [],
      .lateRecorded ⟨"first", sampleStream⟩ "gap-0001"]

theorem abandonedRun_runs :
    (runFrom step {} abandonedRun).map (fun route =>
      (route.openGaps.get? "gap-0001", route.connections.get? "first")) =
      some (some ⟨"first", sampleStream⟩, none) := by
  decide +kernel

/-- The gap is recorded, and nobody has its ID. -/
theorem late_publication_leaves_gap :
    ¬ Throughout step Owned {} abandonedRun := by
  intro visited
  rcases Option.map_eq_some_iff.mp abandonedRun_runs with
    ⟨final, reached, ended⟩
  simp only [Prod.mk.injEq] at ended
  have owned := visited _ [] final (List.append_nil _).symm reached
  rcases owned "gap-0001" _ ended.1 with ⟨streams, found, _⟩
  rw [ended.2] at found
  cases found

end DepthRoute

end ShadowDataPlane.Edge
