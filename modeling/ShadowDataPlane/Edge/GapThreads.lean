import ShadowDataPlane.Edge.GapRecovery

/-!
# Threads of the gap journal

Whatever the journal writes it hands to a thread, and a cancelled call does not
take its thread along: the call is gone, the lock of the day index is free, and
the thread goes on.  A publication makes three durable writes: the file of the
event, its manifest and the entry of the day's journal.  From the manifest on a
seal lists the event, so it counts as recorded from there.  A process which
dies takes its threads along.

`open` publishes its event before it writes the state file.  So a crash between
the two, or a cancellation which leaves the publication to its thread, leaves
an `OPEN` event which nobody closes (`opening_lost`, `cancelled_opening_lost`).
A thread which removes the state file of a closed gap can also come too late,
when the gap has been rolled over since.  These are the only ways to lose one
(`unclosed_gap_is_stale`).

The calls are made one after the other, with crashes, cancellations and ticks
of the clock anywhere; the threads of cancelled calls interleave with the calls
which come after.
-/

namespace ShadowDataPlane.Edge

open ShadowDataPlane.Foundation
open ShadowDataPlane.Contracts
open ShadowDataPlane.Central
open JournalDisk

/-! ## Writes -/

/-- What a call hands to a thread. -/
inductive WriteJob where
  | publish (event : GapEventV1)
  /-- The state file of a call of `open`. -/
  | createState (event : GapEventV1)
  /-- The state file of a gap which is rolled over. -/
  | rewriteState (gapId : String) (event : GapEventV1)
  | removeState (gapId : String)
deriving DecidableEq

def RollStage.write? (gapId : String) : RollStage → Option WriteJob
  | .readState | .checkSealed _ => none
  | .closePrevious opened => some (.publish (continuedClosing opened))
  | .openNext opened => some (.publish (continuedOpening opened))
  | .writeState opened => some (.rewriteState gapId opened)

/-- The write of the next await, unless the call only reads there. -/
def JournalTask.write? : JournalTask → Option WriteJob
  | .opening event false => some (.publish event)
  | .opening event true => some (.createState event)
  | .closing _ .findState => none
  | .closing event (.roll stage) => stage.write? event.gapId
  | .closing event .publish => some (.publish event)
  | .closing event .removeState => some (.removeState event.gapId)
  | .rollover _ .listStates => none
  | .rollover _ (.roll gapId _ stage) => stage.write? gapId

/-- The gap whose state file is read, and the date to roll it to. -/
def JournalTask.reads? : JournalTask → Option (String × Nat)
  | .closing event (.roll .readState) =>
      some (event.gapId, dateOfNs event.observedAtRealtimeNs)
  | .rollover targetDate (.roll gapId _ .readState) => some (gapId, targetDate)
  | _ => none

/-- `record_generated` refuses the event before it starts a thread. -/
def WriteJob.Refused (disk : JournalDisk) : WriteJob → Prop
  | .publish event => disk.index.DayIsSealed event.eventDate
  | .createState _ | .rewriteState _ _ | .removeState _ => False

instance (disk : JournalDisk) : (job : WriteJob) → Decidable (job.Refused disk)
  | .publish _ => inferInstanceAs (Decidable (DayIndex.DayIsSealed _ _))
  | .createState _ | .rewriteState _ _ | .removeState _ =>
      inferInstanceAs (Decidable False)

/-- A thread records the event, even if the day has been sealed since. -/
def JournalDisk.record (disk : JournalDisk) (event : GapEventV1) :
    JournalDisk :=
  if (event.eventDate, event) ∈ disk.index.recorded then disk
  else
    { disk with
      index :=
        { disk.index with
          recorded := disk.index.recorded ++ [(event.eventDate, event)] } }

/-- What is on disk when the thread is done. -/
def WriteJob.finish (disk : JournalDisk) : WriteJob → JournalDisk
  | .publish event => disk.record event
  | .createState event =>
      { disk with openGaps := disk.openGaps.set event.gapId event }
  | .rewriteState gapId event =>
      { disk with openGaps := disk.openGaps.set gapId event }
  | .removeState gapId => { disk with openGaps := disk.openGaps.erase gapId }

/-- How far the thread has come for which the call waits. -/
inductive WritePhase where
  | begun
  /-- The file of the event is written. -/
  | filed
  /-- The manifest is written, the entry of the day's journal is not. -/
  | listed
deriving DecidableEq

/-- `open` has begun to publish its event, and no thread writes the state. -/
def JournalTask.LosesGap (thread : Option WritePhase) : JournalTask → Prop
  | .opening _ false => thread ≠ none
  | .opening _ true => thread ≠ some .begun
  | .closing _ _ | .rollover _ _ => False

instance (thread : Option WritePhase) :
    (task : JournalTask) → Decidable (task.LosesGap thread)
  | .opening _ false | .opening _ true => inferInstanceAs (Decidable (_ ≠ _))
  | .closing _ _ | .rollover _ _ => inferInstanceAs (Decidable False)

/-- The journal and the threads of its calls. -/
structure ThreadedJournal where
  history : JournalHistory
  thread : Option WritePhase := none
  /-- What the threads of cancelled calls have still to write. -/
  adrift : List WriteJob := []
deriving DecidableEq

/-- The calls of the journal, and the steps of their threads. -/
inductive ThreadLabel where
  | call (label : JournalLabel)
  /-- The thread of the next write starts. -/
  | begins
  /-- The thread makes its next durable write. -/
  | writes
  | cancel
  /-- A thread which a cancelled call has left comes to its end. -/
  | finishes (job : WriteJob)
deriving DecidableEq

namespace ThreadedJournal

/-- The call goes on without a thread, and the id of a new gap is new. -/
def Permits (state : ThreadedJournal) : JournalLabel → Prop
  | .work => state.thread = none ∧
      ∀ task ∈ state.history.task, ∀ job ∈ task.write?,
        job.Refused state.history.disk
  | .openGap gapId _ _ => ∀ job ∈ state.adrift,
      ∀ event, job = .publish event → event.gapId ≠ gapId
  | .tick _ | .closeGap _ _ | .rollover _ | .crash | .sealDay _ => True

/-- What a cancelled call leaves to its thread. -/
def left (state : ThreadedJournal) (task : JournalTask) : List WriteJob :=
  match state.thread with
  | some .begun | some .filed => task.write?.toList
  | some .listed | none => []

end ThreadedJournal

instance (state : ThreadedJournal) :
    (label : JournalLabel) → Decidable (state.Permits label)
  | .work => inferInstanceAs (Decidable (_ ∧ _))
  | .openGap gapId _ _ =>
      have (job : WriteJob) :
          Decidable (∀ event, job = .publish event → event.gapId ≠ gapId) :=
        match job with
        | .publish event => decidable_of_iff (event.gapId ≠ gapId)
            ⟨by rintro ne _ ⟨⟩; exact ne, fun all => all event rfl⟩
        | .createState _ | .rewriteState _ _ | .removeState _ =>
            .isTrue (by rintro _ ⟨⟩)
      inferInstanceAs (Decidable (∀ job ∈ _, _))
  | .tick _ | .closeGap _ _ | .rollover _ | .crash | .sealDay _ =>
      inferInstanceAs (Decidable True)

/-- One step of the journal or of a thread. -/
def threadStep (state : ThreadedJournal) :
    ThreadLabel → Option ThreadedJournal
  | .call .crash => some { history := { state.history with task := none } }
  | .call label =>
      if state.Permits label then
        (journalStep state.history label).map fun history =>
          { state with history := history }
      else none
  | .begins =>
      match state.thread, state.history.task.bind JournalTask.write? with
      | none, some job =>
          if job.Refused state.history.disk then none
          else some { state with thread := some .begun }
      | _, _ => none
  | .writes =>
      match state.thread, state.history.task with
      | some .begun, some task =>
          match task.write? with
          | some (.publish _) => some { state with thread := some .filed }
          | some _ =>
              some
                { state with
                  history := journalWork state.history task
                  thread := none }
          | none => none
      | some .filed, some task =>
          if task.write?.isSome then
            some
              { state with
                history := journalWork state.history task
                thread := some .listed }
          else none
      | some .listed, _ => some { state with thread := none }
      | _, _ => none
  | .cancel =>
      state.history.task.map fun task =>
        { history := { state.history with task := none }
          adrift := state.adrift ++ state.left task }
  | .finishes job =>
      if job ∈ state.adrift then
        some
          { state with
            history :=
              { state.history with disk := job.finish state.history.disk }
            adrift := state.adrift.erase job }
      else none

/-! ## The property and its condition -/

namespace ThreadedJournal

/-- Somebody is about to write the state file of the gap. -/
def Creates (state : ThreadedJournal) (gapId : String) : Prop :=
  halfOpened state.history.task = some gapId ∨
    ∃ event, .createState event ∈ state.adrift ∧ event.gapId = gapId

/-- A call of `open` is about to lose its gap if it is cancelled. -/
def Opening (state : ThreadedJournal) : Prop :=
  ∃ task ∈ state.history.task, task.LosesGap state.thread

instance (state : ThreadedJournal) : Decidable state.Opening :=
  inferInstanceAs (Decidable (∃ task ∈ _, _))

end ThreadedJournal

/-- The thread writes the state file of a call of `open`. -/
def WriteJob.CreatesState : WriteJob → Prop
  | .createState _ => True
  | .publish _ | .rewriteState _ _ | .removeState _ => False

instance : DecidablePred WriteJob.CreatesState
  | .createState _ => inferInstanceAs (Decidable True)
  | .publish _ | .rewriteState _ _ | .removeState _ =>
      inferInstanceAs (Decidable False)

/--
No crash and no cancellation falls between the publication of an `OPEN` event
by `open` and its state file, but that the thread which writes the state file
may outlive its call; and no gap is rolled over whose state file the thread of
a cancelled call of `close` has yet to remove.
-/
def OpensWhole (state : ThreadedJournal) : ThreadLabel → Prop
  | .call .crash =>
      halfOpened state.history.task = none ∧
        ∀ job ∈ state.adrift, ¬ job.CreatesState
  | .cancel => ¬ state.Opening
  | .call .work => ∀ read ∈ state.history.task.bind JournalTask.reads?,
      .removeState read.1 ∈ state.adrift →
        ∀ opened ∈ state.history.disk.openGaps.get? read.1,
          nextDate opened read.2 = none
  | _ => True

instance (state : ThreadedJournal) :
    (label : ThreadLabel) → Decidable (OpensWhole state label)
  | .call .crash => inferInstanceAs (Decidable (_ ∧ _))
  | .cancel => inferInstanceAs (Decidable (¬ _))
  | .call .work => inferInstanceAs (Decidable (∀ read ∈ _, _ → _))
  | .begins | .writes | .finishes _ | .call (.tick _)
  | .call (.openGap _ _ _) | .call (.closeGap _ _) | .call (.rollover _)
  | .call (.sealDay _) => .isTrue trivial

/-! ## The invariant -/

/-- The event is recorded, or a thread is about to record it. -/
def Published (disk : JournalDisk) (adrift : List WriteJob)
    (event : GapEventV1) : Prop :=
  (∃ entry ∈ disk.index.recorded, entry.2 = event) ∨ .publish event ∈ adrift

/-- Every `OPEN` event of the gap starts by the given instant. -/
def OpenedBy (disk : JournalDisk) (adrift : List WriteJob) (gapId : String)
    (nowNs : Nat) : Prop :=
  ∀ event, Published disk adrift event → event.gapId = gapId →
    event.state = .opened → event.effectiveNs ≤ nowNs

/-- A genuine `CLOSED` event of the gap is recorded, not before the instant. -/
def ClosedSince (disk : JournalDisk) (gapId : String) (sinceNs : Nat) :
    Prop :=
  ∃ closing ∈ disk.index.recorded, closing.2.gapId = gapId ∧
    GenuineClose closing.2 ∧ sinceNs ≤ closing.2.observedAtRealtimeNs

/-- The gap was closed after all its `OPEN` events. -/
def Answered (disk : JournalDisk) (adrift : List WriteJob) (gapId : String) :
    Prop :=
  ∃ closedNs, OpenedBy disk adrift gapId closedNs ∧
    ClosedSince disk gapId closedNs

/-- What a thread which a call has left relies on. -/
def JobKeeps (disk : JournalDisk) (adrift : List WriteJob) :
    WriteJob → Prop
  | .publish event => event.state = .opened →
      (disk.openGaps.get? event.gapId).isSome ∨
        ClosedSince disk event.gapId event.effectiveNs
  | .createState _ => True
  | .rewriteState gapId event => event.gapId = gapId
  | .removeState gapId => Answered disk adrift gapId

/-- A gap which is rolled over keeps its state file. -/
def RollHolds (disk : JournalDisk) (adrift : List WriteJob) (gapId : String)
    (targetDate : Nat) (stage : RollStage) : Prop :=
  RollKeeps disk gapId targetDate stage ∧
    (stage ≠ .readState → .removeState gapId ∉ adrift)

/-- What a stage of a call of `close` relies on. -/
def CloseKeeps (disk : JournalDisk) (adrift : List WriteJob)
    (event : GapEventV1) : CloseStage → Prop
  | .findState | .publish => True
  | .roll stage => RollHolds disk adrift event.gapId
      (dateOfNs event.observedAtRealtimeNs) stage
  | .removeState =>
      ClosedSince disk event.gapId event.observedAtRealtimeNs

/-- What a call in flight relies on. -/
def TaskKeeps (history : JournalHistory) (adrift : List WriteJob) :
    JournalTask → Prop
  | .opening event _ =>
      event.state = .opened ∧ event.effectiveNs ≤ history.nowNs ∧
        .removeState event.gapId ∉ adrift
  | .closing event stage =>
      GenuineClose event ∧ event.observedAtRealtimeNs ≤ history.nowNs ∧
        OpenedBy history.disk adrift event.gapId
          event.observedAtRealtimeNs ∧
        CloseKeeps history.disk adrift event stage
  | .rollover targetDate .listStates =>
      midnightNs targetDate ≤ history.nowNs
  | .rollover targetDate (.roll gapId _ stage) =>
      midnightNs targetDate ≤ history.nowNs ∧
        RollHolds history.disk adrift gapId targetDate stage

/-- What every history with whole openings guarantees. -/
structure HistoryKeeps (adrift : List WriteJob) (history : JournalHistory) :
    Prop where
  opened : ∀ gapId, OpenedBy history.disk adrift gapId history.nowNs
  named : ∀ gapId state, history.disk.openGaps.get? gapId = some state →
    state.gapId = gapId
  unclosed : ∀ gapId, Unclosed history.disk gapId →
    (history.disk.openGaps.get? gapId).isSome ∨
      halfOpened history.task = some gapId ∨
        ∃ event, .createState event ∈ adrift ∧ event.gapId = gapId
  task : ∀ task ∈ history.task, TaskKeeps history adrift task
  jobs : ∀ job ∈ adrift, JobKeeps history.disk adrift job

theorem historyKeeps_start (startNs : Nat) :
    HistoryKeeps [] { nowNs := startNs } where
  opened := by
    rintro gapId event (⟨entry, member, _⟩ | member)
    · cases member
    · cases member
  named := by
    rintro gapId state ⟨⟩
  unclosed := by
    rintro gapId ⟨opening, member, _⟩
    cases member
  task := by
    rintro task ⟨⟩
  jobs := by
    rintro job ⟨⟩

section Preservation

variable {disk after : JournalDisk} {adrift fewer : List WriteJob}
variable {event : GapEventV1} {gapId other : String}
variable {targetDate nowNs : Nat} {stage : RollStage}

theorem Published.mono
    (published : Published disk fewer event) (subset : fewer ⊆ adrift) :
    Published disk adrift event :=
  published.imp_right fun isAdrift => subset isAdrift

theorem OpenedBy.mono
    {later : Nat} (openedBy : OpenedBy disk adrift gapId nowNs)
    (isLater : nowNs ≤ later) : OpenedBy disk adrift gapId later :=
  fun event published sameGap opened =>
    (openedBy event published sameGap opened).trans isLater

theorem OpenedBy.of_published
    (openedBy : OpenedBy disk adrift gapId nowNs)
    (published : ∀ event, Published after fewer event →
      Published disk adrift event ∨
        (event.gapId = gapId → event.state = .opened →
          event.effectiveNs ≤ nowNs)) :
    OpenedBy after fewer gapId nowNs := by
  intro event isPublished sameGap opened
  rcases published event isPublished with before | starts
  · exact openedBy event before sameGap opened
  · exact starts sameGap opened

/-- A roll publishes nothing which starts after its date. -/
theorem OpenedBy.roll
    (openedBy : OpenedBy disk adrift gapId nowNs)
    (effect : RollEffect disk other targetDate stage after)
    (due : gapId = other → midnightNs targetDate ≤ nowNs) :
    OpenedBy after adrift gapId nowNs := by
  apply openedBy.of_published
  rintro event (⟨entry, member, rfl⟩ | isAdrift)
  · rcases effect.added entry member with old | rolled
    · exact Or.inl (Or.inl ⟨entry, old, rfl⟩)
    · refine Or.inr fun sameGap opened => (rolled.opens opened).trans ?_
      exact due (sameGap.symm.trans rolled.gapId)
  · exact Or.inl (Or.inr isAdrift)

theorem ClosedSince.mono
    {sinceNs : Nat} (closed : ClosedSince disk gapId sinceNs)
    (recorded : disk.index.recorded ⊆ after.index.recorded) :
    ClosedSince after gapId sinceNs := by
  rcases closed with ⟨closing, member, isClosing⟩
  exact ⟨closing, recorded member, isClosing⟩

theorem OpenedBy.publish
    (openedBy : OpenedBy disk adrift gapId nowNs)
    (completed : disk.publish event = .ok after)
    (starts : event.gapId = gapId → event.state = .opened →
      event.effectiveNs ≤ nowNs) :
    OpenedBy after adrift gapId nowNs := by
  apply openedBy.of_published
  rintro other (⟨entry, member, rfl⟩ | isAdrift)
  · rcases (mem_recorded_publish completed entry).mp member with old | rfl
    · exact Or.inl (Or.inl ⟨entry, old, rfl⟩)
    · exact Or.inr starts
  · exact Or.inl (Or.inr isAdrift)

/-- A gap which was closed after all its `OPEN` events is not open. -/
theorem Answered.not_unclosed
    (answered : Answered disk adrift gapId) : ¬ Unclosed disk gapId := by
  rcases answered with
    ⟨closedNs, openedBy, closing, recorded, closes, genuine, since⟩
  rintro ⟨opening, member, sameGap, opened, unanswered⟩
  have earlier := unanswered closing recorded closes genuine
  have later := openedBy opening.2 (Or.inl ⟨opening, member, rfl⟩) sameGap
    opened
  exact absurd (earlier.trans_le (later.trans since)) (lt_irrefl _)

/-- What the threads rely on stays, while no gap is opened behind a removal. -/
theorem jobs_keep
    (jobs : ∀ job ∈ adrift, JobKeeps disk adrift job)
    (subset : fewer ⊆ adrift)
    (recorded : disk.index.recorded ⊆ after.index.recorded)
    (present : ∀ gapId, (disk.openGaps.get? gapId).isSome →
      (after.openGaps.get? gapId).isSome ∨ Answered after fewer gapId)
    (calm : ∀ gapId, .removeState gapId ∈ fewer → ∀ closedNs,
      OpenedBy disk adrift gapId closedNs →
        OpenedBy after fewer gapId closedNs) :
    ∀ job ∈ fewer, JobKeeps after fewer job := by
  intro job isFewer
  have before := jobs job (subset isFewer)
  cases job with
  | publish event =>
      intro opened
      rcases before opened with found | closed
      · rcases present event.gapId found with found | ⟨closedNs, by_, closed⟩
        · exact Or.inl found
        · have starts := by_ event (Or.inr isFewer) rfl opened
          rcases closed with ⟨closing, member, closes, genuine, since⟩
          exact Or.inr
            ⟨closing, member, closes, genuine, starts.trans since⟩
      · exact Or.inr (closed.mono recorded)
  | createState event => trivial
  | rewriteState gapId event => exact before
  | removeState gapId =>
      rcases before with ⟨closedNs, openedBy, closed⟩
      exact ⟨closedNs, calm gapId isFewer closedNs openedBy,
        closed.mono recorded⟩

/-- A call publishes no `OPEN` event of a gap which a thread removes. -/
theorem jobs_published
    (jobs : ∀ job ∈ adrift, JobKeeps disk adrift job)
    (completed : disk.publish event = .ok after)
    (kept : event.state = .opened → .removeState event.gapId ∉ adrift) :
    ∀ job ∈ adrift, JobKeeps after adrift job := by
  apply jobs_keep jobs (List.Subset.refl _)
  · exact fun entry old => (mem_recorded_publish completed entry).mpr (.inl old)
  · intro gapId found
    rw [(publish_ok completed).openGaps]
    exact Or.inl found
  · intro gapId isRemoval closedNs openedBy
    refine openedBy.publish completed ?_
    rintro rfl opened
    exact absurd isRemoval (kept opened)

end Preservation

/-! ## Every step keeps the invariant -/

section Steps

variable {history : JournalHistory} {disk : JournalDisk}
variable {adrift fewer : List WriteJob}

/-- A call which is not half way through `open` gives way to another. -/
theorem HistoryKeeps.of_task
    (keeps : HistoryKeeps adrift history) (task : Option JournalTask)
    (whole : halfOpened history.task = none)
    (next : ∀ running ∈ task,
      TaskKeeps { history with task := task } adrift running) :
    HistoryKeeps adrift { history with task := task } where
  opened := keeps.opened
  named := keeps.named
  unclosed := by
    intro gapId unclosed
    rcases keeps.unclosed gapId unclosed with found | half | left
    · exact Or.inl found
    · simp [whole] at half
    · exact Or.inr (Or.inr left)
  task := next
  jobs := keeps.jobs

theorem HistoryKeeps.tick
    (keeps : HistoryKeeps adrift history) {nowNs : Nat}
    (later : history.nowNs ≤ nowNs) :
    HistoryKeeps adrift { history with nowNs := nowNs } where
  opened := fun gapId => (keeps.opened gapId).mono later
  named := keeps.named
  unclosed := keeps.unclosed
  task := by
    intro task running
    have before := keeps.task task running
    cases task with
    | opening event published =>
        exact ⟨before.1, before.2.1.trans later, before.2.2⟩
    | closing event stage =>
        exact ⟨before.1, before.2.1.trans later, before.2.2⟩
    | rollover targetDate stage =>
        cases stage with
        | listStates => exact Nat.le_trans before later
        | roll gapId rest stage => exact ⟨before.1.trans later, before.2⟩
  jobs := keeps.jobs

theorem HistoryKeeps.sealDay
    (keeps : HistoryKeeps adrift history) (idle : history.task = none)
    (utcDate : Nat) :
    HistoryKeeps adrift { history with
      disk :=
        { history.disk with
          index := history.disk.index.sealDay utcDate } } := by
  have recorded : (history.disk.index.sealDay utcDate).recorded =
      history.disk.index.recorded := by
    unfold DayIndex.sealDay
    split <;> rfl
  have openedBy {gapId : String} {nowNs : Nat}
      (before : OpenedBy history.disk adrift gapId nowNs) :
      OpenedBy
        { history.disk with
          index := history.disk.index.sealDay utcDate }
        adrift gapId nowNs := by
    apply before.of_published
    rintro event (⟨entry, member, isEvent⟩ | isAdrift)
    · exact Or.inl (Or.inl ⟨entry, recorded ▸ member, isEvent⟩)
    · exact Or.inl (Or.inr isAdrift)
  exact {
    opened := fun gapId => openedBy (keeps.opened gapId)
    named := keeps.named
    unclosed := by
      rintro gapId unclosed
      apply keeps.unclosed gapId
      unfold Unclosed at unclosed
      rw [recorded] at unclosed
      exact unclosed
    task := by
      intro task running
      simp [idle] at running
    jobs := jobs_keep keeps.jobs (List.Subset.refl _)
      (by rw [recorded]; exact List.Subset.refl _)
      (fun _ found => Or.inl found) (fun _ _ _ before => openedBy before) }

/-- A step of a roll of a gap which no thread is about to remove. -/
theorem HistoryKeeps.roll
    {gapId : String} {targetDate : Nat} {stage : RollStage}
    {next : Option JournalTask}
    (keeps : HistoryKeeps adrift history)
    (whole : halfOpened history.task = none)
    (rolls : stage.Rolls gapId targetDate)
    (due : midnightNs targetDate ≤ history.nowNs)
    (effect : RollEffect history.disk gapId targetDate stage disk)
    (present : (disk.openGaps.get? gapId).isSome)
    (kept : .removeState gapId ∈ adrift → disk = history.disk)
    (task : ∀ running ∈ next,
      TaskKeeps { history with disk := disk, task := next } adrift running) :
    HistoryKeeps adrift { history with disk := disk, task := next } where
  opened := fun other => (keeps.opened other).roll effect fun _ => due
  named := effect.named rolls keeps.named
  unclosed := by
    intro other unclosed
    by_cases same : other = gapId
    · subst same
      exact Or.inl present
    · rcases keeps.unclosed other (unclosed.of_roll effect same) with
        found | half | left
      · apply Or.inl
        show (disk.openGaps.get? other).isSome
        rw [effect.others other same]
        exact found
      · simp [whole] at half
      · exact Or.inr (Or.inr left)
  task := task
  jobs := by
    apply jobs_keep keeps.jobs (List.Subset.refl _) effect.recorded
    · intro other found
      by_cases same : other = gapId
      · subst same
        exact Or.inl present
      · apply Or.inl
        show (disk.openGaps.get? other).isSome
        rw [effect.others other same]
        exact found
    · intro other isRemoval closedNs openedBy
      by_cases same : other = gapId
      · subst same
        rw [kept isRemoval]
        exact openedBy
      · exact openedBy.roll effect fun isGap => absurd isGap same

/-- What a call came to besides does not matter. -/
theorem HistoryKeeps.of_results
    (keeps : HistoryKeeps adrift history) (returned : List GapEventV1)
    (failed : List JournalTask) :
    HistoryKeeps adrift
      { history with
        returned := returned
        failed := failed } where
  opened := keeps.opened
  named := keeps.named
  unclosed := keeps.unclosed
  task := fun task running => by
    have before := keeps.task task running
    cases task with
    | opening event published => exact before
    | closing event stage => exact before
    | rollover targetDate stage => cases stage <;> exact before
  jobs := keeps.jobs

theorem HistoryKeeps.opening
    {event : GapEventV1} {published : Bool} {next : Option JournalTask}
    (keeps : HistoryKeeps adrift history)
    (running : history.task = some (.opening event published))
    (completed :
      taskStep history.disk (.opening event published) = .ok (disk, next)) :
    HistoryKeeps adrift { history with disk := disk, task := next } := by
  rcases keeps.task _ running with ⟨isOpening, starts, kept⟩
  cases published with
  | false =>
      simp only [taskStep] at completed
      split at completed
      next => simp at completed
      next published =>
        simp only [Except.ok.injEq, Prod.mk.injEq] at completed
        rcases completed with ⟨rfl, rfl⟩
        exact {
          opened := fun gapId =>
            (keeps.opened gapId).publish published fun _ _ => starts
          named := by
            show ∀ gapId state, _ = _ → _
            rw [(publish_ok published).openGaps]
            exact keeps.named
          unclosed := by
            intro gapId unclosed
            rcases unclosed.of_added (mem_recorded_publish published) with
              before | opens
            · rcases keeps.unclosed gapId before with found | half | left
              · apply Or.inl
                show (_ : Option _).isSome
                rw [(publish_ok published).openGaps]
                exact found
              · simp [running, halfOpened] at half
              · exact Or.inr (Or.inr left)
            · exact Or.inr (Or.inl (congrArg some opens.1))
          task := by
            rintro task ⟨⟩
            exact ⟨isOpening, starts, kept⟩
          jobs := jobs_published keeps.jobs published fun _ => kept }
  | true =>
      simp only [taskStep, Except.ok.injEq, Prod.mk.injEq] at completed
      rcases completed with ⟨rfl, rfl⟩
      have isSet (gapId : String)
          (found : (history.disk.openGaps.get? gapId).isSome) :
          ((history.disk.openGaps.set event.gapId event).get? gapId).isSome :=
        by
          rw [Dict.get?_set]
          split
          next => rfl
          next => exact found
      exact {
        opened := keeps.opened
        named := by
          intro gapId state found
          rw [Dict.get?_set] at found
          split at found
          next same => rw [← Option.some.inj found, same]
          next => exact keeps.named gapId state found
        unclosed := by
          intro gapId unclosed
          rcases keeps.unclosed gapId unclosed with found | half | left
          · exact Or.inl (isSet gapId found)
          · rw [running] at half
            apply Or.inl
            rw [← Option.some.inj half]
            show (_ : Option _).isSome
            rw [Dict.get?_set_self]
            rfl
          · exact Or.inr (Or.inr left)
        task := by
          rintro task ⟨⟩
        jobs := jobs_keep keeps.jobs (List.Subset.refl _)
          (List.Subset.refl _) (fun gapId found => Or.inl (isSet gapId found))
          (fun _ _ _ openedBy => openedBy) }

/-- The next stage of a roll holds the gap as this one does. -/
theorem RollHolds.next
    {gapId : String} {targetDate : Nat} {stage later : RollStage}
    (holds : RollHolds history.disk adrift gapId targetDate stage)
    (named : ∀ other state, history.disk.openGaps.get? other = some state →
      state.gapId = other)
    (calm : stage = .readState → .removeState gapId ∈ adrift →
      ∀ opened ∈ history.disk.openGaps.get? gapId,
        nextDate opened targetDate = none)
    (rolled : rollStep history.disk gapId targetDate stage =
      .ok (disk, some later)) :
    RollHolds disk adrift gapId targetDate later := by
  refine ⟨⟨rollStep_rolls holds.1.1 (named gapId) rolled,
    fun _ => holds.1.present rolled⟩, fun _ isRemoval => ?_⟩
  by_cases reads : stage = .readState
  · subst reads
    simp only [rollStep] at rolled
    split at rolled
    next => cases rolled
    next opened found =>
      simp only [Except.ok.injEq, Prod.mk.injEq] at rolled
      rw [calm rfl isRemoval opened found] at rolled
      cases rolled.2
  · exact holds.2 reads isRemoval

/-- A roll which a thread is about to overtake has only read. -/
theorem RollHolds.unchanged
    {gapId : String} {targetDate : Nat} {stage : RollStage}
    {next : Option RollStage}
    (holds : RollHolds history.disk adrift gapId targetDate stage)
    (rolled : rollStep history.disk gapId targetDate stage =
      .ok (disk, next)) (isRemoval : .removeState gapId ∈ adrift) :
    disk = history.disk := by
  by_cases reads : stage = .readState
  · subst reads
    simp only [rollStep] at rolled
    split at rolled
    next => cases rolled
    next =>
      cases rolled
      rfl
  · exact absurd isRemoval (holds.2 reads)

/-- What a task relies on when it rolls a gap over. -/
theorem HistoryKeeps.rolled
    {gapId : String} {targetDate : Nat} {stage : RollStage}
    {later : Option RollStage} {next : Option JournalTask}
    (keeps : HistoryKeeps adrift history)
    (whole : halfOpened history.task = none)
    (due : midnightNs targetDate ≤ history.nowNs)
    (holds : RollHolds history.disk adrift gapId targetDate stage)
    (rolled : rollStep history.disk gapId targetDate stage =
      .ok (disk, later))
    (task : ∀ running ∈ next,
      TaskKeeps { history with disk := disk, task := next } adrift running) :
    HistoryKeeps adrift { history with disk := disk, task := next } :=
  keeps.roll whole holds.1.1 due (rollStep_effect holds.1.1 rolled)
    (holds.1.present rolled) (holds.unchanged rolled) task

/-- The state file of a gap which was closed after its events is removed. -/
theorem HistoryKeeps.removeState
    {gapId : String} {task : Option JournalTask}
    (keeps : HistoryKeeps adrift history) (subset : fewer ⊆ adrift)
    (half : ∀ other, halfOpened history.task = some other →
      halfOpened task = some other)
    (left : ∀ event, .createState event ∈ adrift →
      .createState event ∈ fewer)
    (answered : Answered history.disk fewer gapId)
    (next : ∀ running ∈ task,
      TaskKeeps
        { history with
          disk :=
            { history.disk with
              openGaps := history.disk.openGaps.erase gapId }
          task := task }
        fewer running) :
    HistoryKeeps fewer
      { history with
        disk :=
          { history.disk with
            openGaps := history.disk.openGaps.erase gapId }
        task := task } where
  opened other := (keeps.opened other).of_published
    fun _ published => Or.inl (published.mono subset)
  named := by
    intro other state found
    rw [Dict.get?_erase] at found
    split at found
    next => simp at found
    next => exact keeps.named other state found
  unclosed := by
    intro other unclosed
    have different : other ≠ gapId := by
      rintro rfl
      exact answered.not_unclosed unclosed
    rcases keeps.unclosed other unclosed with
      found | isHalf | ⟨event, isJob, same⟩
    · apply Or.inl
      show ((history.disk.openGaps.erase _).get? other).isSome
      rw [Dict.get?_erase, if_neg different]
      exact found
    · exact Or.inr (Or.inl (half other isHalf))
    · exact Or.inr (Or.inr ⟨event, left event isJob, same⟩)
  task := next
  jobs := by
    refine jobs_keep keeps.jobs subset (fun _ => id) ?_ ?_
    · intro other found
      by_cases same : other = gapId
      · subst same
        exact Or.inr answered
      · apply Or.inl
        show ((history.disk.openGaps.erase _).get? other).isSome
        rw [Dict.get?_erase, if_neg same]
        exact found
    · intro other _ closedNs openedBy
      exact openedBy.of_published
        fun _ published => Or.inl (published.mono subset)

theorem HistoryKeeps.closing
    {event : GapEventV1} {stage : CloseStage} {next : Option JournalTask}
    (keeps : HistoryKeeps adrift history)
    (running : history.task = some (.closing event stage))
    (calm : stage = .roll .readState → .removeState event.gapId ∈ adrift →
      ∀ opened ∈ history.disk.openGaps.get? event.gapId,
        nextDate opened (dateOfNs event.observedAtRealtimeNs) = none)
    (completed : closingStep history.disk event stage = .ok (disk, next)) :
    HistoryKeeps adrift { history with disk := disk, task := next } := by
  have whole : halfOpened history.task = none := by
    rw [running]
    rfl
  rcases keeps.task _ running with ⟨genuine, past, openedBy, closeKeeps⟩
  cases stage with
  | findState =>
      have isDisk : disk = history.disk := by
        simp only [closingStep] at completed
        split at completed <;> cases completed <;> rfl
      subst isDisk
      apply keeps.of_task next whole
      intro task isNext
      simp only [closingStep] at completed
      split at completed
      · cases completed
        cases isNext
        exact ⟨genuine, past, openedBy, ⟨trivial, by simp⟩, by simp⟩
      · cases completed
        cases isNext
        exact ⟨genuine, past, openedBy, trivial⟩
  | roll stage =>
      have due := (dateOfNs_eq_iff.mp
        (rfl : dateOfNs event.observedAtRealtimeNs = _)).1
      simp only [closingStep] at completed
      split at completed
      next => simp at completed
      next rolled =>
        cases completed
        have effect := rollStep_effect closeKeeps.1.1 rolled
        apply keeps.rolled whole (due.trans past) closeKeeps rolled
        rintro task ⟨⟩
        exact ⟨genuine, past, openedBy.roll effect fun _ => due,
          closeKeeps.next keeps.named
            (fun isRead => calm (congrArg CloseStage.roll isRead)) rolled⟩
      next rolled =>
        cases completed
        have effect := rollStep_effect closeKeeps.1.1 rolled
        apply keeps.rolled whole (due.trans past) closeKeeps rolled
        rintro task ⟨⟩
        exact ⟨genuine, past, openedBy.roll effect fun _ => due, trivial⟩
  | publish =>
      simp only [closingStep] at completed
      split at completed
      next => simp at completed
      next published =>
        cases completed
        have opens : event.state ≠ .opened := by simp [genuine.1]
        have recorded := (mem_recorded_publish published
          (event.eventDate, event)).mpr (Or.inr rfl)
        exact {
          opened := fun gapId =>
            (keeps.opened gapId).publish published fun _ isOpen =>
              (opens isOpen).elim
          named := by
            show ∀ gapId state, _ = _ → _
            rw [(publish_ok published).openGaps]
            exact keeps.named
          unclosed := by
            intro gapId unclosed
            rcases unclosed.of_added (mem_recorded_publish published) with
              before | isOpen
            · rcases keeps.unclosed gapId before with found | half | left
              · apply Or.inl
                show (_ : Option _).isSome
                rw [(publish_ok published).openGaps]
                exact found
              · simp [whole] at half
              · exact Or.inr (Or.inr left)
            · exact (opens isOpen.2.1).elim
          task := by
            rintro task ⟨⟩
            exact ⟨genuine, past,
              openedBy.publish published fun _ isOpen => (opens isOpen).elim,
              _, recorded, rfl, genuine, le_refl _⟩
          jobs := jobs_published keeps.jobs published fun isOpen =>
            (opens isOpen).elim }
  | removeState =>
      simp only [closingStep, Except.ok.injEq, Prod.mk.injEq] at completed
      rcases completed with ⟨rfl, rfl⟩
      exact keeps.removeState (List.Subset.refl _)
        (by rw [whole]; rintro _ ⟨⟩) (fun _ => id)
        ⟨_, openedBy, closeKeeps⟩ (by rintro task ⟨⟩)

theorem nextState_keeps
    {targetDate : Nat} (due : midnightNs targetDate ≤ history.nowNs)
    (later : List String) :
    ∀ task ∈ nextState targetDate later, TaskKeeps history adrift task := by
  intro task isNext
  cases later with
  | nil => cases isNext
  | cons gapId later =>
      cases isNext
      exact ⟨due, ⟨trivial, by simp⟩, by simp⟩

theorem HistoryKeeps.rollover
    {targetDate : Nat} {stage : RolloverStage} {next : Option JournalTask}
    (keeps : HistoryKeeps adrift history)
    (running : history.task = some (.rollover targetDate stage))
    (calm : ∀ gapId later, stage = .roll gapId later .readState →
      .removeState gapId ∈ adrift →
        ∀ opened ∈ history.disk.openGaps.get? gapId,
          nextDate opened targetDate = none)
    (completed :
      rolloverStep history.disk targetDate stage = .ok (disk, next)) :
    HistoryKeeps adrift { history with disk := disk, task := next } := by
  have whole : halfOpened history.task = none := by
    rw [running]
    rfl
  have taskKeeps := keeps.task _ running
  cases stage with
  | listStates =>
      cases completed
      exact keeps.of_task _ whole (nextState_keeps taskKeeps _)
  | roll gapId later stage =>
      rcases taskKeeps with ⟨due, holds⟩
      simp only [rolloverStep] at completed
      split at completed
      next => simp at completed
      next rolled =>
        cases completed
        apply keeps.rolled whole due holds rolled
        rintro task ⟨⟩
        refine ⟨due, holds.next keeps.named (fun isRead => ?_) rolled⟩
        exact calm gapId later (by rw [isRead])
      next rolled =>
        cases completed
        apply keeps.rolled whole due holds rolled
        apply nextState_keeps
        exact due

/-- The call makes a step, and no gap is rolled behind its removal. -/
theorem HistoryKeeps.work
    {task : JournalTask} (keeps : HistoryKeeps adrift history)
    (running : history.task = some task)
    (calm : ∀ read ∈ task.reads?, .removeState read.1 ∈ adrift →
      ∀ opened ∈ history.disk.openGaps.get? read.1,
        nextDate opened read.2 = none) :
    HistoryKeeps adrift (journalWork history task) := by
  unfold journalWork
  split
  next failed =>
    have ended : HistoryKeeps adrift { history with task := none } := ?_
    · exact ended.of_results _ _
    apply keeps.of_task none
    · cases task with
      | opening event published =>
          cases published with
          | false => rw [running]; rfl
          | true => simp [taskStep] at failed
      | closing event stage => rw [running]; rfl
      | rollover targetDate stage => rw [running]; rfl
    · rintro task ⟨⟩
  all_goals
    next completed =>
      cases task with
      | opening event published =>
          exact (keeps.opening running completed).of_results _ _
      | closing event stage =>
          refine (keeps.closing running ?_ completed).of_results _ _
          rintro rfl
          exact calm _ rfl
      | rollover targetDate stage =>
          refine (keeps.rollover running ?_ completed).of_results _ _
          rintro gapId later rfl
          exact calm _ rfl

/-- A roll opens a gap again whose state file stays, by its own date. -/
theorem RollHolds.publishes
    {gapId : String} {targetDate : Nat} {stage : RollStage}
    {event : GapEventV1}
    (holds : RollHolds disk adrift gapId targetDate stage)
    (isWrite : stage.write? gapId = some (.publish event))
    (opened : event.state = .opened) :
    event.gapId = gapId ∧ event.effectiveNs ≤ midnightNs targetDate ∧
      (disk.openGaps.get? gapId).isSome ∧ .removeState gapId ∉ adrift := by
  cases stage with
  | closePrevious before =>
      cases isWrite
      cases opened
  | openNext before =>
      cases isWrite
      have rolled := continuedOpening_rolled holds.1.1.1 holds.1.1.2
      exact ⟨rolled.gapId, rolled.opens opened, holds.1.2 (by simp),
        holds.2 (by simp)⟩
  | readState | checkSealed _ | writeState _ => cases isWrite

/-- The call rolls the gap over to the date, and has come to this stage. -/
inductive JournalTask.Rolls :
    JournalTask → String → Nat → RollStage → Prop where
  | closing (event : GapEventV1) (stage : RollStage) :
      Rolls (.closing event (.roll stage)) event.gapId
        (dateOfNs event.observedAtRealtimeNs) stage
  | rollover (targetDate : Nat) (gapId : String) (later : List String)
      (stage : RollStage) :
      Rolls (.rollover targetDate (.roll gapId later stage)) gapId targetDate
        stage

/-- What the next await of the call hands to its thread. -/
inductive JournalTask.Writes : JournalTask → WriteJob → Prop where
  | opens (event : GapEventV1) :
      Writes (.opening event false) (.publish event)
  | creates (event : GapEventV1) :
      Writes (.opening event true) (.createState event)
  | closes (event : GapEventV1) :
      Writes (.closing event .publish) (.publish event)
  | removes (event : GapEventV1) :
      Writes (.closing event .removeState) (.removeState event.gapId)
  | rolls {task : JournalTask} {gapId : String} {targetDate : Nat}
      {stage : RollStage} {job : WriteJob}
      (rolling : task.Rolls gapId targetDate stage)
      (isRoll : stage.write? gapId = some job) : Writes task job

theorem JournalTask.writes_of_write?
    {task : JournalTask} {job : WriteJob} (isWrite : task.write? = some job) :
    task.Writes job := by
  cases task with
  | opening event published =>
      cases published with
      | false => cases isWrite; exact .opens event
      | true => cases isWrite; exact .creates event
  | closing event stage =>
      cases stage with
      | findState => cases isWrite
      | roll stage => exact .rolls (.closing event stage) isWrite
      | publish => cases isWrite; exact .closes event
      | removeState => cases isWrite; exact .removes event
  | rollover targetDate stage =>
      cases stage with
      | listStates => cases isWrite
      | roll gapId later stage =>
          exact .rolls (.rollover targetDate gapId later stage) isWrite

/-- A call which rolls a gap over keeps its state file, and the date is due. -/
theorem TaskKeeps.rolls
    {task : JournalTask} {gapId : String} {targetDate : Nat}
    {stage : RollStage} (taskKeeps : TaskKeeps history adrift task)
    (rolling : task.Rolls gapId targetDate stage) :
    midnightNs targetDate ≤ history.nowNs ∧
      RollHolds history.disk adrift gapId targetDate stage := by
  cases rolling with
  | closing event =>
      have due := (dateOfNs_eq_iff.mp
        (rfl : dateOfNs event.observedAtRealtimeNs = _)).1
      exact ⟨due.trans taskKeeps.2.1, taskKeeps.2.2.2⟩
  | rollover => exact taskKeeps

/-- A call of `open` publishes the event, or a roll does as above. -/
theorem TaskKeeps.publishes
    {task : JournalTask} {event : GapEventV1}
    (taskKeeps : TaskKeeps history adrift task)
    (isWrite : task.write? = some (.publish event))
    (opened : event.state = .opened) :
    event.effectiveNs ≤ history.nowNs ∧
      (task = .opening event false ∨
        (history.disk.openGaps.get? event.gapId).isSome ∧
          .removeState event.gapId ∉ adrift) := by
  cases JournalTask.writes_of_write? isWrite with
  | opens => exact ⟨taskKeeps.2.1, Or.inl rfl⟩
  | closes => cases taskKeeps.1.1.symm.trans opened
  | rolls rolling isRoll =>
      rcases taskKeeps.rolls rolling with ⟨due, holds⟩
      rcases holds.publishes isRoll opened with ⟨rfl, starts, found, kept⟩
      exact ⟨starts.trans due, Or.inr ⟨found, kept⟩⟩

/-- What a cancelled call leaves to its thread. -/
theorem TaskKeeps.left
    {task : JournalTask} {job : WriteJob}
    (taskKeeps : TaskKeeps history adrift task)
    (isWrite : task.write? = some job)
    (notOpening : ∀ event, task ≠ .opening event false) :
    JobKeeps history.disk (adrift ++ [job]) job := by
  cases JournalTask.writes_of_write? isWrite with
  | opens event => exact absurd rfl (notOpening event)
  | creates => trivial
  | closes =>
      intro opened
      cases taskKeeps.1.1.symm.trans opened
  | removes =>
      rcases taskKeeps with ⟨_, _, openedBy, closed⟩
      refine ⟨_, openedBy.of_published ?_, closed⟩
      rintro event (recorded | isAdrift)
      · exact Or.inl (Or.inl recorded)
      · simp only [List.mem_append, List.mem_singleton, reduceCtorEq,
          or_false] at isAdrift
        exact Or.inl (Or.inr isAdrift)
  | @rolls _ gapId _ stage _ rolling isRoll =>
      have holds := (taskKeeps.rolls rolling).2
      cases stage with
      | readState | checkSealed _ => cases isRoll
      | closePrevious before =>
          cases isRoll
          rintro ⟨⟩
      | openNext before =>
          cases isRoll
          intro opened
          rcases holds.publishes rfl opened with ⟨same, _, found, _⟩
          rw [← same] at found
          exact Or.inl found
      | writeState before =>
          cases isRoll
          exact holds.1.1

theorem Published.of_concat
    {job : WriteJob} {event : GapEventV1}
    (published : Published disk (adrift ++ [job]) event) :
    Published disk adrift event ∨ job = .publish event := by
  rcases published with recorded | isAdrift
  · exact Or.inl (Or.inl recorded)
  · rcases List.mem_append.mp isAdrift with old | new
    · exact Or.inl (Or.inr old)
    · exact Or.inr (List.mem_singleton.mp new).symm

/-- A call is cancelled whose thread goes on. -/
theorem HistoryKeeps.cancel
    {task : JournalTask} {job : WriteJob}
    (keeps : HistoryKeeps adrift history)
    (running : history.task = some task)
    (isWrite : task.write? = some job)
    (notOpening : ∀ event, task ≠ .opening event false) :
    HistoryKeeps (adrift ++ [job]) { history with task := none } := by
  have taskKeeps := keeps.task task running
  have publishes {event : GapEventV1} (isPublish : job = .publish event)
      (opened : event.state = .opened) :
      event.effectiveNs ≤ history.nowNs ∧
        .removeState event.gapId ∉ adrift := by
    rcases taskKeeps.publishes (isPublish ▸ isWrite) opened with
      ⟨starts, isOpening | found⟩
    · exact absurd isOpening (notOpening event)
    · exact ⟨starts, found.2⟩
  constructor
  · intro gapId
    apply (keeps.opened gapId).of_published
    intro event published
    refine published.of_concat.imp_right fun isPublish _ opened => ?_
    exact (publishes isPublish opened).1
  · exact keeps.named
  · intro gapId unclosed
    rcases keeps.unclosed gapId unclosed with found | half | left
    · exact Or.inl found
    · rw [running] at half
      refine Or.inr (Or.inr ?_)
      cases JournalTask.writes_of_write? isWrite with
      | opens event => exact absurd rfl (notOpening event)
      | creates event =>
          exact ⟨event, List.mem_append_right _ List.mem_cons_self,
            Option.some.inj half⟩
      | closes | removes => cases half
      | rolls rolling => cases rolling <;> cases half
    · rcases left with ⟨event, isJob, same⟩
      exact Or.inr (Or.inr ⟨event, List.mem_append_left _ isJob, same⟩)
  · rintro task ⟨⟩
  · intro other isJob
    rcases List.mem_append.mp isJob with old | new
    · have before := keeps.jobs other old
      cases other with
      | publish event => exact before
      | createState event => trivial
      | rewriteState gapId event => exact before
      | removeState gapId =>
          rcases before with ⟨closedNs, openedBy, closed⟩
          refine ⟨closedNs, openedBy.of_published ?_, closed⟩
          intro event published
          refine published.of_concat.imp_right fun isPublish same opened => ?_
          exact absurd (same ▸ old) (publishes isPublish opened).2
    · rw [List.mem_singleton.mp new]
      exact taskKeeps.left isWrite notOpening

theorem mem_record_iff
    {event : GapEventV1} (entry : Nat × GapEventV1) :
    entry ∈ (disk.record event).index.recorded ↔
      entry ∈ disk.index.recorded ∨ entry = (event.eventDate, event) := by
  unfold JournalDisk.record
  split
  next present =>
    constructor
    · exact Or.inl
    · rintro (old | rfl)
      · exact old
      · exact present
  next => simp

/-- A call in flight keeps what it relies on when a thread is done. -/
theorem TaskKeeps.mono
    {task : JournalTask} (taskKeeps : TaskKeeps history adrift task)
    (subset : fewer ⊆ adrift)
    (published : ∀ event, Published disk fewer event →
      Published history.disk adrift event)
    (recorded : history.disk.index.recorded ⊆ disk.index.recorded)
    (present : ∀ gapId, .removeState gapId ∉ adrift →
      (history.disk.openGaps.get? gapId).isSome →
        (disk.openGaps.get? gapId).isSome) :
    TaskKeeps { history with disk := disk } fewer task := by
  have rolls {gapId : String} {targetDate : Nat} {stage : RollStage}
      (holds : RollHolds history.disk adrift gapId targetDate stage) :
      RollHolds disk fewer gapId targetDate stage :=
    ⟨⟨holds.1.1, fun reads =>
        present gapId (holds.2 reads) (holds.1.2 reads)⟩,
      fun reads isRemoval => holds.2 reads (subset isRemoval)⟩
  cases task with
  | opening event published =>
      exact ⟨taskKeeps.1, taskKeeps.2.1,
        fun isRemoval => taskKeeps.2.2 (subset isRemoval)⟩
  | closing event stage =>
      rcases taskKeeps with ⟨genuine, past, openedBy, closeKeeps⟩
      refine ⟨genuine, past, openedBy.of_published
        fun event isPublished => Or.inl (published event isPublished), ?_⟩
      cases stage with
      | findState | publish => trivial
      | roll stage => exact rolls closeKeeps
      | removeState => exact closeKeeps.mono recorded
  | rollover targetDate stage =>
      cases stage with
      | listStates => exact taskKeeps
      | roll gapId later stage => exact ⟨taskKeeps.1, rolls taskKeeps.2⟩

/-- A thread writes a state file which names its gap. -/
theorem HistoryKeeps.setState
    {gapId : String} {event : GapEventV1}
    (keeps : HistoryKeeps adrift history) (subset : fewer ⊆ adrift)
    (names : event.gapId = gapId)
    (left : ∀ other, .createState other ∈ adrift →
      .createState other ∈ fewer ∨ other.gapId = gapId) :
    HistoryKeeps fewer
      { history with
        disk :=
          { history.disk with
            openGaps := history.disk.openGaps.set gapId event } } := by
  have isSet (other : String)
      (found : other = gapId ∨ (history.disk.openGaps.get? other).isSome) :
      ((history.disk.openGaps.set gapId event).get? other).isSome := by
    rw [Dict.get?_set]
    split
    next => rfl
    next different => exact found.resolve_left different
  have published (other : GapEventV1)
      (isPublished : Published history.disk fewer other) :
      Published history.disk adrift other := isPublished.mono subset
  constructor
  · exact fun other => (keeps.opened other).of_published
      fun event isPublished => Or.inl (published event isPublished)
  · intro other state found
    rw [Dict.get?_set] at found
    split at found
    next same => rw [← Option.some.inj found, same, names]
    next => exact keeps.named other state found
  · intro other unclosed
    rcases keeps.unclosed other unclosed with found | half | ⟨job, isJob, same⟩
    · exact Or.inl (isSet other (Or.inr found))
    · exact Or.inr (Or.inl half)
    · rcases left job isJob with isLeft | isGap
      · exact Or.inr (Or.inr ⟨job, isLeft, same⟩)
      · exact Or.inl (isSet other (Or.inl (same.symm.trans isGap)))
  · intro task running
    exact (keeps.task task running).mono subset published (fun _ => id)
      fun other _ found => isSet other (Or.inr found)
  · exact jobs_keep keeps.jobs subset (fun _ => id)
      (fun other found => Or.inl (isSet other (Or.inr found)))
      fun _ _ _ openedBy => openedBy.of_published
        fun event isPublished => Or.inl (published event isPublished)

/-- A thread records the event which it has been given. -/
theorem HistoryKeeps.record
    {event : GapEventV1} (keeps : HistoryKeeps adrift history)
    (isAdrift : .publish event ∈ adrift) :
    HistoryKeeps (adrift.erase (.publish event))
      { history with disk := history.disk.record event } := by
  have subset : adrift.erase (.publish event) ⊆ adrift :=
    fun _ => List.mem_of_mem_erase
  have sameGaps : (history.disk.record event).openGaps =
      history.disk.openGaps := by
    unfold JournalDisk.record
    split <;> rfl
  have published (other : GapEventV1)
      (isPublished : Published (history.disk.record event)
        (adrift.erase (.publish event)) other) :
      Published history.disk adrift other := by
    rcases isPublished with ⟨entry, member, rfl⟩ | isJob
    · rcases (mem_record_iff entry).mp member with old | rfl
      · exact Or.inl ⟨entry, old, rfl⟩
      · exact Or.inr isAdrift
    · exact Or.inr (subset isJob)
  have recorded : history.disk.index.recorded ⊆
      (history.disk.record event).index.recorded :=
    fun entry old => (mem_record_iff entry).mpr (Or.inl old)
  have present (gapId : String)
      (found : (history.disk.openGaps.get? gapId).isSome) :
      ((history.disk.record event).openGaps.get? gapId).isSome := by
    rw [sameGaps]
    exact found
  constructor
  · exact fun gapId => (keeps.opened gapId).of_published
      fun other isPublished => Or.inl (published other isPublished)
  · intro gapId state found
    rw [sameGaps] at found
    exact keeps.named gapId state found
  · intro gapId unclosed
    rcases unclosed.of_added mem_record_iff with
      before | ⟨rfl, opened, unanswered⟩
    · rcases keeps.unclosed gapId before with found | half | ⟨job, isJob, same⟩
      · exact Or.inl (present gapId found)
      · exact Or.inr (Or.inl half)
      · refine Or.inr (Or.inr ⟨job, ?_, same⟩)
        exact (List.mem_erase_of_ne (by rintro ⟨⟩)).mpr isJob
    · rcases keeps.jobs _ isAdrift opened with
        found | ⟨closing, member, closes, genuine, since⟩
      · exact Or.inl (present event.gapId found)
      · exact absurd (unanswered closing member closes genuine)
          (not_lt_of_ge since)
  · intro task running
    exact (keeps.task task running).mono subset published recorded
      fun gapId _ => present gapId
  · exact jobs_keep keeps.jobs subset recorded
      (fun gapId found => Or.inl (present gapId found))
      fun _ _ _ openedBy => openedBy.of_published
        fun other isPublished => Or.inl (published other isPublished)

/-- The thread of a cancelled call comes to its end. -/
theorem HistoryKeeps.finishes
    {job : WriteJob} (keeps : HistoryKeeps adrift history)
    (isAdrift : job ∈ adrift) :
    HistoryKeeps (adrift.erase job)
      { history with disk := job.finish history.disk } := by
  have subset : adrift.erase job ⊆ adrift := fun _ => List.mem_of_mem_erase
  have others {event : GapEventV1} (isJob : .createState event ∈ adrift)
      (different : .createState event ≠ job) :
      .createState event ∈ adrift.erase job :=
    (List.mem_erase_of_ne different).mpr isJob
  cases job with
  | publish event => exact keeps.record isAdrift
  | createState event =>
      apply keeps.setState subset rfl
      intro other isJob
      by_cases same : other = event
      · exact Or.inr (by rw [same])
      · exact Or.inl (others isJob (by rintro ⟨⟩; exact same rfl))
  | rewriteState gapId event =>
      apply keeps.setState subset (keeps.jobs _ isAdrift)
      exact fun other isJob => Or.inl (others isJob (by rintro ⟨⟩))
  | removeState gapId =>
      have answered : Answered history.disk
          (adrift.erase (.removeState gapId)) gapId := by
        rcases keeps.jobs _ isAdrift with ⟨closedNs, openedBy, closed⟩
        exact ⟨closedNs, openedBy.of_published
          fun _ published => Or.inl (published.mono subset), closed⟩
      refine keeps.removeState subset (fun _ => id)
        (fun event isJob => others isJob (by rintro ⟨⟩)) answered ?_
      intro task running
      refine (keeps.task task running).mono subset
        (fun _ published => published.mono subset) (fun _ => id) ?_
      intro other isKept found
      have different : other ≠ gapId := by
        rintro rfl
        exact isKept isAdrift
      rw [Dict.get?_erase, if_neg different]
      exact found

/-- A process which dies takes its threads along. -/
theorem HistoryKeeps.crash
    (keeps : HistoryKeeps adrift history)
    (whole : halfOpened history.task = none)
    (left : ∀ job ∈ adrift, ¬ job.CreatesState) :
    HistoryKeeps [] { history with task := none } where
  opened gapId := (keeps.opened gapId).of_published
    fun _ published => Or.inl (published.mono (List.nil_subset _))
  named := keeps.named
  unclosed := by
    intro gapId unclosed
    rcases keeps.unclosed gapId unclosed with found | half | ⟨event, isJob, _⟩
    · exact Or.inl found
    · cases whole.symm.trans half
    · exact absurd trivial (left _ isJob)
  task := by
    rintro task ⟨⟩
  jobs := by
    rintro job ⟨⟩

/-- A call begins; the gap which it opens is a new one. -/
theorem HistoryKeeps.begin
    (keeps : HistoryKeeps adrift history) {label : JournalLabel}
    {after : JournalHistory}
    (isCall : label ≠ .work ∧ label ≠ .crash)
    (stepped : journalStep history label = some after) :
    HistoryKeeps adrift after := by
  cases label with
  | tick nowNs =>
      simp only [journalStep, Option.ite_none_right_eq_some] at stepped
      rcases stepped with ⟨later, ⟨⟩⟩
      exact keeps.tick later
  | openGap gapId affectedFrom call =>
      simp only [journalStep, Option.ite_none_right_eq_some,
        Option.map_eq_some_iff] at stepped
      rcases stepped with ⟨⟨idle, fresh, _⟩, event, built, rfl⟩
      apply keeps.of_task
      · rw [idle]
        rfl
      · rintro task ⟨⟩
        rcases openEvent_eq_some built with ⟨rfl, opened, observed, _⟩
        refine ⟨opened, observed ▸ event.effectiveNs_le_observed, ?_⟩
        intro isRemoval
        rcases keeps.jobs _ isRemoval with
          ⟨_, _, closing, recorded, closes, _⟩
        exact fresh closing recorded closes
  | closeGap gapId call =>
      simp only [journalStep, Option.ite_none_right_eq_some] at stepped
      rcases stepped with ⟨⟨idle, detail⟩, ⟨⟩⟩
      apply keeps.of_task
      · rw [idle]
        rfl
      · rintro task ⟨⟩
        exact ⟨⟨rfl, detail⟩, le_refl _, keeps.opened gapId, trivial⟩
  | rollover utcDate =>
      simp only [journalStep, Option.ite_none_right_eq_some] at stepped
      rcases stepped with ⟨⟨idle, due⟩, ⟨⟩⟩
      apply keeps.of_task
      · rw [idle]
        rfl
      · rintro task ⟨⟩
        exact due
  | sealDay utcDate =>
      simp only [journalStep, Option.ite_none_right_eq_some] at stepped
      rcases stepped with ⟨⟨idle, _⟩, ⟨⟩⟩
      exact keeps.sealDay idle utcDate
  | work => exact absurd rfl isCall.1
  | crash => exact absurd rfl isCall.2

end Steps

/-- A thread only writes where the call does not read. -/
theorem JournalTask.reads?_of_write
    {task : JournalTask} {job : WriteJob} (isWrite : task.write? = some job) :
    task.reads? = none := by
  cases JournalTask.writes_of_write? isWrite with
  | opens | creates | closes | removes => rfl
  | @rolls _ _ _ stage _ rolling isRoll =>
      cases stage <;> cases rolling <;> first | rfl | cases isRoll

/-- The thread for which the call waits makes its write. -/
theorem HistoryKeeps.written
    {adrift : List WriteJob} {history : JournalHistory} {task : JournalTask}
    (keeps : HistoryKeeps adrift history) (running : history.task = some task)
    (isWrite : task.write?.isSome) :
    HistoryKeeps adrift (journalWork history task) := by
  rcases Option.isSome_iff_exists.mp isWrite with ⟨job, isJob⟩
  apply keeps.work running
  rw [JournalTask.reads?_of_write isJob]
  rintro read ⟨⟩

/-- A call is cancelled which is not about to lose its gap. -/
theorem ThreadedJournal.keeps_cancel
    {state : ThreadedJournal} {task : JournalTask}
    (keeps : HistoryKeeps state.adrift state.history)
    (running : state.history.task = some task) (whole : ¬ state.Opening) :
    HistoryKeeps (state.adrift ++ state.left task)
      { state.history with task := none } := by
  have ends (nothing : state.left task = [])
      (notHalf : halfOpened state.history.task = none) :
      HistoryKeeps (state.adrift ++ state.left task)
        { state.history with task := none } := by
    rw [nothing, List.append_nil]
    exact keeps.of_task none notHalf (by rintro task ⟨⟩)
  have opening (event : GapEventV1) (published : Bool)
      (isOpening : task = .opening event published) :
      state.thread = some .begun ∧ published = true ∨
        state.thread = none ∧ published = false := by
    have keepsGap : ¬ task.LosesGap state.thread :=
      fun loses => whole ⟨task, running, loses⟩
    subst isOpening
    cases published with
    | false => exact Or.inr ⟨not_not.mp keepsGap, rfl⟩
    | true => exact Or.inl ⟨not_not.mp keepsGap, rfl⟩
  cases isLeft : state.left task with
  | nil =>
      rw [← isLeft]
      apply ends isLeft
      rw [running]
      cases task with
      | opening event published =>
          rcases opening event published rfl with ⟨begun, rfl⟩ | ⟨_, rfl⟩
          · simp [ThreadedJournal.left, begun, JournalTask.write?] at isLeft
          · rfl
      | closing event stage => rfl
      | rollover targetDate stage => rfl
  | cons job rest =>
      have isJob : task.write? = some job ∧ rest = [] ∧
          state.thread ≠ none := by
        have started : state.thread ≠ none := by
          intro idle
          simp [ThreadedJournal.left, idle] at isLeft
        have writes : task.write?.toList = job :: rest := by
          unfold ThreadedJournal.left at isLeft
          split at isLeft <;> first | exact isLeft | cases isLeft
        cases isWrite : task.write? with
        | none => simp [isWrite] at writes
        | some other =>
            rw [isWrite] at writes
            cases writes
            exact ⟨rfl, rfl, started⟩
      rcases isJob with ⟨isWrite, rfl, started⟩
      apply keeps.cancel running isWrite
      intro event isOpening
      rcases opening event false isOpening with ⟨_, ⟨⟩⟩ | ⟨idle, _⟩
      exact started idle

/-- Every step of a history with whole openings keeps the invariant. -/
theorem ThreadedJournal.keeps_step
    {before after : ThreadedJournal} {label : ThreadLabel}
    (keeps : HistoryKeeps before.adrift before.history)
    (whole : OpensWhole before label)
    (stepped : threadStep before label = some after) :
    HistoryKeeps after.adrift after.history := by
  cases label with
  | call label =>
      cases label with
      | crash =>
          cases stepped
          exact keeps.crash whole.1 whole.2
      | work =>
          simp only [threadStep, Option.ite_none_right_eq_some,
            Option.map_eq_some_iff] at stepped
          rcases stepped with ⟨_, history, worked, rfl⟩
          simp only [journalStep, Option.map_eq_some_iff] at worked
          rcases worked with ⟨task, running, rfl⟩
          apply keeps.work running
          intro read isRead
          exact whole read (by rw [running]; exact isRead)
      | tick _ | openGap _ _ _ | closeGap _ _ | rollover _ | sealDay _ =>
          simp only [threadStep, Option.ite_none_right_eq_some,
            Option.map_eq_some_iff] at stepped
          rcases stepped with ⟨_, history, began, rfl⟩
          exact keeps.begin (by simp) began
  | begins =>
      simp only [threadStep] at stepped
      split at stepped
      next =>
        split at stepped <;> cases stepped
        exact keeps
      next => cases stepped
  | writes =>
      simp only [threadStep] at stepped
      split at stepped
      next task _ running =>
        split at stepped
        next =>
          cases stepped
          exact keeps
        next isWrite =>
          cases stepped
          exact keeps.written running (by rw [isWrite]; rfl)
        next => cases stepped
      next task _ running =>
        split at stepped
        next isWrite =>
          cases stepped
          exact keeps.written running isWrite
        next => cases stepped
      next =>
        cases stepped
        exact keeps
      next => cases stepped
  | cancel =>
      simp only [threadStep, Option.map_eq_some_iff] at stepped
      rcases stepped with ⟨task, running, rfl⟩
      exact keeps_cancel keeps running whole
  | finishes job =>
      simp only [threadStep, Option.ite_none_right_eq_some] at stepped
      rcases stepped with ⟨isAdrift, ⟨⟩⟩
      exact keeps.finishes isAdrift

/-! ## The result -/

/--
As long as no crash and no cancellation falls between the event and the state
file of a call of `open`, a gap whose `OPEN` event is recorded without a later
genuine `CLOSED` event is among the gaps the next boot reads, or its state file
is just being written.
-/
theorem unclosed_gap_is_stale
    {startNs : Nat} {labels : List ThreadLabel} {final : ThreadedJournal}
    (whole : StepsMeet threadStep OpensWhole
      { history := { nowNs := startNs } } labels)
    (reached : runFrom threadStep { history := { nowNs := startNs } } labels =
      some final)
    (gapId : String) (unclosed : Unclosed final.history.disk gapId) :
    (∃ state ∈ staleOpenEvents final.history.disk, state.gapId = gapId) ∨
      final.Creates gapId := by
  have keeps : HistoryKeeps final.adrift final.history := by
    apply invariant_of_run
      (fun _ _ _ before condition stepped =>
        ThreadedJournal.keeps_step before condition stepped)
      (historyKeeps_start startNs) whole reached
  apply (keeps.unclosed gapId unclosed).imp_left
  intro found
  rcases Option.isSome_iff_exists.mp found with ⟨state, found⟩
  exact ⟨state, mem_staleOpenEvents found, keeps.named gapId state found⟩

/-! ## Runs -/

/-- A thread publishes an event. -/
def publication : List ThreadLabel := [.begins, .writes, .writes, .writes]

/-- A thread writes or removes a state file. -/
def stateWrite : List ThreadLabel := [.begins, .writes]

/-- A call of `open` for a lost connection. -/
def openLost (gapId : String) : List ThreadLabel :=
  .call (.openGap gapId none { reason := .connectionLost }) ::
    (publication ++ stateWrite)

/-- The event of such a call in the first day. -/
def lostEvent (gapId : String) : GapEventV1 :=
  (openEvent gapId (midnightNs 1 + 1000) none
    { reason := .connectionLost }).get rfl

/-- The state file is read, and the old day's part of the gap is closed. -/
def closesDay : List ThreadLabel :=
  .call .work :: .call .work :: publication

/-- A call of `close` up to its event. -/
def closeLost (gapId : String) : List ThreadLabel :=
  [.call (.closeGap gapId { reason := .connectionLost }), .call .work,
    .call .work] ++ publication

/-- Midnight, and the state files are listed. -/
def rolls : List ThreadLabel :=
  [.call (.tick (midnightNs 2)), .call (.rollover 2), .call .work]

/--
Two gaps are rolled over; the call is cancelled while a thread opens the second
one again, and the thread goes on.  The first gap is closed the next day, and
the process dies between its `CLOSED` event and the removal of its state.
-/
def recoveredHistory : List ThreadLabel :=
  openLost "gap-first" ++ openLost "gap-second" ++ rolls ++ closesDay ++
    publication ++ stateWrite ++ closesDay ++ [.begins, .cancel,
      .finishes (.publish (continuedOpening (lostEvent "gap-second")))] ++
    closeLost "gap-first" ++ [.call .crash]

theorem recoveredHistory_runs :
    (runFrom threadStep { history := { nowNs := midnightNs 1 + 1000 } }
      recoveredHistory).isSome := by
  decide +kernel

/-- Where the history leads. -/
def recoveredFinal : ThreadedJournal :=
  (runFrom threadStep { history := { nowNs := midnightNs 1 + 1000 } }
    recoveredHistory).get recoveredHistory_runs

theorem runFrom_recoveredHistory :
    runFrom threadStep { history := { nowNs := midnightNs 1 + 1000 } }
      recoveredHistory = some recoveredFinal :=
  (Option.some_get recoveredHistory_runs).symm

theorem unclosed_gap_is_stale_recovered :
    ∃ state ∈ staleOpenEvents recoveredFinal.history.disk,
      state.gapId = "gap-second" := by
  have whole : StepsMeet threadStep OpensWhole
      { history := { nowNs := midnightNs 1 + 1000 } } recoveredHistory := by
    decide +kernel
  have unclosed : Unclosed recoveredFinal.history.disk "gap-second" := by
    decide +kernel
  have idle : halfOpened recoveredFinal.history.task = none ∧
      recoveredFinal.adrift = [] := by
    decide +kernel
  rcases unclosed_gap_is_stale whole runFrom_recoveredHistory "gap-second"
    unclosed with stale | half | ⟨event, isAdrift, _⟩
  · exact stale
  · cases idle.1.symm.trans half
  · rw [idle.2] at isAdrift
    cases isAdrift

/-- A crash between the event of a call of `open` and its state file. -/
def lostHistory : List ThreadLabel :=
  .call (.openGap "gap-lost" none { reason := .connectionLost }) ::
    (publication ++ [.call .crash])

/-- The gap is open in the day index, and no boot will find it. -/
theorem opening_lost :
    ∃ final ∈ runFrom threadStep
        { history := { nowNs := midnightNs 1 + 1000 } } lostHistory,
      final.history.task = none ∧ final.adrift = [] ∧
        Unclosed final.history.disk "gap-lost" ∧
          staleOpenEvents final.history.disk = [] := by
  decide +kernel

/-- A call of `open` is cancelled while a thread publishes its event. -/
def cancelledHistory : List ThreadLabel :=
  [.call (.openGap "gap-lost" none { reason := .connectionLost }), .begins,
    .cancel, .finishes (.publish (lostEvent "gap-lost"))]

/-- The thread records the event of a gap which nobody knows. -/
theorem cancelled_opening_lost :
    ∃ final ∈ runFrom threadStep
        { history := { nowNs := midnightNs 1 + 1000 } } cancelledHistory,
      final.history.task = none ∧ final.adrift = [] ∧
        Unclosed final.history.disk "gap-lost" ∧
          staleOpenEvents final.history.disk = [] := by
  decide +kernel

/-- A closed gap is rolled over before its state file is removed. -/
def overtakenHistory : List ThreadLabel :=
  openLost "gap-lost" ++ closeLost "gap-lost" ++ [.begins, .cancel] ++
    rolls ++ closesDay ++ publication ++ stateWrite ++
      [.finishes (.removeState "gap-lost")]

/-- The rollover has opened the closed gap again. -/
theorem overtaken_gap_lost :
    ∃ final ∈ runFrom threadStep
        { history := { nowNs := midnightNs 1 + 1000 } } overtakenHistory,
      final.history.task = none ∧ final.adrift = [] ∧
        Unclosed final.history.disk "gap-lost" ∧
          staleOpenEvents final.history.disk = [] := by
  decide +kernel

end ShadowDataPlane.Edge
