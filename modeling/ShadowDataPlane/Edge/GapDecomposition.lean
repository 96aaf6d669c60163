import ShadowDataPlane.Edge.GapHistory

/-!
# A closed gap denotes itself, day by day

`HistorySound` is preserved by every orderly step of a journal history: here
one lemma for each label, and one for each kind of call the `work` label
advances.  From it follows that closing succeeds, returns, and leaves in every
sealed inventory exactly the part of the gap which lies in the day
(`closed_gap_denotes`).
-/

namespace ShadowDataPlane.Edge

open ShadowDataPlane.Foundation
open ShadowDataPlane.Contracts
open ShadowDataPlane.Central
open JournalDisk

variable {symbol : String} {history after : JournalHistory}
variable {opening closing : GapEventV1} {days : Nat}

theorem OpenAt.frame
    (openAt : OpenAt history opening days)
    (same : SameGap opening.gapId history.disk after.disk)
    (sealedDays : after.disk.index.sealedDays =
      history.disk.index.sealedDays)
    (later : history.nowNs ≤ after.nowNs)
    (returned : history.returned ⊆ after.returned) :
    OpenAt after opening days where
  returned := returned openAt.returned
  state := same.openGaps.trans openAt.state
  continues := by
    apply (openAt.continues.mono later).frame same.events
    intro utcDate isSealed
    rw [DayIndex.DayIsSealed, sealedDays] at isSealed
    exact openAt.continues.seals utcDate isSealed

/-! ## Steps which leave the index alone -/

theorem HistorySound.tick
    (sound : HistorySound symbol history) {nowNs : Nat}
    (later : history.nowNs ≤ nowNs) :
    HistorySound symbol { history with nowNs := nowNs } where
  clock := fun utcDate isSealed =>
    (sound.clock utcDate isSealed).trans_le (dateOfNs_mono later)
  agrees := sound.agrees
  recorded := sound.recorded
  unique := sound.unique
  closed := sound.closed
  opened := by
    intro gapId state found
    apply (sound.opened gapId state found).imp_right
    rintro ⟨opening, days, sameGap, openAt⟩
    exact ⟨opening, days, sameGap,
      openAt.frame (SameGap.refl _ _) rfl later (List.Subset.refl _)⟩
  failed := sound.failed
  task := by
    intro task running
    have before := sound.task task running
    cases task with
    | opening event published =>
        rcases before with ⟨fresh, isOpening, state⟩
        refine ⟨fresh, isOpening, ?_⟩
        cases published with
        | true => exact Continues.mono state later
        | false => exact state
    | closing event stage =>
        exact ⟨before.1.trans later, before.2⟩
    | rollover targetDate stage =>
        cases stage with
        | listStates => exact Nat.le_trans before later
        | roll gapId rest stage =>
            rcases before with
              ⟨due, isOpen, opening, days, sameGap, openAt, rollSound⟩
            exact ⟨due.trans later, isOpen, opening, days, sameGap,
              openAt.frame (SameGap.refl _ _) rfl later
                (List.Subset.refl _), rollSound⟩

theorem OpenAt.of_task
    (openAt : OpenAt history opening days) (task : Option JournalTask) :
    OpenAt { history with task := task } opening days :=
  openAt.frame (SameGap.refl _ _) rfl (le_refl _) (List.Subset.refl _)

/-- Another call starts, or none runs any more. -/
theorem HistorySound.of_task
    (sound : HistorySound symbol history) (task : Option JournalTask)
    (notRemoving : ∀ gapId, ¬ Removing history.task gapId)
    (taskSound : ∀ running ∈ task,
      TaskSound symbol { history with task := task } running) :
    HistorySound symbol { history with task := task } where
  clock := sound.clock
  agrees := sound.agrees
  recorded := sound.recorded
  unique := sound.unique
  closed := sound.closed
  opened := by
    intro gapId state found
    rcases sound.opened gapId state found with
      removing | ⟨opening, days, sameGap, openAt⟩
    · exact (notRemoving gapId removing).elim
    · exact Or.inr ⟨opening, days, sameGap, openAt.of_task task⟩
  failed := sound.failed
  task := taskSound

theorem not_removing_of_idle
    (idle : history.task = none) (gapId : String) :
    ¬ Removing history.task gapId := by
  rintro ⟨closing, running, _⟩
  simp [idle] at running

theorem openEvent_eq_some
    {gapId : String} {nowNs : Nat} {affectedFrom : Option Nat}
    {call : GapCall} {event : GapEventV1}
    (built : openEvent gapId nowNs affectedFrom call = some event) :
    event.gapId = gapId ∧ event.state = .opened ∧
      event.observedAtRealtimeNs = nowNs ∧
      event.affectedFromRealtimeNs = affectedFrom := by
  unfold openEvent at built
  split at built
  next =>
    rw [← Option.some.inj built]
    exact ⟨rfl, rfl, rfl, rfl⟩
  next => simp at built

theorem openEvent_eventDate
    {gapId : String} {nowNs : Nat} {affectedFrom : Option Nat}
    {call : GapCall} {event : GapEventV1}
    (built : openEvent gapId nowNs affectedFrom call = some event) :
    event.eventDate = dateOfNs (affectedFrom.getD nowNs) := by
  rcases openEvent_eq_some built with ⟨_, opened, observed, affected⟩
  rw [GapEventV1.eventDate, GapEventV1.effectiveNs, opened, affected,
    observed]
  cases affectedFrom <;> rfl

theorem FreshGap.eventsOf
    {disk : JournalDisk} {gapId : String} (fresh : FreshGap disk gapId)
    (utcDate : Nat) : disk.eventsOf gapId utcDate = [] := by
  rw [JournalDisk.eventsOf, List.filter_eq_nil_iff]
  intro event member
  simp only [DayIndex.refs, List.mem_map, List.mem_filter] at member
  rcases member with ⟨entry, ⟨isEntry, _⟩, rfl⟩
  simpa using fresh entry isEntry

/-- A fresh id belongs to no call which returned. -/
theorem HistorySound.fresh
    (sound : HistorySound symbol history) {gapId : String}
    (fresh : FreshGap history.disk gapId) :
    ∀ other ∈ history.returned, other.gapId ≠ gapId := by
  have unknown : ∀ opening ∈ history.returned, opening.state = .opened →
      opening.gapId ≠ gapId := by
    intro opening returned opened same
    have member := sound.recorded opening returned opened
    rw [same, fresh.eventsOf] at member
    simp at member
  intro other returned same
  cases state : other.state with
  | opened => exact unknown other returned state same
  | closed =>
      rcases sound.closed other returned state with
        ⟨_, opening, isReturned, days, decomposed⟩
      exact unknown opening isReturned decomposed.isOpening.opened
        (decomposed.sameGap.symm.trans same)

theorem HistorySound.openGap
    (sound : HistorySound symbol history) (idle : history.task = none)
    {gapId : String} {affectedFrom : Option Nat} {call : GapCall}
    {event : GapEventV1}
    (fresh : FreshGap history.disk gapId)
    (positive : affectedFrom ≠ some 0)
    (seals : ∀ entry ∈ history.disk.index.sealedDays.entries,
      entry.1 ≤ dateOfNs (affectedFrom.getD history.nowNs))
    (built :
      openEvent gapId history.nowNs affectedFrom call = some event) :
    HistorySound symbol
      { history with task := some (.opening event false) } := by
  rcases openEvent_eq_some built with ⟨sameGap, opened, _, affected⟩
  apply sound.of_task _ (not_removing_of_idle idle)
  rintro _ ⟨⟩
  refine ⟨?_, ⟨opened, affected ▸ positive⟩, ?_, ?_⟩
  · exact sameGap ▸ sound.fresh fresh
  · exact fun utcDate => sameGap ▸ fresh.eventsOf utcDate
  · intro utcDate isSealed
    rcases Option.isSome_iff_exists.mp isSealed with ⟨inventory, found⟩
    rw [openEvent_eventDate built]
    exact seals (utcDate, inventory) ((Dict.mem_entries_iff _).mpr found)

theorem HistorySound.closeGap
    (sound : HistorySound symbol history) (idle : history.task = none)
    {gapId : String} {call : GapCall}
    (detail : call.detail ≠ continuesDetail)
    (orderly : ClosesAfter symbol (closeEvent gapId history.nowNs call)
      (history.disk.openGaps.get? gapId)) :
    HistorySound symbol
      { history with
        task := some (.closing (closeEvent gapId history.nowNs call)
          .findState) } := by
  apply sound.of_task _ (not_removing_of_idle idle)
  rintro _ ⟨⟩
  cases found : history.disk.openGaps.get? gapId with
  | none =>
      rw [found] at orderly
      exact orderly.elim
  | some state =>
      rw [found] at orderly
      rcases orderly with ⟨later, offMidnight, relevant⟩
      rcases sound.opened gapId state found with
        removing | ⟨opening, days, rfl, openAt⟩
      · exact (not_removing_of_idle idle gapId removing).elim
      · have isPiece : state = piece opening days :=
          Option.some.inj (found.symm.trans openAt.state)
        have isOpening := openAt.continues.isOpening
        rw [isPiece, effectiveNs_piece isOpening, max_lt_iff] at later
        refine ⟨le_refl _, sound.clock, opening, openAt.returned, rfl,
          isOpening.opened, days, ?_⟩
        exact {
          isClosing := rfl
          detail := detail
          later := later.1
          offMidnight := offMidnight
          relevant := by
            intro concerns
            apply relevant
            rw [isPiece]
            exact (piece_relevant_iff days).mpr concerns
          reached := le_dateOfNs_iff.mpr later.2.le
          state := openAt.state
          continues := openAt.continues }

theorem HistorySound.rollover
    (sound : HistorySound symbol history) (idle : history.task = none)
    {utcDate : Nat} (due : midnightNs utcDate ≤ history.nowNs) :
    HistorySound symbol
      { history with task := some (.rollover utcDate .listStates) } := by
  apply sound.of_task _ (not_removing_of_idle idle)
  rintro _ ⟨⟩
  exact due

theorem HistorySound.crash
    (sound : HistorySound symbol history)
    (orderly : ¬ RemovesState history.task) :
    HistorySound symbol { history with task := none } := by
  apply sound.of_task none
  · rintro gapId ⟨closing, running, _⟩
    rw [running] at orderly
    exact orderly trivial
  · simp

theorem HistorySound.sealDay
    (sound : HistorySound symbol history) (idle : history.task = none)
    {utcDate : Nat} (finished : utcDate < dateOfNs history.nowNs)
    (orderly : ∀ entry ∈ history.disk.openGaps.entries,
      utcDate ≤ rollDate entry.2) :
    HistorySound symbol
      { history with
        disk :=
          { history.disk with
            index := history.disk.index.sealDay utcDate } } where
  clock := by
    intro date isSealed
    rcases DayIndex.dayIsSealed_sealDay.mp isSealed with rfl | before
    · exact finished
    · exact sound.clock date before
  agrees := sound.agrees.sealDay utcDate
  recorded := by
    intro event returned opened
    rw [eventsOf, DayIndex.refs_sealDay]
    exact sound.recorded event returned opened
  unique := sound.unique
  closed := by
    intro closing returned closed
    rcases sound.closed closing returned closed with
      ⟨removed, opening, isReturned, days, decomposed⟩
    refine ⟨removed, opening, isReturned, days, decomposed.frame ?_⟩
    intro date
    rw [eventsOf, DayIndex.refs_sealDay, eventsOf]
  opened := by
    intro gapId state found
    rcases sound.opened gapId state found with
      removing | ⟨opening, days, rfl, openAt⟩
    · exact (not_removing_of_idle idle gapId removing).elim
    · have isPiece : state = piece opening days :=
        Option.some.inj (found.symm.trans openAt.state)
      have early := orderly (opening.gapId, state)
        ((Dict.mem_entries_iff _).mpr found)
      dsimp only at early
      rw [isPiece, rollDate_piece openAt.continues.isOpening] at early
      refine Or.inr ⟨opening, days, rfl, openAt.returned, openAt.state, ?_⟩
      apply openAt.continues.frame
      · intro date
        rw [eventsOf, DayIndex.refs_sealDay, eventsOf]
      · intro date isSealed
        rcases DayIndex.dayIsSealed_sealDay.mp isSealed with rfl | before
        · exact early
        · exact openAt.continues.seals date before
  failed := sound.failed
  task := by simp [idle]

/-! ## Steps which touch one gap -/

/-- A step which publishes into one gap or writes its state file. -/
structure Touches (gapId : String) (history after : JournalHistory) :
    Prop where
  others : ∀ other, other ≠ gapId →
    SameGap other history.disk after.disk
  sealedDays : after.disk.index.sealedDays =
    history.disk.index.sealedDays
  agrees : history.disk.index.SealsAgree → after.disk.index.SealsAgree
  nowNs : after.nowNs = history.nowNs
  failed : after.failed = history.failed
  kept : history.returned ⊆ after.returned
  new : ∀ event ∈ after.returned,
    event ∈ history.returned ∨ event.gapId = gapId

theorem Touches.dayIsSealed_iff
    {gapId : String} (touches : Touches gapId history after)
    (utcDate : Nat) :
    after.disk.index.DayIsSealed utcDate ↔
      history.disk.index.DayIsSealed utcDate := by
  rw [DayIndex.DayIsSealed, touches.sealedDays]
  rfl

theorem OpenAt.of_touches
    {gapId : String} (touches : Touches gapId history after)
    (openAt : OpenAt history opening days)
    (other : opening.gapId ≠ gapId) : OpenAt after opening days :=
  openAt.frame (touches.others _ other) touches.sealedDays
    touches.nowNs.ge touches.kept

/-- The invariant after a step which touches one gap, given that gap's part. -/
theorem HistorySound.of_touches
    (sound : HistorySound symbol history) {gapId : String}
    (touches : Touches gapId history after)
    (recorded : ∀ event ∈ after.returned, event.state = .opened →
      event.gapId = gapId →
        event ∈ after.disk.eventsOf event.gapId event.eventDate)
    (unique : ∀ left ∈ after.returned, ∀ right ∈ after.returned,
      left.state = .opened → right.state = .opened →
        left.gapId = gapId → right.gapId = gapId → left = right)
    (closed : ∀ closing ∈ after.returned, closing.state = .closed →
      closing.gapId = gapId →
        after.disk.openGaps.get? gapId = none ∧
          ∃ opening ∈ after.returned, ∃ days,
            Decomposed symbol after.disk opening closing days)
    (opened : ∀ state, after.disk.openGaps.get? gapId = some state →
      Removing after.task gapId ∨
        ∃ opening days, opening.gapId = gapId ∧ OpenAt after opening days)
    (notRemoving : ∀ other, other ≠ gapId →
      ¬ Removing history.task other)
    (task : ∀ task ∈ after.task, TaskSound symbol after task) :
    HistorySound symbol after where
  clock := by
    intro utcDate isSealed
    rw [touches.nowNs]
    exact sound.clock utcDate ((touches.dayIsSealed_iff utcDate).mp isSealed)
  agrees := touches.agrees sound.agrees
  recorded := by
    intro event returned isOpened
    by_cases here : event.gapId = gapId
    · exact recorded event returned isOpened here
    · have before := (touches.new event returned).resolve_right here
      rw [(touches.others event.gapId here).events]
      exact sound.recorded event before isOpened
  unique := by
    intro left isLeft right isRight leftOpened rightOpened same
    by_cases here : left.gapId = gapId
    · exact unique left isLeft right isRight leftOpened rightOpened here
        (same.symm.trans here)
    · have there : right.gapId ≠ gapId := same ▸ here
      exact sound.unique left ((touches.new left isLeft).resolve_right here)
        right ((touches.new right isRight).resolve_right there)
        leftOpened rightOpened same
  closed := by
    intro closing returned isClosed
    by_cases here : closing.gapId = gapId
    · rw [here]
      exact closed closing returned isClosed here
    · have before := (touches.new closing returned).resolve_right here
      rcases sound.closed closing before isClosed with
        ⟨removed, opening, isReturned, days, decomposed⟩
      have there : opening.gapId ≠ gapId := decomposed.sameGap ▸ here
      rw [(touches.others closing.gapId here).openGaps]
      exact ⟨removed, opening, touches.kept isReturned, days,
        decomposed.frame (touches.others opening.gapId there).events⟩
  opened := by
    intro other state found
    by_cases here : other = gapId
    · subst here
      exact opened state found
    · rw [(touches.others other here).openGaps] at found
      rcases sound.opened other state found with
        removing | ⟨opening, days, rfl, openAt⟩
      · exact (notRemoving other here removing).elim
      · exact Or.inr ⟨opening, days, rfl, openAt.of_touches touches here⟩
  failed := by
    rw [touches.failed]
    exact sound.failed
  task := task

/-! ## The calls -/

theorem HistorySound.failedOpening
    (sound : HistorySound symbol history) {event : GapEventV1}
    {published : Bool}
    (running : history.task = some (.opening event published)) :
    HistorySound symbol
      { history with
        task := none
        failed := history.failed ++ [.opening event published] } where
  clock := sound.clock
  agrees := sound.agrees
  recorded := sound.recorded
  unique := sound.unique
  closed := sound.closed
  opened := by
    intro gapId state found
    rcases sound.opened gapId state found with
      ⟨closing, removing, _⟩ | ⟨opening, days, sameGap, openAt⟩
    · simp [running] at removing
    · exact Or.inr ⟨opening, days, sameGap,
        openAt.frame (SameGap.refl _ _) rfl (le_refl _)
          (List.Subset.refl _)⟩
  failed := by
    intro task member
    rcases List.mem_append.mp member with old | new
    · exact sound.failed task old
    · exact ⟨event, published, List.mem_singleton.mp new⟩
  task := by simp

theorem HistorySound.publishOpening
    (sound : HistorySound symbol history) {event : GapEventV1}
    (running : history.task = some (.opening event false))
    {disk : JournalDisk} (published : Published history.disk event disk) :
    HistorySound symbol
      { history with
        disk := disk
        task := some (.opening event true) } := by
  rcases sound.task _ running with ⟨fresh, isOpening, unknown, seals⟩
  have touches : Touches event.gapId history
      { history with
        disk := disk
        task := some (.opening event true) } := {
    others := fun other different => published.sameGap different
    sealedDays := published.sealedDays
    agrees := published.agrees
    nowNs := rfl
    failed := rfl
    kept := List.Subset.refl _
    new := fun _ => Or.inl }
  apply sound.of_touches touches
  · exact fun other returned _ here => (fresh other returned here).elim
  · exact fun left returned _ _ _ _ here _ =>
      (fresh left returned here).elim
  · exact fun other returned _ here => (fresh other returned here).elim
  · intro state found
    rw [published.openGaps] at found
    rcases sound.opened event.gapId state found with
      ⟨closing, removing, _⟩ | ⟨opening, days, sameGap, openAt⟩
    · simp [running] at removing
    · exact (fresh opening openAt.returned sameGap).elim
  · rintro other _ ⟨closing, removing, _⟩
    simp [running] at removing
  · rintro _ ⟨⟩
    have elsewhere (utcDate : Nat) (other : utcDate ≠ event.eventDate) :
        disk.eventsOf event.gapId utcDate = [] := by
      rw [published.eventsOf_other (Or.inr other), unknown]
    refine ⟨fresh, isOpening, ?_⟩
    exact {
      isOpening := isOpening
      past := by simp
      current := by
        apply Or.inl
        have new := published.eventsOf_new (by rw [unknown]; simp)
        rwa [unknown] at new
      next := Or.inl (elsewhere _ (by omega))
      outside := fun utcDate outside => elsewhere utcDate (by omega)
      seals := fun utcDate isSealed => seals utcDate
        ((published.dayIsSealed_iff utcDate).mp isSealed) }

theorem HistorySound.writeOpening
    (sound : HistorySound symbol history) {event : GapEventV1}
    (running : history.task = some (.opening event true)) :
    HistorySound symbol
      { history with
        disk :=
          { history.disk with
            openGaps := history.disk.openGaps.set event.gapId event }
        task := none
        returned := history.returned ++ [event] } := by
  rcases sound.task _ running with ⟨fresh, isOpening, published⟩
  have continues : Continues history.disk history.nowNs event 0 :=
    published
  have onlyHere (other : GapEventV1)
      (returned : other ∈ history.returned ++ [event])
      (here : other.gapId = event.gapId) : other = event := by
    rcases List.mem_append.mp returned with old | new
    · exact (fresh other old here).elim
    · exact List.mem_singleton.mp new
  let written : JournalHistory :=
    { history with
      disk :=
        { history.disk with
          openGaps := history.disk.openGaps.set event.gapId event }
      task := none
      returned := history.returned ++ [event] }
  have openAt : OpenAt written event 0 := {
    returned := List.mem_append_right _ (List.mem_singleton_self _)
    state := Dict.get?_set_self _ _ _
    continues := continues.frame (fun _ => rfl)
      fun utcDate isSealed => continues.seals utcDate isSealed }
  have touches : Touches event.gapId history written := {
    others := fun other different =>
      ⟨fun _ => rfl, by rw [Dict.get?_set, if_neg different]⟩
    sealedDays := rfl
    agrees := id
    nowNs := rfl
    failed := rfl
    kept := List.subset_append_left _ _
    new := fun other returned =>
      (List.mem_append.mp returned).imp_right fun new => by
        rw [List.mem_singleton.mp new] }
  apply sound.of_touches touches
  · intro other returned _ here
    rw [onlyHere other returned here]
    exact continues.opening_mem
  · intro left isLeft right isRight _ _ leftHere rightHere
    rw [onlyHere left isLeft leftHere, onlyHere right isRight rightHere]
  · intro other returned isClosed here
    rw [onlyHere other returned here, isOpening.opened] at isClosed
    simp at isClosed
  · exact fun state found => Or.inr ⟨event, 0, rfl, openAt⟩
  · rintro other _ ⟨closing, removing, _⟩
    simp [running] at removing
  · simp

/-- A step of a roll, in whichever call it is taken. -/
theorem HistorySound.roll
    (sound : HistorySound symbol history)
    (openAt : OpenAt history opening days)
    {disk : JournalDisk} {boundNs targetDate daysAfter : Nat}
    {stage : Option RollStage} {task : Option JournalTask}
    (rolled : Rolled history.disk boundNs opening days targetDate disk stage
      daysAfter)
    (bound : boundNs ≤ history.nowNs)
    (notRemoving : ∀ gapId, ¬ Removing history.task gapId)
    (taskSound :
      OpenAt { history with disk := disk, task := task } opening
        daysAfter →
      (∀ gapId state, disk.openGaps.get? gapId = some state →
        ∃ opening days, opening.gapId = gapId ∧
          OpenAt { history with disk := disk, task := task } opening
            days) →
      ∀ running ∈ task,
        TaskSound symbol { history with disk := disk, task := task }
          running) :
    HistorySound symbol { history with disk := disk, task := task } := by
  let stepped : JournalHistory := { history with disk := disk, task := task }
  have touches : Touches opening.gapId history stepped := {
    others := rolled.others
    sealedDays := rolled.sealedDays
    agrees := rolled.agrees
    nowNs := rfl
    failed := rfl
    kept := List.Subset.refl _
    new := fun _ => Or.inl }
  have openAfter : OpenAt stepped opening daysAfter := {
    returned := openAt.returned
    state := rolled.state
    continues := rolled.continues.mono bound }
  have isOpened := openAt.continues.isOpening.opened
  apply sound.of_touches touches
  · intro event returned opened here
    have same : event = opening :=
      sound.unique event returned opening openAt.returned opened isOpened
        here
    rw [same]
    exact rolled.recorded opening openAt.continues.opening_mem
  · exact fun left isLeft right isRight leftOpened rightOpened leftHere
      rightHere => sound.unique left isLeft right isRight leftOpened
        rightOpened (leftHere.trans rightHere.symm)
  · intro closing returned closed here
    have removed := (sound.closed closing returned closed).1
    rw [here, openAt.state] at removed
    simp at removed
  · exact fun _ _ => Or.inr ⟨opening, daysAfter, rfl, openAfter⟩
  · exact fun other _ => notRemoving other
  · apply taskSound openAfter
    intro gapId state found
    by_cases here : gapId = opening.gapId
    · exact ⟨opening, daysAfter, here.symm, openAfter⟩
    · rw [(rolled.others gapId here).openGaps] at found
      rcases sound.opened gapId state found with
        removing | ⟨other, itsDays, rfl, otherAt⟩
      · exact (notRemoving gapId removing).elim
      · exact ⟨other, itsDays, rfl, otherAt.of_touches touches here⟩

section Closing

variable {disk : JournalDisk}

theorem Closable.openAt
    (closable : Closable symbol history.disk opening closing days)
    (returned : opening ∈ history.returned)
    (observed : closing.observedAtRealtimeNs ≤ history.nowNs) :
    OpenAt history opening days :=
  ⟨returned, closable.state, closable.continues.mono observed⟩

theorem not_removing_of_running
    {task : JournalTask} (running : history.task = some task)
    (other : ¬ RemovesState (some task)) (gapId : String) :
    ¬ Removing history.task gapId := by
  rintro ⟨closing, removing, _⟩
  rw [running] at removing
  rw [removing] at other
  exact other trivial

/-- Every step of `close` but its last succeeds and keeps the invariant. -/
theorem HistorySound.advanceClose
    (sound : HistorySound symbol history) {event : GapEventV1}
    {stage : CloseStage}
    (running : history.task = some (.closing event stage)) :
    ∃ disk next, closingStep history.disk event stage = .ok (disk, next) ∧
      (stage ≠ .removeState → ∃ later, next = some (.closing event later) ∧
        HistorySound symbol
          { history with
            disk := disk
            task := next }) := by
  rcases sound.task _ running with
    ⟨observed, seals, opening, returned, sameGap, isOpened, stageSound⟩
  cases stage with
  | findState =>
      rcases stageSound with ⟨days, closable⟩
      have isOpen : (history.disk.openGaps.get? event.gapId).isSome := by
        rw [sameGap, closable.state]
        rfl
      refine ⟨history.disk, _, by rw [closingStep, if_pos isOpen],
        fun _ => ⟨_, rfl, ?_⟩⟩
      apply sound.of_task _ (not_removing_of_running running id)
      rintro _ ⟨⟩
      exact ⟨observed, seals, opening, returned, sameGap, isOpened, days,
        closable, trivial⟩
  | roll stage =>
      rcases stageSound with ⟨days, closable, rollSound⟩
      have due : midnightNs (dateOfNs event.observedAtRealtimeNs) ≤
          event.observedAtRealtimeNs := le_dateOfNs_iff.mp (le_refl _)
      rcases rollStep_sound closable.continues closable.state due
          rollSound with ⟨disk, next, daysAfter, stepped, rolled⟩
      have closableAfter : Closable symbol disk opening event daysAfter :=
        { closable with
          reached := rolled.bounded closable.reached
          state := rolled.state
          continues := rolled.continues }
      have sealsAfter : ∀ utcDate, disk.index.DayIsSealed utcDate →
          utcDate < dateOfNs event.observedAtRealtimeNs := by
        intro utcDate isSealed
        rw [DayIndex.DayIsSealed, rolled.sealedDays] at isSealed
        exact seals utcDate isSealed
      have notRemoving : ∀ gapId, ¬ Removing history.task gapId :=
        not_removing_of_running running id
      have openAt := closable.openAt returned observed
      rw [← sameGap] at stepped
      cases next with
      | some stage =>
          refine ⟨disk, _, by rw [closingStep, stepped],
            fun _ => ⟨_, rfl, ?_⟩⟩
          apply sound.roll openAt rolled observed notRemoving
          rintro _ _ _ ⟨⟩
          exact ⟨observed, sealsAfter, opening, returned, sameGap, isOpened,
            daysAfter, closableAfter, rolled.stageSound stage rfl⟩
      | none =>
          refine ⟨disk, _, by rw [closingStep, stepped],
            fun _ => ⟨_, rfl, ?_⟩⟩
          apply sound.roll openAt rolled observed notRemoving
          rintro _ _ _ ⟨⟩
          exact ⟨observed, sealsAfter, opening, returned, sameGap, isOpened,
            daysAfter, closableAfter, rolled.finished rfl⟩
  | publish =>
      rcases stageSound with ⟨days, closable, finished⟩
      have isOpening := closable.continues.isOpening
      have date : event.eventDate = opening.eventDate + days := by
        rw [GapEventV1.eventDate,
          GapEventV1.effectiveNs_of_closed closable.isClosing]
        exact le_antisymm finished closable.reached
      have closeDate : dateOfNs event.observedAtRealtimeNs =
          opening.eventDate + days :=
        le_antisymm finished closable.reached
      have unsealed : ¬ history.disk.index.DayIsSealed event.eventDate := by
        intro isSealed
        have early := seals _ isSealed
        rw [date, closeDate] at early
        exact early.false
      -- The day of the closing is not over when the call reads the clock.
      have notOver : ¬ midnightNs (opening.eventDate + days + 1) ≤
          event.observedAtRealtimeNs := by
        have inside := (dateOfNs_eq_iff.mp closeDate).2
        omega
      rcases publish_of_unsealed unsealed with ⟨disk, completed, published⟩
      refine ⟨disk, _, by rw [closingStep, completed],
        fun _ => ⟨.removeState, rfl, ?_⟩⟩
      have elsewhere (utcDate : Nat)
          (other : utcDate ≠ opening.eventDate + days) :
          disk.eventsOf opening.gapId utcDate =
            history.disk.eventsOf opening.gapId utcDate :=
        published.eventsOf_other (Or.inr (date ▸ other))
      have before : history.disk.eventsOf opening.gapId
          (opening.eventDate + days) = [piece opening days] :=
        closable.continues.current.resolve_right fun isOver => notOver isOver.2
      have last : disk.eventsOf opening.gapId (opening.eventDate + days) =
          [piece opening days, event] := by
        have new := published.eventsOf_new
        rw [sameGap, date, before] at new
        apply new
        intro isPiece
        have opened := (piece_opening isOpening days).opened
        rw [← List.mem_singleton.mp isPiece, closable.isClosing] at opened
        simp at opened
      have decomposed : Decomposed symbol disk opening event days := {
        isOpening := isOpening
        isClosing := closable.isClosing
        detail := closable.detail
        sameGap := sameGap
        relevant := closable.relevant
        date := closeDate.symm
        later := by
          rw [effectiveNs_piece isOpening, max_lt_iff, ← closeDate]
          have begun : midnightNs (dateOfNs event.observedAtRealtimeNs) ≤
              event.observedAtRealtimeNs := le_dateOfNs_iff.mp (le_refl _)
          exact ⟨closable.later,
            begun.lt_of_ne closable.offMidnight.symm⟩
        past := by
          intro earlier isEarlier
          rw [PastDay, elsewhere _ (by omega)]
          exact closable.continues.past earlier isEarlier
        last := last
        outside := by
          intro utcDate outside
          rw [elsewhere _ (by omega)]
          by_cases isNext : utcDate = opening.eventDate + days + 1
          · rw [isNext]
            exact closable.continues.next.resolve_right
              fun isOver => notOver isOver.2
          · exact closable.continues.outside utcDate (by omega) }
      let stepped : JournalHistory :=
        { history with
          disk := disk
          task := some (.closing event .removeState) }
      have touches : Touches opening.gapId history stepped := {
        others := fun other different =>
          published.sameGap (sameGap ▸ different)
        sealedDays := published.sealedDays
        agrees := published.agrees
        nowNs := rfl
        failed := rfl
        kept := List.Subset.refl _
        new := fun _ => Or.inl }
      apply sound.of_touches touches
      · intro other isReturned opened here
        have same : other = opening := sound.unique other isReturned opening
          returned opened isOpened here
        rw [same]
        show opening ∈ disk.eventsOf opening.gapId opening.eventDate
        rw [published.events]
        have known := closable.continues.opening_mem
        split
        · exact List.mem_append_left _ known
        · exact known
      · exact fun left isLeft right isRight leftOpened rightOpened leftHere
          rightHere => sound.unique left isLeft right isRight leftOpened
            rightOpened (leftHere.trans rightHere.symm)
      · intro other isReturned closed here
        have removed := (sound.closed other isReturned closed).1
        rw [here, closable.state] at removed
        simp at removed
      · exact fun _ _ => Or.inl ⟨event, rfl, sameGap⟩
      · exact fun other _ => not_removing_of_running running id other
      · rintro _ ⟨⟩
        refine ⟨observed, ?_, opening, returned, sameGap, isOpened, days,
          decomposed⟩
        intro utcDate isSealed
        exact seals utcDate ((published.dayIsSealed_iff utcDate).mp isSealed)
  | removeState =>
      exact ⟨_, none, rfl, fun different => (different rfl).elim⟩

/-- `close` returns, and its gap is decomposed. -/
theorem HistorySound.removeState
    (sound : HistorySound symbol history) {event : GapEventV1}
    (running : history.task = some (.closing event .removeState)) :
    HistorySound symbol
      { history with
        disk :=
          { history.disk with
            openGaps := history.disk.openGaps.erase event.gapId }
        task := none
        returned := history.returned ++ [event] } := by
  rcases sound.task _ running with
    ⟨_, _, opening, returned, sameGap, isOpened, days, decomposed⟩
  let removed : JournalHistory :=
    { history with
      disk :=
        { history.disk with
          openGaps := history.disk.openGaps.erase event.gapId }
      task := none
      returned := history.returned ++ [event] }
  have absent : removed.disk.openGaps.get? event.gapId = none := by
    rw [Dict.get?_erase, if_pos rfl]
  have touches : Touches event.gapId history removed := {
    others := fun other different =>
      ⟨fun _ => rfl, by rw [Dict.get?_erase, if_neg different]⟩
    sealedDays := rfl
    agrees := id
    nowNs := rfl
    failed := rfl
    kept := List.subset_append_left _ _
    new := fun other isReturned =>
      (List.mem_append.mp isReturned).imp_right fun new => by
        rw [List.mem_singleton.mp new] }
  have earlier (other : GapEventV1)
      (isReturned : other ∈ history.returned ++ [event])
      (opened : other.state = .opened) : other ∈ history.returned := by
    rcases List.mem_append.mp isReturned with old | new
    · exact old
    · rw [List.mem_singleton.mp new, decomposed.isClosing] at opened
      simp at opened
  apply sound.of_touches touches
  · exact fun other isReturned opened _ => sound.recorded other
      (earlier other isReturned opened) opened
  · exact fun left isLeft right isRight leftOpened rightOpened leftHere
      rightHere => sound.unique left (earlier left isLeft leftOpened) right
        (earlier right isRight rightOpened) leftOpened rightOpened
        (leftHere.trans rightHere.symm)
  · intro other isReturned closed here
    refine ⟨absent, ?_⟩
    rcases List.mem_append.mp isReturned with old | new
    · rcases (sound.closed other old closed).2 with
        ⟨itsOpening, isItsOpening, itsDays, itsParts⟩
      exact ⟨itsOpening, List.mem_append_left _ isItsOpening, itsDays,
        itsParts.frame fun _ => rfl⟩
    · rw [List.mem_singleton.mp new]
      exact ⟨opening, List.mem_append_left _ returned, days,
        decomposed.frame fun _ => rfl⟩
  · intro state found
    rw [absent] at found
    simp at found
  · rintro other different ⟨closing, removing, isClosing⟩
    rw [running] at removing
    cases removing
    exact different isClosing.symm
  · simp

end Closing

section Rollover

variable {disk : JournalDisk} {targetDate : Nat}

theorem mem_openStates_iff {gapId : String} :
    gapId ∈ openStates disk ↔ (disk.openGaps.get? gapId).isSome := by
  rw [openStates, (List.perm_insertionSort _ _).mem_iff, List.mem_map]
  constructor
  · rintro ⟨entry, member, rfl⟩
    rw [(Dict.mem_entries_iff _).mp member]
    rfl
  · intro isOpen
    rcases Option.isSome_iff_exists.mp isOpen with ⟨state, found⟩
    exact ⟨(gapId, state), (Dict.mem_entries_iff _).mpr found, rfl⟩

/-- The next file of a rollover is there to be read. -/
theorem nextState_sound
    (due : midnightNs targetDate ≤ history.nowNs)
    (opened : ∀ gapId state,
      history.disk.openGaps.get? gapId = some state →
        ∃ opening days, opening.gapId = gapId ∧
          OpenAt history opening days)
    {names : List String}
    (isOpen : ∀ gapId ∈ names,
      (history.disk.openGaps.get? gapId).isSome) :
    ∀ running ∈ nextState targetDate names,
      TaskSound symbol history running := by
  cases names with
  | nil => simp [nextState]
  | cons gapId later =>
      rintro _ ⟨⟩
      rcases Option.isSome_iff_exists.mp (isOpen gapId List.mem_cons_self)
        with ⟨state, found⟩
      rcases opened gapId state found with ⟨opening, days, same, openAt⟩
      exact ⟨due, fun other member =>
          isOpen other (List.mem_cons_of_mem _ member),
        opening, days, same, openAt, trivial⟩

/-- Every step of a rollover succeeds and keeps the invariant. -/
theorem HistorySound.advanceRollover
    (sound : HistorySound symbol history) {stage : RolloverStage}
    (running : history.task = some (.rollover targetDate stage)) :
    ∃ disk next, rolloverStep history.disk targetDate stage =
        .ok (disk, next) ∧
      HistorySound symbol
        { history with
          disk := disk
          task := next } := by
  have notRemoving : ∀ gapId, ¬ Removing history.task gapId :=
    not_removing_of_running running id
  cases stage with
  | listStates =>
      refine ⟨history.disk, _, rfl, ?_⟩
      apply sound.of_task _ notRemoving
      apply nextState_sound
      · exact sound.task _ running
      · intro gapId state found
        rcases sound.opened gapId state found with
          removing | ⟨opening, days, same, openAt⟩
        · exact (notRemoving gapId removing).elim
        · exact ⟨opening, days, same, openAt.of_task _⟩
      · exact fun gapId member => mem_openStates_iff.mp member
  | roll gapId later stage =>
      rcases sound.task _ running with
        ⟨due, isOpen, opening, days, rfl, openAt, rollSound⟩
      rcases rollStep_sound openAt.continues openAt.state due rollSound with
        ⟨disk, next, daysAfter, stepped, rolled⟩
      have isOpenAfter : ∀ other ∈ later,
          (disk.openGaps.get? other).isSome := by
        intro other member
        by_cases here : other = opening.gapId
        · rw [here, rolled.state]
          rfl
        · rw [(rolled.others other here).openGaps]
          exact isOpen other member
      cases next with
      | some stage =>
          refine ⟨disk, _, by rw [rolloverStep, stepped], ?_⟩
          apply sound.roll openAt rolled (le_refl _) notRemoving
          rintro openAfter _ _ ⟨⟩
          exact ⟨due, isOpenAfter, opening, daysAfter, rfl, openAfter,
            rolled.stageSound stage rfl⟩
      | none =>
          refine ⟨disk, _, by rw [rolloverStep, stepped], ?_⟩
          apply sound.roll openAt rolled (le_refl _) notRemoving
          intro _ opened
          apply nextState_sound
          · exact due
          · exact opened
          · exact isOpenAfter

end Rollover

/-! ## Every orderly step -/

theorem HistorySound.work
    (sound : HistorySound symbol history) {task : JournalTask}
    (running : history.task = some task) :
    HistorySound symbol (journalWork history task) := by
  unfold journalWork
  cases task with
  | opening event published =>
      cases published with
      | true => exact sound.writeOpening running
      | false =>
          simp only [taskStep]
          cases completed : history.disk.publish event with
          | error problem => exact sound.failedOpening running
          | ok disk =>
              exact sound.publishOpening running (publish_ok completed)
  | closing event stage =>
      simp only [taskStep]
      rcases sound.advanceClose running with
        ⟨disk, next, completed, continues⟩
      by_cases last : stage = .removeState
      · subst last
        exact sound.removeState running
      · rcases continues last with ⟨later, rfl, soundAfter⟩
        rw [completed]
        exact soundAfter
  | rollover targetDate stage =>
      simp only [taskStep]
      rcases sound.advanceRollover running with
        ⟨disk, next, completed, soundAfter⟩
      rw [completed]
      cases next with
      | some task => exact soundAfter
      | none =>
          simpa [JournalTask.event?] using soundAfter

theorem HistorySound.step
    (sound : HistorySound symbol history) {label : JournalLabel}
    (orderly : Orderly symbol history label)
    (stepped : journalStep history label = some after) :
    HistorySound symbol after := by
  cases label with
  | tick nowNs =>
      simp only [journalStep, Option.ite_none_right_eq_some,
        Option.some.injEq] at stepped
      rw [← stepped.2]
      exact sound.tick stepped.1
  | openGap gapId affectedFrom call =>
      simp only [journalStep, Option.ite_none_right_eq_some,
        Option.map_eq_some_iff] at stepped
      rcases stepped with ⟨⟨idle, fresh, positive⟩, event, built, rfl⟩
      exact sound.openGap idle fresh positive orderly built
  | closeGap gapId call =>
      simp only [journalStep, Option.ite_none_right_eq_some,
        Option.some.injEq] at stepped
      rw [← stepped.2]
      exact sound.closeGap stepped.1.1 stepped.1.2 orderly
  | rollover utcDate =>
      simp only [journalStep, Option.ite_none_right_eq_some,
        Option.some.injEq] at stepped
      rw [← stepped.2]
      exact sound.rollover stepped.1.1 stepped.1.2
  | work =>
      simp only [journalStep, Option.map_eq_some_iff] at stepped
      rcases stepped with ⟨task, running, rfl⟩
      exact sound.work running
  | crash =>
      simp only [journalStep, Option.some.injEq] at stepped
      rw [← stepped]
      exact sound.crash orderly
  | sealDay utcDate =>
      simp only [journalStep, Option.ite_none_right_eq_some,
        Option.some.injEq] at stepped
      rw [← stepped.2]
      exact sound.sealDay stepped.1.1 stepped.1.2 orderly

theorem historySound_start (symbol : String) (nowNs : Nat) :
    HistorySound symbol { nowNs := nowNs } where
  clock := by simp [DayIndex.DayIsSealed]
  agrees := by
    intro utcDate inventory found
    simp at found
  recorded := by simp
  unique := by simp
  closed := by simp
  opened := by simp
  failed := by simp
  task := by simp

end ShadowDataPlane.Edge
