import ShadowDataPlane.Edge.GapDecomposition

/-!
# What the sealed inventories say of a closed gap

In an orderly history closing a gap never fails and always returns, and the
quality check reads from the sealed inventory of every day exactly the part of
the gap which lies in the day (`closed_gap_denotes`).

The histories at the end are ones of the service which are not orderly: a
storage gap is closed after the days it continues through were sealed, and a
gap is closed at a midnight.
-/

namespace ShadowDataPlane.Edge

open ShadowDataPlane.Foundation
open ShadowDataPlane.Contracts
open ShadowDataPlane.Central
open JournalDisk

variable {symbol : String} {opening closing : GapEventV1} {days : Nat}

/-! ## The denotation -/

/-- The instants which a day's events of a gap call invalid. -/
def denotedInstants (symbol : String) (utcDate : Nat)
    (events : List GapEventV1) : Set Nat :=
  instants (explicitInvalidIntervals symbol (midnightNs utcDate)
    (midnightNs (utcDate + 1)) events)

/-- The instants of a UTC day. -/
def dayInstants (utcDate : Nat) : Set Nat :=
  Set.Ico (midnightNs utcDate) (midnightNs (utcDate + 1))

theorem denotedInstants_nil (utcDate : Nat) :
    denotedInstants symbol utcDate [] = ∅ := by
  simp [denotedInstants, explicitInvalidIntervals, explicitSpans,
    explicitEvents, Dict.values, Dict.empty]

theorem denotedInstants_of_spans
    {utcDate : Nat} {events : List GapEventV1} {span : Span}
    (spans : explicitSpans symbol (midnightNs (utcDate + 1)) events =
      [span]) :
    denotedInstants symbol utcDate events =
      Set.Ico span.1 span.2 ∩ dayInstants utcDate := by
  rw [denotedInstants, explicitInvalidIntervals, spans, instants_clipSpan,
    dayInstants]

/-- The day's share of two spans which differ outside the day only. -/
theorem Ico_inter_dayInstants
    {utcDate startNs laterNs endNs earlierNs : Nat}
    (starts : max startNs (midnightNs utcDate) =
      max laterNs (midnightNs utcDate))
    (ends : min endNs (midnightNs (utcDate + 1)) =
      min earlierNs (midnightNs (utcDate + 1))) :
    Set.Ico startNs endNs ∩ dayInstants utcDate =
      Set.Ico laterNs earlierNs ∩ dayInstants utcDate := by
  rw [dayInstants, Set.Ico_inter_Ico, Set.Ico_inter_Ico]
  show Set.Ico (max startNs (midnightNs utcDate))
      (min endNs (midnightNs (utcDate + 1))) = _
  rw [starts, ends]

/-- A finished day is invalid from the piece's start to the day's end. -/
theorem PastDay.denotes
    {disk : JournalDisk} (isOpening : Opening opening)
    (relevant : opening.Relevant symbol .depth)
    (past : PastDay disk opening days) :
    denotedInstants symbol (opening.eventDate + days)
        (disk.eventsOf opening.gapId (opening.eventDate + days)) =
      Set.Ico (piece opening days).effectiveNs
          (midnightNs (opening.eventDate + days + 1)) ∩
        dayInstants (opening.eventDate + days) := by
  have isPiece := piece_opening isOpening days
  have concerns : (piece opening days).Relevant symbol .depth :=
    (piece_relevant_iff days).mpr relevant
  rcases past with events | events
  · rw [events, denotedInstants_of_spans (denotes_opened isPiece concerns)]
  · have date := rollDate_piece isOpening days
    have isClosed : (continuedClosing (piece opening days)).state =
        .closed := rfl
    have sameGap : (continuedClosing (piece opening days)).gapId =
        (piece opening days).gapId := rfl
    have closes : (continuedClosing (piece opening days)).Relevant symbol
        .depth := concerns
    rw [events]
    rcases lt_or_ge (piece opening days).effectiveNs
        (continuedClosing (piece opening days)).observedAtRealtimeNs with
      later | early
    · rw [denotedInstants_of_spans (denotes_closed isPiece isClosed sameGap
        concerns closes later), explicitEndNs_continuedClosing, date]
    · rw [denotedInstants_of_spans (denotes_closed_early isPiece isClosed
        sameGap concerns closes early)]

/-- Every day's events of a closed gap denote the day's part of the gap. -/
theorem Decomposed.denotes
    {disk : JournalDisk}
    (decomposed : Decomposed symbol disk opening closing days)
    (relevant : opening.Relevant symbol .depth) (utcDate : Nat) :
    denotedInstants symbol utcDate
        (disk.eventsOf opening.gapId utcDate) =
      Set.Ico opening.effectiveNs closing.observedAtRealtimeNs ∩
        dayInstants utcDate := by
  have isOpening := decomposed.isOpening
  have started : midnightNs opening.eventDate ≤ opening.effectiveNs :=
    le_dateOfNs_iff.mp (le_refl _)
  have ended := dateOfNs_eq_iff.mp decomposed.date.symm
  by_cases outside : utcDate < opening.eventDate ∨
      opening.eventDate + days < utcDate
  · rw [decomposed.outside utcDate outside, denotedInstants_nil,
      dayInstants, Set.Ico_inter_Ico]
    apply (Set.Ico_eq_empty _).symm
    rcases outside with before | after
    · have apart := midnightNs_le_midnightNs_iff.mpr
        (Nat.succ_le_of_lt before)
      simp only [Nat.succ_eq_add_one] at apart
      simp only [max_lt_iff, lt_min_iff]
      omega
    · have apart := midnightNs_le_midnightNs_iff.mpr
        (Nat.succ_le_of_lt after)
      simp only [Nat.succ_eq_add_one] at apart
      simp only [max_lt_iff, lt_min_iff]
      omega
  · rcases not_or.mp outside with ⟨fromStart, toEnd⟩
    rcases Nat.exists_eq_add_of_le (not_lt.mp fromStart) with
      ⟨elapsed, rfl⟩
    have withinDays : elapsed ≤ days := by omega
    have start := effectiveNs_piece isOpening elapsed
    rcases withinDays.lt_or_eq with earlier | rfl
    · rw [(decomposed.past elapsed earlier).denotes isOpening relevant,
        start]
      apply Ico_inter_dayInstants
      · rw [max_assoc, max_self]
      · have apart : midnightNs (opening.eventDate + elapsed + 1) ≤
            midnightNs (opening.eventDate + days) := by
          rw [midnightNs_le_midnightNs_iff]
          omega
        rw [min_self, min_eq_right (apart.trans ended.1)]
    · have spans : explicitSpans symbol
          (midnightNs (opening.eventDate + elapsed + 1))
          [piece opening elapsed, closing] =
            [((piece opening elapsed).effectiveNs, explicitEndNs closing)] :=
        denotes_closed (piece_opening isOpening elapsed)
          decomposed.isClosing
          (decomposed.sameGap.trans (piece_gapId opening elapsed).symm)
          ((piece_relevant_iff elapsed).mpr relevant)
          (decomposed.relevant relevant) decomposed.later
      have ends : explicitEndNs closing = closing.observedAtRealtimeNs := by
        simp [explicitEndNs, decomposed.detail, explicitEffectiveNs,
          decomposed.isClosing]
      rw [decomposed.last, denotedInstants_of_spans spans, ends, start]
      apply Ico_inter_dayInstants
      · rw [max_assoc, max_self]
      · rfl

/-! ## Closing returns -/

/-- A bound on the steps left of a roll. -/
def rollRank (disk : JournalDisk) (gapId : String) (targetDate : Nat) :
    RollStage → Nat
  | .readState =>
      match disk.openGaps.get? gapId with
      | none => 0
      | some opened => 4 * (targetDate - rollDate opened) + 1
  | .checkSealed opened => 4 * (targetDate - rollDate opened)
  | .closePrevious opened => 4 * (targetDate - rollDate opened) - 1
  | .openNext opened => 4 * (targetDate - rollDate opened) - 2
  | .writeState opened => 4 * (targetDate - rollDate opened) + 1

theorem rollRank_nextDate
    {disk : JournalDisk} {gapId : String} {targetDate : Nat}
    {opened : GapEventV1} {next : RollStage}
    (isNext : nextDate opened targetDate = some next) :
    rollRank disk gapId targetDate next =
      4 * (targetDate - rollDate opened) := by
  unfold nextDate at isNext
  split at isNext
  next =>
    rw [← Option.some.inj isNext]
    rfl
  next => simp at isNext

theorem rollStep_rank
    {disk after : JournalDisk} {targetDate : Nat} {stage next : RollStage}
    (isOpening : Opening opening)
    (state : disk.openGaps.get? opening.gapId = some (piece opening days))
    (sound : RollSound disk opening days targetDate stage)
    (stepped : rollStep disk opening.gapId targetDate stage =
      .ok (after, some next)) :
    rollRank after opening.gapId targetDate next <
      rollRank disk opening.gapId targetDate stage := by
  have date := rollDate_piece isOpening days
  cases stage with
  | readState =>
      simp only [rollStep, state, Except.ok.injEq, Prod.mk.injEq] at stepped
      rw [rollRank_nextDate stepped.2, rollRank, state]
      exact Nat.lt_succ_self _
  | checkSealed opened =>
      rcases sound with ⟨rfl, more⟩
      simp only [rollStep] at stepped
      split at stepped
      · simp only [Except.ok.injEq, Prod.mk.injEq, Option.some.injEq] at stepped
        rw [← stepped.2, rollRank, rollRank, date]
        omega
      · simp only [Except.ok.injEq, Prod.mk.injEq, Option.some.injEq] at stepped
        rw [← stepped.2, rollRank, rollRank, date]
        omega
  | closePrevious opened =>
      rcases sound with ⟨rfl, more, _⟩
      simp only [rollStep] at stepped
      split at stepped
      · simp at stepped
      · simp only [Except.ok.injEq, Prod.mk.injEq, Option.some.injEq] at stepped
        rw [← stepped.2, rollRank, rollRank, date]
        omega
  | openNext opened =>
      rcases sound with ⟨rfl, more⟩
      simp only [rollStep] at stepped
      split at stepped
      · simp at stepped
      · simp only [Except.ok.injEq, Prod.mk.injEq, Option.some.injEq] at stepped
        rw [← stepped.2, rollRank, rollRank, rollDate_continuedOpening, date]
        omega
  | writeState opened =>
      simp only [rollStep, Except.ok.injEq, Prod.mk.injEq] at stepped
      rw [rollRank_nextDate stepped.2, rollRank]
      exact Nat.lt_succ_self _

/-- A bound on the steps left of a call of `close`. -/
def closeRank (disk : JournalDisk) (event : GapEventV1) :
    CloseStage → Nat
  | .findState =>
      rollRank disk event.gapId (dateOfNs event.observedAtRealtimeNs)
        .readState + 3
  | .roll stage =>
      rollRank disk event.gapId (dateOfNs event.observedAtRealtimeNs)
        stage + 2
  | .publish => 1
  | .removeState => 0

theorem closingStep_rank
    {disk after : JournalDisk} {event : GapEventV1}
    {stage later : CloseStage}
    (sameGap : event.gapId = opening.gapId)
    (sound : CloseSound symbol disk opening event stage)
    (stepped : closingStep disk event stage =
      .ok (after, some (.closing event later))) :
    closeRank after event later < closeRank disk event stage := by
  cases stage with
  | findState =>
      simp only [closingStep] at stepped
      split at stepped
      · simp only [Except.ok.injEq, Prod.mk.injEq, Option.some.injEq,
          JournalTask.closing.injEq, true_and] at stepped
        rw [← stepped.1, ← stepped.2, closeRank, closeRank]
        omega
      · simp only [Except.ok.injEq, Prod.mk.injEq, Option.some.injEq,
          JournalTask.closing.injEq, true_and] at stepped
        rw [← stepped.2, closeRank, closeRank]
        omega
  | roll stage =>
      rcases sound with ⟨days, closable, rollSound⟩
      simp only [closingStep] at stepped
      split at stepped
      next => simp at stepped
      next disk' next rolled =>
        simp only [Except.ok.injEq, Prod.mk.injEq, Option.some.injEq,
          JournalTask.closing.injEq, true_and] at stepped
        rw [sameGap] at rolled
        have lower := rollStep_rank closable.continues.isOpening
          closable.state rollSound rolled
        rw [← stepped.1, ← stepped.2, closeRank, closeRank, sameGap]
        omega
      next disk' rolled =>
        simp only [Except.ok.injEq, Prod.mk.injEq, Option.some.injEq,
          JournalTask.closing.injEq, true_and] at stepped
        rw [← stepped.2, closeRank, closeRank]
        omega
  | publish =>
      simp only [closingStep] at stepped
      split at stepped
      next => simp at stepped
      next =>
        simp only [Except.ok.injEq, Prod.mk.injEq, Option.some.injEq,
          JournalTask.closing.injEq, true_and] at stepped
        rw [← stepped.2, closeRank, closeRank]
        exact Nat.zero_lt_one
  | removeState => simp [closingStep] at stepped

/-- A call of `close` returns after finitely many steps. -/
theorem HistorySound.close_returns
    {history : JournalHistory} (sound : HistorySound symbol history)
    {event : GapEventV1} {stage : CloseStage}
    (running : history.task = some (.closing event stage)) :
    ∃ works final, runFrom journalStep history
        (List.replicate works .work) = some final ∧
      final.task = none ∧ event ∈ final.returned := by
  induction rank : closeRank history.disk event stage
    using Nat.strong_induction_on generalizing history stage with
  | h bound induction =>
      have stepped : journalStep history .work =
          some (journalWork history (.closing event stage)) := by
        rw [journalStep, running]
        rfl
      rcases sound.advanceClose running with
        ⟨disk, next, completed, continues⟩
      by_cases last : stage = .removeState
      · subst last
        refine ⟨1, _, by rw [List.replicate_one, runFrom, stepped]; rfl, rfl,
          ?_⟩
        exact List.mem_append_right _ (List.mem_singleton_self event)
      · rcases continues last with ⟨later, rfl, soundAfter⟩
        rcases sound.task _ running with
          ⟨_, _, opening, _, sameGap, _, stageSound⟩
        have lower := closingStep_rank sameGap stageSound completed
        have isNext : journalWork history (.closing event stage) =
            { history with
              disk := disk
              task := some (.closing event later) } := by
          simp only [journalWork, taskStep, completed]
        rcases induction _ (rank ▸ lower) soundAfter rfl rfl with
          ⟨works, final, reached, idle, returned⟩
        refine ⟨works + 1, final, ?_, idle, returned⟩
        rw [List.replicate_succ, runFrom, stepped, isNext]
        exact reached

/-! ## The result -/

/--
In an orderly history no call but `open` ever fails, every call of `close`
returns, and the sealed inventory of every day denotes exactly the day's part
of every gap which was closed.
-/
theorem closed_gap_denotes
    {startNs : Nat} {labels : List JournalLabel} {final : JournalHistory}
    (orderly : StepsMeet journalStep (Orderly symbol)
      { nowNs := startNs } labels)
    (reached :
      runFrom journalStep { nowNs := startNs } labels = some final) :
    (∀ task ∈ final.failed, ∃ event published,
      task = .opening event published) ∧
      (∀ event stage, final.task = some (.closing event stage) →
        ∃ works last, runFrom journalStep final
            (List.replicate works .work) = some last ∧
          last.task = none ∧ event ∈ last.returned) ∧
      ∀ opening ∈ final.returned, opening.state = .opened →
        opening.Relevant symbol .depth →
        ∀ closing ∈ final.returned, closing.state = .closed →
          closing.gapId = opening.gapId →
          ∀ utcDate inventory,
            final.disk.index.sealedDays.get? utcDate = some inventory →
            denotedInstants symbol utcDate
                (inventory.filter fun event =>
                  event.gapId = opening.gapId) =
              Set.Ico opening.effectiveNs closing.observedAtRealtimeNs ∩
                dayInstants utcDate := by
  have sound : HistorySound symbol final :=
    invariant_of_run
      (fun _ _ _ before condition stepped => before.step condition stepped)
      (historySound_start symbol startNs) orderly reached
  refine ⟨sound.failed, fun event stage => sound.close_returns, ?_⟩
  intro opening isOpening opened relevant closing isClosing closed sameGap
    utcDate inventory isSealed
  rcases (sound.closed closing isClosing closed).2 with
    ⟨itsOpening, isIts, days, decomposed⟩
  have same : itsOpening = opening :=
    sound.unique itsOpening isIts opening isOpening
      decomposed.isOpening.opened opened
      (decomposed.sameGap.symm.trans sameGap)
  subst same
  rw [sound.agrees utcDate inventory isSealed]
  exact decomposed.denotes relevant utcDate

/-! ## Histories -/

def works (count : Nat) : List JournalLabel := List.replicate count .work

def storageCall (symbols : List String) : GapCall where
  reason := .storageExhausted
  exchangeSymbols := symbols

/-- A gap which is rolled over once and closed two days later. -/
def rolledHistory : List JournalLabel :=
  [.openGap "gap-0001" (some (midnightNs 1 + 500)) (storageCall ["BTCUSDT"])] ++
    works 2 ++ [.tick (midnightNs 2), .rollover 2] ++ works 6 ++
    [.sealDay 1, .tick (midnightNs 4 + 700),
      .closeGap "gap-0001" (storageCall ["BTCUSDT"])] ++ works 12 ++
    [.tick (midnightNs 5), .sealDay 2, .sealDay 3, .sealDay 4]

theorem rolledHistory_runs :
    (runFrom journalStep { nowNs := midnightNs 1 + 1000 }
      rolledHistory).isSome := by
  decide +kernel

/-- Where the history leads. -/
def rolledFinal : JournalHistory :=
  (runFrom journalStep { nowNs := midnightNs 1 + 1000 } rolledHistory).get
    rolledHistory_runs

/-- The inventory of a day on which nothing happened but the rollover. -/
theorem closed_gap_denotes_rolled :
    ∃ inventory, rolledFinal.disk.index.sealedDays.get? 3 = some inventory ∧
      denotedInstants "BTCUSDT" 3
          (inventory.filter fun event => event.gapId = "gap-0001") =
        Set.Ico (midnightNs 1 + 500) (midnightNs 4 + 700) ∩
          dayInstants 3 := by
  have orderly : StepsMeet journalStep (Orderly "BTCUSDT")
      { nowNs := midnightNs 1 + 1000 } rolledHistory := by
    decide +kernel
  have opens : ∃ event ∈ rolledFinal.returned, event.state = .opened ∧
      event.gapId = "gap-0001" ∧ event.effectiveNs = midnightNs 1 + 500 ∧
        event.Relevant "BTCUSDT" .depth := by
    decide +kernel
  have closes : ∃ event ∈ rolledFinal.returned, event.state = .closed ∧
      event.gapId = "gap-0001" ∧
        event.observedAtRealtimeNs = midnightNs 4 + 700 := by
    decide +kernel
  have isSealed : (rolledFinal.disk.index.sealedDays.get? 3).isSome := by
    decide +kernel
  rcases opens with ⟨opening, isOpening, opened, openGap, start, relevant⟩
  rcases closes with ⟨closing, isClosing, closed, closeGap, stop⟩
  rcases Option.isSome_iff_exists.mp isSealed with ⟨inventory, found⟩
  have denotes :=
    (closed_gap_denotes orderly (Option.some_get rolledHistory_runs).symm).2.2
      opening isOpening opened relevant closing isClosing closed
      (closeGap.trans openGap.symm) 3 inventory found
  rw [openGap, start, stop] at denotes
  exact ⟨inventory, found, denotes⟩

/--
A storage gap outlives a boot two days later.  The boot closes its own gap,
which leaves events on the day between, and seals both finished days before
the storage gap is closed.
-/
def storageHistory : List JournalLabel :=
  [JournalLabel.openGap "storage" none (storageCall ["BTCUSDT"])] ++ works 2 ++
    [JournalLabel.crash, JournalLabel.tick (midnightNs 3 + 1000),
      JournalLabel.openGap "stopped" (some (midnightNs 1 + 2000))
        { reason := .collectorStopped }] ++ works 2 ++
    [JournalLabel.closeGap "stopped" { reason := .collectorStopped }] ++
    works 12 ++
    [JournalLabel.sealDay 1, JournalLabel.sealDay 2,
      JournalLabel.closeGap "storage" (storageCall ["BTCUSDT"])] ++ works 4

/-- A gap which is closed at a midnight. -/
def midnightHistory : List JournalLabel :=
  [JournalLabel.openGap "gap-0001" none (storageCall ["BTCUSDT"])] ++ works 2 ++
    [JournalLabel.tick (midnightNs 2),
      JournalLabel.closeGap "gap-0001" (storageCall ["BTCUSDT"])] ++
    works 8 ++ [JournalLabel.tick (midnightNs 3), JournalLabel.sealDay 2]

/-- A storage gap which is closed for the symbols of a later universe. -/
def universeHistory : List JournalLabel :=
  [JournalLabel.openGap "gap-0001" none (storageCall ["BTCUSDT"])] ++ works 2 ++
    [JournalLabel.tick (midnightNs 2 + 500),
      JournalLabel.closeGap "gap-0001" (storageCall ["ETHUSDT"])] ++
    works 8 ++ [JournalLabel.tick (midnightNs 3), JournalLabel.sealDay 2]

/-- A closed gap, and the spans which a sealed inventory makes of it. -/
def ClosedWithSpans (labels : List JournalLabel)
    (utcDate startNs endNs : Nat) (spans : List Span) : Prop :=
  ∃ final ∈ runFrom journalStep { nowNs := midnightNs 1 + 1000 } labels,
    (∃ event ∈ final.returned, event.state = .opened ∧
      event.gapId = "gap-0001" ∧ event.effectiveNs = startNs ∧
        event.Relevant "BTCUSDT" .depth) ∧
    (∃ event ∈ final.returned, event.state = .closed ∧
      event.gapId = "gap-0001" ∧ event.observedAtRealtimeNs = endNs) ∧
    ∃ inventory ∈ final.disk.index.sealedDays.get? utcDate,
      explicitInvalidIntervals "BTCUSDT" (midnightNs utcDate)
        (midnightNs (utcDate + 1))
        (inventory.filter fun event => event.gapId = "gap-0001") = spans

instance (labels : List JournalLabel) (utcDate startNs endNs : Nat)
    (spans : List Span) :
    Decidable (ClosedWithSpans labels utcDate startNs endNs spans) :=
  inferInstanceAs (Decidable (∃ final ∈ _, _))

/--
Closing the storage gap fails on the day which was sealed before it; a gap
closed at a midnight covers the day which begins, and one closed for other
symbols covers the rest of its last day.
-/
theorem gap_not_decomposed :
    (∃ final ∈ runFrom journalStep { nowNs := midnightNs 1 + 1000 }
        storageHistory,
      ∃ task ∈ final.failed, ∃ event ∈ task.event?,
        event.gapId = "storage" ∧ event.state = .closed) ∧
      ClosedWithSpans midnightHistory 2 (midnightNs 1 + 1000)
        (midnightNs 2) [(midnightNs 2, midnightNs 3)] ∧
      ClosedWithSpans universeHistory 2 (midnightNs 1 + 1000)
        (midnightNs 2 + 500) [(midnightNs 2, midnightNs 3)] := by
  decide +kernel

end ShadowDataPlane.Edge
