import ShadowDataPlane.Central.LedgerReaders
import ShadowDataPlane.Edge.GapJournal

/-!
# The pieces of a gap

Rolling a gap over cuts it into one piece for each UTC day.  `piece opening k`
is the `OPEN` event of day `k` after the opening.  The quality check reads
such an event alone, or with the `CLOSED` event which ends it, as one span
(`denotes_opened`, `denotes_closed`).
-/

namespace ShadowDataPlane.Edge

open ShadowDataPlane.Foundation
open ShadowDataPlane.Contracts
open ShadowDataPlane.Central

/-- The `OPEN` event of a gap on the `k`-th day after its opening. -/
def piece (opening : GapEventV1) : Nat → GapEventV1
  | 0 => opening
  | days + 1 => continuedOpening (piece opening days)

/-- An `OPEN` event whose backdate, if any, lies after the epoch. -/
structure Opening (event : GapEventV1) : Prop where
  opened : event.state = .opened
  positive : event.affectedFromRealtimeNs ≠ some 0

section Pieces

variable {event opening : GapEventV1}

theorem Opening.rollDate (isOpening : Opening event) :
    rollDate event = event.eventDate := by
  unfold Edge.rollDate GapEventV1.eventDate GapEventV1.effectiveNs
  rw [isOpening.opened]
  cases affected : event.affectedFromRealtimeNs with
  | none => rfl
  | some backdate =>
      have positive : backdate ≠ 0 := by
        rintro rfl
        exact isOpening.positive affected
      simp only [if_neg positive]

theorem midnightNs_succ_pos (utcDate : Nat) :
    0 < midnightNs (utcDate + 1) := by
  rw [midnightNs_succ]
  omega

theorem continuedOpening_opening (event : GapEventV1) :
    Opening (continuedOpening event) where
  opened := rfl
  positive := by
    simp only [continuedOpening, ne_eq, Option.some.injEq]
    exact (midnightNs_succ_pos _).ne'

theorem effectiveNs_of_backdate
    {affected : Nat} (opened : event.state = .opened)
    (backdated : event.affectedFromRealtimeNs = some affected) :
    event.effectiveNs = affected := by
  rw [GapEventV1.effectiveNs, opened, backdated]

@[simp]
theorem continuedOpening_effectiveNs (event : GapEventV1) :
    (continuedOpening event).effectiveNs =
      midnightNs (rollDate event + 1) :=
  effectiveNs_of_backdate rfl rfl

@[simp]
theorem rollDate_continuedOpening (event : GapEventV1) :
    rollDate (continuedOpening event) = rollDate event + 1 := by
  rw [(continuedOpening_opening event).rollDate, GapEventV1.eventDate,
    continuedOpening_effectiveNs, dateOfNs_midnightNs]

@[simp]
theorem continuedClosing_effectiveNs (event : GapEventV1) :
    (continuedClosing event).effectiveNs =
      midnightNs (rollDate event + 1) - 1 := by
  have closed : (continuedClosing event).state = .closed := rfl
  rw [GapEventV1.effectiveNs_of_closed closed, continuedClosing]

theorem continuedClosing_eventDate (event : GapEventV1) :
    (continuedClosing event).eventDate = rollDate event := by
  rw [GapEventV1.eventDate, continuedClosing_effectiveNs, dateOfNs_eq_iff]
  have longer := midnightNs_lt_succ (rollDate event)
  omega

theorem piece_opening (isOpening : Opening opening) (days : Nat) :
    Opening (piece opening days) := by
  cases days with
  | zero => exact isOpening
  | succ days => exact continuedOpening_opening _

@[simp]
theorem piece_gapId (opening : GapEventV1) (days : Nat) :
    (piece opening days).gapId = opening.gapId := by
  induction days with
  | zero => rfl
  | succ days induction => exact induction

theorem piece_relevant_iff
    {symbol : String} {stream : StreamType} (days : Nat) :
    (piece opening days).Relevant symbol stream ↔
      opening.Relevant symbol stream := by
  induction days with
  | zero => exact Iff.rfl
  | succ days induction => exact induction

theorem rollDate_piece (isOpening : Opening opening) (days : Nat) :
    rollDate (piece opening days) = opening.eventDate + days := by
  induction days with
  | zero => exact isOpening.rollDate
  | succ days induction =>
      rw [piece, rollDate_continuedOpening, induction, Nat.add_assoc]

theorem eventDate_piece (isOpening : Opening opening) (days : Nat) :
    (piece opening days).eventDate = opening.eventDate + days := by
  rw [← (piece_opening isOpening days).rollDate, rollDate_piece isOpening]

/-- A piece starts where its day and the gap have both begun. -/
theorem effectiveNs_piece (isOpening : Opening opening) (days : Nat) :
    (piece opening days).effectiveNs =
      max opening.effectiveNs (midnightNs (opening.eventDate + days)) := by
  cases days with
  | zero =>
      have inside := (dateOfNs_eq_iff.mp (rfl :
        dateOfNs opening.effectiveNs = opening.eventDate)).1
      exact (max_eq_left inside).symm
  | succ days =>
      have inside := (dateOfNs_eq_iff.mp (rfl :
        dateOfNs opening.effectiveNs = opening.eventDate)).2
      have later : midnightNs (opening.eventDate + 1) ≤
          midnightNs (opening.eventDate + (days + 1)) := by
        rw [midnightNs_le_midnightNs_iff]
        omega
      rw [piece, continuedOpening_effectiveNs, rollDate_piece isOpening,
        Nat.add_assoc, max_eq_right (inside.le.trans later)]

end Pieces

/-! ## What the quality check reads -/

section Denotes

variable {symbol : String} {windowEndNs : Nat}
variable {opened closed : GapEventV1}

theorem denotes_opened
    (isOpening : Opening opened)
    (relevant : opened.Relevant symbol .depth) :
    explicitSpans symbol windowEndNs [opened] =
      [(opened.effectiveNs, windowEndNs)] := by
  have events : explicitEvents symbol [opened] = [opened] := by
    simp [explicitEvents, relevant]
  rw [explicitSpans, events]
  simp [ExplicitMatch.step, isOpening.opened, Dict.values, Dict.set,
    Dict.empty, setEntry, explicitEffectiveNs_eq isOpening.positive]

theorem denotes_closed
    (isOpening : Opening opened) (isClosing : closed.state = .closed)
    (sameGap : closed.gapId = opened.gapId)
    (relevant : opened.Relevant symbol .depth)
    (closes : closed.Relevant symbol .depth)
    (later : opened.effectiveNs < closed.observedAtRealtimeNs) :
    explicitSpans symbol windowEndNs [opened, closed] =
      [(opened.effectiveNs, explicitEndNs closed)] := by
  have closedAt : explicitEffectiveNs closed =
      closed.observedAtRealtimeNs := by
    simp [explicitEffectiveNs, isClosing]
  have ordered : explicitKey opened ≤ explicitKey closed := by
    apply Prod.Lex.le_iff.mpr
    apply Or.inl
    show explicitEffectiveNs opened < explicitEffectiveNs closed
    rw [explicitEffectiveNs_eq isOpening.positive, closedAt]
    exact later
  have events : explicitEvents symbol [opened, closed] =
      [opened, closed] := by
    simp [explicitEvents, relevant, closes, ordered]
  rw [explicitSpans, events]
  simp [ExplicitMatch.step, isOpening.opened, isClosing, sameGap,
    Dict.values, Dict.erase, Dict.set, Dict.empty, Dict.get?, getEntry,
    setEntry, explicitEffectiveNs_eq isOpening.positive]

/-- A closing no later than its opening is read first and ignored. -/
theorem denotes_closed_early
    (isOpening : Opening opened) (isClosing : closed.state = .closed)
    (sameGap : closed.gapId = opened.gapId)
    (relevant : opened.Relevant symbol .depth)
    (closes : closed.Relevant symbol .depth)
    (early : closed.observedAtRealtimeNs ≤ opened.effectiveNs) :
    explicitSpans symbol windowEndNs [opened, closed] =
      [(opened.effectiveNs, windowEndNs)] := by
  have closedAt : explicitEffectiveNs closed =
      closed.observedAtRealtimeNs := by
    simp [explicitEffectiveNs, isClosing]
  have notFirst : ¬ explicitKey opened ≤ explicitKey closed := by
    rw [not_le]
    show toLex _ < toLex _
    rw [Prod.Lex.toLex_lt_toLex, explicitEffectiveNs_eq isOpening.positive,
      closedAt]
    rcases early.lt_or_eq with strict | same
    · exact Or.inl strict
    · refine Or.inr ⟨same, ?_⟩
      rw [Prod.Lex.toLex_lt_toLex]
      refine Or.inr ⟨sameGap, ?_⟩
      rw [Prod.Lex.toLex_lt_toLex]
      apply Or.inl
      rw [isClosing, isOpening.opened]
      show GapState.closed.value < GapState.opened.value
      decide
  have events : explicitEvents symbol [opened, closed] =
      [closed, opened] := by
    simp [explicitEvents, relevant, closes, notFirst]
  rw [explicitSpans, events]
  simp [ExplicitMatch.step, isOpening.opened, isClosing, Dict.values,
    Dict.set, Dict.empty, Dict.get?, getEntry, setEntry,
    explicitEffectiveNs_eq isOpening.positive]

theorem explicitEndNs_continuedClosing (event : GapEventV1) :
    explicitEndNs (continuedClosing event) =
      midnightNs (rollDate event + 1) := by
  have positive := midnightNs_succ_pos (rollDate event)
  simp only [explicitEndNs, explicitEffectiveNs, continuedClosing,
    continuesDetail, if_true]
  omega

/-- One clipped span covers what the span shares with the window. -/
theorem instants_clipSpan (windowStartNs windowEndNs : Nat) (span : Span) :
    instants ([span].filterMap (clipSpan windowStartNs windowEndNs)) =
      Set.Ico span.1 span.2 ∩ Set.Ico windowStartNs windowEndNs := by
  have shared : Set.Ico span.1 span.2 ∩ Set.Ico windowStartNs windowEndNs =
      Set.Ico (max span.1 windowStartNs) (min span.2 windowEndNs) :=
    Set.Ico_inter_Ico
  rw [shared]
  by_cases nonempty :
      max span.1 windowStartNs < min span.2 windowEndNs
  · have kept : clipSpan windowStartNs windowEndNs span =
        some (max span.1 windowStartNs, min span.2 windowEndNs) :=
      if_pos nonempty
    simp only [List.filterMap_cons, kept, List.filterMap_nil,
      instants_singleton]
  · have dropped : clipSpan windowStartNs windowEndNs span = none :=
      if_neg nonempty
    simp only [List.filterMap_cons, dropped, List.filterMap_nil,
      instants_nil]
    exact (Set.Ico_eq_empty nonempty).symm

end Denotes

/-! ## Publishing -/

namespace JournalDisk

/-- The events of one gap on one day. -/
def eventsOf (disk : JournalDisk) (gapId : String) (utcDate : Nat) :
    List GapEventV1 :=
  (disk.index.refs utcDate).filter fun event => event.gapId = gapId

variable {disk after : JournalDisk} {event : GapEventV1}

/-- What publishing an event does. -/
structure Published (disk : JournalDisk) (event : GapEventV1)
    (after : JournalDisk) : Prop where
  unsealed : ¬ disk.index.DayIsSealed event.eventDate
  openGaps : after.openGaps = disk.openGaps
  sealedDays : after.index.sealedDays = disk.index.sealedDays
  agrees : disk.index.SealsAgree → after.index.SealsAgree
  recorded : ∀ entry ∈ after.index.recorded,
    entry ∈ disk.index.recorded ∨ entry = (event.eventDate, event)
  events : ∀ gapId utcDate, after.eventsOf gapId utcDate =
    if gapId = event.gapId ∧ utcDate = event.eventDate ∧
        event ∉ disk.eventsOf gapId utcDate then
      disk.eventsOf gapId utcDate ++ [event]
    else disk.eventsOf gapId utcDate

theorem publish_ok (completed : disk.publish event = .ok after) :
    Published disk event after := by
  unfold publish at completed
  split at completed
  next => simp at completed
  next index recorded =>
    rw [← Except.ok.inj completed]
    have isIndex := DayIndex.recordGenerated_eq_ok_iff.mp recorded
    exact {
      unsealed := isIndex.1
      openGaps := rfl
      sealedDays := DayIndex.sealedDays_recordGenerated recorded
      agrees := fun agree => agree.recordGenerated recorded
      recorded := by
        intro entry member
        rw [isIndex.2] at member
        show entry ∈ disk.index.recorded ∨ _
        dsimp only at member
        split at member
        · exact Or.inl member
        · simpa using member
      events := by
        intro gapId utcDate
        simp only [eventsOf, DayIndex.refs_recordGenerated recorded]
        by_cases sameDate : utcDate = event.eventDate
        · subst sameDate
          by_cases sameGap : gapId = event.gapId
          · subst sameGap
            have known : event ∈ (disk.index.refs event.eventDate).filter
                (fun other => decide (other.gapId = event.gapId)) ↔
                  event ∈ disk.index.refs event.eventDate := by
              simp
            by_cases present : event ∈ disk.index.refs event.eventDate
            · simp [present]
            · simp [present]
          · have other : ¬ event.gapId = gapId := Ne.symm sameGap
            split <;> simp [sameGap, other]
        · simp [sameDate] }

theorem publish_of_unsealed
    (unsealed : ¬ disk.index.DayIsSealed event.eventDate) :
    ∃ after, disk.publish event = .ok after ∧
      Published disk event after := by
  cases completed : disk.publish event with
  | ok after => exact ⟨after, rfl, publish_ok completed⟩
  | error problem =>
      unfold publish at completed
      split at completed
      next problem refused =>
        unfold DayIndex.recordGenerated at refused
        rw [if_neg unsealed] at refused
        split at refused <;> simp at refused
      next => simp at completed

end JournalDisk

end ShadowDataPlane.Edge
