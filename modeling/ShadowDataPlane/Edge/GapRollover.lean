import ShadowDataPlane.Edge.GapPieces

/-!
# Rolling one gap over

`Continues` is what the index holds of an open gap whose state file is its
piece of some day: one `OPEN` event on every day so far, closed at the day's
last instant unless the day was sealed before.  The two alternatives of
`current` and `next` are what a crash in the middle of a rollover leaves
behind.

Every step of `_roll_state_to` keeps it (`rollStep_sound`) and touches no
other gap.
-/

namespace ShadowDataPlane.Edge

open ShadowDataPlane.Foundation
open ShadowDataPlane.Contracts

namespace JournalDisk

variable {disk after : JournalDisk} {event : GapEventV1}

theorem Published.eventsOf_other
    (published : Published disk event after)
    {gapId : String} {utcDate : Nat}
    (other : gapId ≠ event.gapId ∨ utcDate ≠ event.eventDate) :
    after.eventsOf gapId utcDate = disk.eventsOf gapId utcDate := by
  rw [published.events, if_neg]
  rintro ⟨sameGap, sameDate, _⟩
  rcases other with otherGap | otherDate
  · exact otherGap sameGap
  · exact otherDate sameDate

theorem Published.eventsOf_new
    (published : Published disk event after)
    (new : event ∉ disk.eventsOf event.gapId event.eventDate) :
    after.eventsOf event.gapId event.eventDate =
      disk.eventsOf event.gapId event.eventDate ++ [event] := by
  rw [published.events, if_pos ⟨rfl, rfl, new⟩]

theorem Published.eventsOf_old
    (published : Published disk event after)
    (old : event ∈ disk.eventsOf event.gapId event.eventDate) :
    after.eventsOf event.gapId event.eventDate =
      disk.eventsOf event.gapId event.eventDate := by
  rw [published.events, if_neg]
  rintro ⟨_, _, new⟩
  exact new old

theorem Published.dayIsSealed_iff
    (published : Published disk event after) (utcDate : Nat) :
    after.index.DayIsSealed utcDate ↔ disk.index.DayIsSealed utcDate := by
  rw [DayIndex.DayIsSealed, published.sealedDays]
  rfl

/-- Nothing of one gap differs between two disks. -/
structure SameGap (gapId : String) (disk after : JournalDisk) : Prop where
  events : ∀ utcDate,
    after.eventsOf gapId utcDate = disk.eventsOf gapId utcDate
  openGaps : after.openGaps.get? gapId = disk.openGaps.get? gapId

theorem SameGap.refl (gapId : String) (disk : JournalDisk) :
    SameGap gapId disk disk :=
  ⟨fun _ => rfl, rfl⟩

theorem Published.sameGap
    (published : Published disk event after)
    {gapId : String} (other : gapId ≠ event.gapId) :
    SameGap gapId disk after where
  events := fun _ => published.eventsOf_other (Or.inl other)
  openGaps := by rw [published.openGaps]

end JournalDisk

open JournalDisk

/-- The events of a finished day of a gap. -/
def PastDay (disk : JournalDisk) (opening : GapEventV1) (days : Nat) :
    Prop :=
  disk.eventsOf opening.gapId (opening.eventDate + days) =
      [piece opening days] ∨
    disk.eventsOf opening.gapId (opening.eventDate + days) =
      [piece opening days, continuedClosing (piece opening days)]

/-- What is published of an open gap whose state file is its piece `days`. -/
structure Continues (disk : JournalDisk) (nowNs : Nat)
    (opening : GapEventV1) (days : Nat) : Prop where
  isOpening : Opening opening
  past : ∀ earlier < days, PastDay disk opening earlier
  current :
    disk.eventsOf opening.gapId (opening.eventDate + days) =
        [piece opening days] ∨
      (disk.eventsOf opening.gapId (opening.eventDate + days) =
          [piece opening days, continuedClosing (piece opening days)] ∧
        midnightNs (opening.eventDate + days + 1) ≤ nowNs)
  next :
    disk.eventsOf opening.gapId (opening.eventDate + days + 1) = [] ∨
      (disk.eventsOf opening.gapId (opening.eventDate + days + 1) =
          [piece opening (days + 1)] ∧
        midnightNs (opening.eventDate + days + 1) ≤ nowNs)
  outside : ∀ utcDate, utcDate < opening.eventDate ∨
      opening.eventDate + days + 1 < utcDate →
    disk.eventsOf opening.gapId utcDate = []
  seals : ∀ utcDate, disk.index.DayIsSealed utcDate →
    utcDate ≤ opening.eventDate + days

section Continues

variable {disk after : JournalDisk} {opening : GapEventV1}
variable {nowNs days : Nat}

theorem Continues.mono
    {laterNs : Nat} (continues : Continues disk nowNs opening days)
    (later : nowNs ≤ laterNs) : Continues disk laterNs opening days where
  isOpening := continues.isOpening
  past := continues.past
  current := continues.current.imp_right fun ⟨events, due⟩ =>
    ⟨events, due.trans later⟩
  next := continues.next.imp_right fun ⟨events, due⟩ =>
    ⟨events, due.trans later⟩
  outside := continues.outside
  seals := continues.seals

theorem Continues.frame
    (continues : Continues disk nowNs opening days)
    (events : ∀ utcDate, after.eventsOf opening.gapId utcDate =
      disk.eventsOf opening.gapId utcDate)
    (seals : ∀ utcDate, after.index.DayIsSealed utcDate →
      utcDate ≤ opening.eventDate + days) :
    Continues after nowNs opening days where
  isOpening := continues.isOpening
  past := by
    intro earlier before
    rw [PastDay, events]
    exact continues.past earlier before
  current := by
    rw [events]
    exact continues.current
  next := by
    rw [events]
    exact continues.next
  outside := by
    intro utcDate outside
    rw [events]
    exact continues.outside utcDate outside
  seals := seals

/-- The day which the state file stands for is under way or finished. -/
theorem Continues.pastDay
    (continues : Continues disk nowNs opening days) :
    PastDay disk opening days :=
  continues.current.imp_right And.left

theorem Continues.opening_mem
    (continues : Continues disk nowNs opening days) :
    opening ∈ disk.eventsOf opening.gapId opening.eventDate := by
  have first : PastDay disk opening 0 := by
    cases days with
    | zero => exact continues.pastDay
    | succ days => exact continues.past 0 days.succ_pos
  rcases first with events | events
  · rw [Nat.add_zero] at events
    rw [events]
    exact List.mem_singleton_self _
  · rw [Nat.add_zero] at events
    rw [events]
    exact List.mem_cons_self

end Continues

/-! ## One step -/

/-- What the stage of a roll knows about the gap. -/
def RollSound (disk : JournalDisk) (opening : GapEventV1)
    (days targetDate : Nat) : RollStage → Prop
  | .readState => True
  | .checkSealed opened | .openNext opened =>
      opened = piece opening days ∧
        opening.eventDate + days + 1 ≤ targetDate
  | .closePrevious opened =>
      opened = piece opening days ∧
        opening.eventDate + days + 1 ≤ targetDate ∧
        ¬ disk.index.DayIsSealed (opening.eventDate + days)
  | .writeState opened =>
      opened = piece opening (days + 1) ∧
        opening.eventDate + days + 1 ≤ targetDate ∧
        disk.eventsOf opening.gapId (opening.eventDate + days + 1) =
          [piece opening (days + 1)]

/-- What one step of a roll leaves behind. -/
structure Rolled (disk : JournalDisk) (nowNs : Nat) (opening : GapEventV1)
    (days targetDate : Nat) (after : JournalDisk)
    (stage : Option RollStage) (daysAfter : Nat) : Prop where
  others : ∀ gapId, gapId ≠ opening.gapId → SameGap gapId disk after
  sealedDays : after.index.sealedDays = disk.index.sealedDays
  agrees : disk.index.SealsAgree → after.index.SealsAgree
  recorded : ∀ event ∈ disk.eventsOf opening.gapId opening.eventDate,
    event ∈ after.eventsOf opening.gapId opening.eventDate
  state : after.openGaps.get? opening.gapId =
    some (piece opening daysAfter)
  continues : Continues after nowNs opening daysAfter
  forward : days ≤ daysAfter
  bounded : opening.eventDate + days ≤ targetDate →
    opening.eventDate + daysAfter ≤ targetDate
  stageSound : ∀ next ∈ stage,
    RollSound after opening daysAfter targetDate next
  finished : stage = none → targetDate ≤ opening.eventDate + daysAfter

section Step

variable {disk : JournalDisk} {opening : GapEventV1}
variable {nowNs days targetDate : Nat}

/-- The loop test, on a disk which holds piece `days` as the state. -/
theorem rolled_of_nextDate
    {before : JournalDisk} {daysBefore : Nat}
    (continues : Continues disk nowNs opening days)
    (state : disk.openGaps.get? opening.gapId = some (piece opening days))
    (others : ∀ gapId, gapId ≠ opening.gapId →
      SameGap gapId before disk)
    (index : disk.index = before.index)
    (forward : daysBefore ≤ days)
    (bounded : opening.eventDate + daysBefore ≤ targetDate →
      opening.eventDate + days ≤ targetDate) :
    Rolled before nowNs opening daysBefore targetDate disk
      (nextDate (piece opening days) targetDate) days where
  others := others
  sealedDays := by rw [index]
  agrees := by
    rw [index]
    exact id
  recorded := by
    intro event member
    rwa [eventsOf, index]
  state := state
  continues := continues
  forward := forward
  bounded := bounded
  stageSound := by
    intro next isNext
    unfold nextDate at isNext
    rw [rollDate_piece continues.isOpening] at isNext
    split at isNext
    next more =>
      rw [← Option.some.inj isNext]
      exact ⟨rfl, more⟩
    next => simp at isNext
  finished := by
    intro done
    unfold nextDate at done
    rw [rollDate_piece continues.isOpening] at done
    split at done
    next => simp at done
    next => omega

theorem rolled_of_closePrevious
    {after : JournalDisk}
    (continues : Continues disk nowNs opening days)
    (state : disk.openGaps.get? opening.gapId = some (piece opening days))
    (due : midnightNs targetDate ≤ nowNs)
    (more : opening.eventDate + days + 1 ≤ targetDate)
    (published :
      Published disk (continuedClosing (piece opening days)) after) :
    Rolled disk nowNs opening days targetDate after
      (some (.openNext (piece opening days))) days := by
  have sameGap : (continuedClosing (piece opening days)).gapId =
      opening.gapId := piece_gapId opening days
  have date : (continuedClosing (piece opening days)).eventDate =
      opening.eventDate + days := by
    rw [continuedClosing_eventDate, rollDate_piece continues.isOpening]
  have elsewhere (utcDate : Nat)
      (other : utcDate ≠ opening.eventDate + days) :
      after.eventsOf opening.gapId utcDate =
        disk.eventsOf opening.gapId utcDate :=
    published.eventsOf_other (Or.inr (date ▸ other))
  have here : after.eventsOf opening.gapId (opening.eventDate + days) =
      [piece opening days, continuedClosing (piece opening days)] := by
    rcases continues.current with events | ⟨events, _⟩
    · have new := published.eventsOf_new
      rw [sameGap, date, events] at new
      apply new
      intro isPiece
      have same := List.mem_singleton.mp isPiece
      have opened := (piece_opening continues.isOpening days).opened
      rw [← same] at opened
      simp [continuedClosing] at opened
    · have old := published.eventsOf_old
      rw [sameGap, date, events] at old
      exact old (by simp)
  have reached : midnightNs (opening.eventDate + days + 1) ≤ nowNs :=
    (midnightNs_le_midnightNs_iff.mpr more).trans due
  exact {
    others := fun gapId other => published.sameGap (sameGap.symm ▸ other)
    sealedDays := published.sealedDays
    agrees := published.agrees
    recorded := by
      intro event member
      have kept := published.events opening.gapId opening.eventDate
      rw [kept]
      split
      · exact List.mem_append_left _ member
      · exact member
    state := by rw [published.openGaps, state]
    continues := {
      isOpening := continues.isOpening
      past := by
        intro earlier before
        rw [PastDay, elsewhere _ (by omega)]
        exact continues.past earlier before
      current := Or.inr ⟨here, reached⟩
      next := by
        rw [elsewhere _ (by omega)]
        exact continues.next
      outside := by
        intro utcDate outside
        rw [elsewhere _ (by omega)]
        exact continues.outside utcDate outside
      seals := fun utcDate isSealed => continues.seals utcDate
        ((published.dayIsSealed_iff utcDate).mp isSealed) }
    forward := le_refl _
    bounded := id
    stageSound := by
      rintro next ⟨⟩
      exact ⟨rfl, more⟩
    finished := by simp }

theorem rolled_of_openNext
    {after : JournalDisk}
    (continues : Continues disk nowNs opening days)
    (state : disk.openGaps.get? opening.gapId = some (piece opening days))
    (due : midnightNs targetDate ≤ nowNs)
    (more : opening.eventDate + days + 1 ≤ targetDate)
    (published : Published disk (piece opening (days + 1)) after) :
    Rolled disk nowNs opening days targetDate after
      (some (.writeState (piece opening (days + 1)))) days := by
  have sameGap : (piece opening (days + 1)).gapId = opening.gapId :=
    piece_gapId opening (days + 1)
  have date : (piece opening (days + 1)).eventDate =
      opening.eventDate + days + 1 :=
    eventDate_piece continues.isOpening (days + 1)
  have elsewhere (utcDate : Nat)
      (other : utcDate ≠ opening.eventDate + days + 1) :
      after.eventsOf opening.gapId utcDate =
        disk.eventsOf opening.gapId utcDate :=
    published.eventsOf_other (Or.inr (date ▸ other))
  have there : after.eventsOf opening.gapId
      (opening.eventDate + days + 1) = [piece opening (days + 1)] := by
    rcases continues.next with events | ⟨events, _⟩
    · have new := published.eventsOf_new
      rw [sameGap, date, events] at new
      exact new (by simp)
    · have old := published.eventsOf_old
      rw [sameGap, date, events] at old
      exact old (by simp)
  have reached : midnightNs (opening.eventDate + days + 1) ≤ nowNs :=
    (midnightNs_le_midnightNs_iff.mpr more).trans due
  exact {
    others := fun gapId other => published.sameGap (sameGap.symm ▸ other)
    sealedDays := published.sealedDays
    agrees := published.agrees
    recorded := by
      intro event member
      rw [elsewhere _ (by omega)]
      exact member
    state := by rw [published.openGaps, state]
    continues := {
      isOpening := continues.isOpening
      past := by
        intro earlier before
        rw [PastDay, elsewhere _ (by omega)]
        exact continues.past earlier before
      current := by
        rw [elsewhere _ (by omega)]
        exact continues.current
      next := Or.inr ⟨there, reached⟩
      outside := by
        intro utcDate outside
        rw [elsewhere _ (by omega)]
        exact continues.outside utcDate outside
      seals := fun utcDate isSealed => continues.seals utcDate
        ((published.dayIsSealed_iff utcDate).mp isSealed) }
    forward := le_refl _
    bounded := id
    stageSound := by
      rintro next ⟨⟩
      exact ⟨rfl, more, there⟩
    finished := by simp }

theorem rolled_of_writeState
    (continues : Continues disk nowNs opening days)
    (more : opening.eventDate + days + 1 ≤ targetDate)
    (there : disk.eventsOf opening.gapId (opening.eventDate + days + 1) =
      [piece opening (days + 1)]) :
    Rolled disk nowNs opening days targetDate
      { disk with
        openGaps := disk.openGaps.set opening.gapId
          (piece opening (days + 1)) }
      (nextDate (piece opening (days + 1)) targetDate) (days + 1) := by
  apply rolled_of_nextDate
  · exact {
      isOpening := continues.isOpening
      past := by
        intro earlier before
        rcases Nat.lt_succ_iff_lt_or_eq.mp before with older | rfl
        · exact continues.past earlier older
        · exact continues.pastDay
      current := Or.inl there
      next := Or.inl (continues.outside _ (Or.inr (by omega)))
      outside := by
        intro utcDate outside
        exact continues.outside utcDate (by omega)
      seals := fun utcDate isSealed =>
        (continues.seals utcDate isSealed).trans (by omega) }
  · exact Dict.get?_set_self _ _ _
  · intro gapId other
    exact ⟨fun _ => rfl, by rw [Dict.get?_set, if_neg other]⟩
  · rfl
  · exact Nat.le_succ days
  · exact fun _ => by omega

/-- One step of a roll succeeds and keeps what is published of the gap. -/
theorem rollStep_sound
    {stage : RollStage}
    (continues : Continues disk nowNs opening days)
    (state : disk.openGaps.get? opening.gapId = some (piece opening days))
    (due : midnightNs targetDate ≤ nowNs)
    (sound : RollSound disk opening days targetDate stage) :
    ∃ after next daysAfter,
      rollStep disk opening.gapId targetDate stage = .ok (after, next) ∧
        Rolled disk nowNs opening days targetDate after next daysAfter := by
  cases stage with
  | readState =>
      refine ⟨disk, _, days, by rw [rollStep, state], ?_⟩
      exact rolled_of_nextDate continues state
        (fun gapId _ => SameGap.refl gapId disk) rfl (le_refl _) id
  | checkSealed opened =>
      rcases sound with ⟨rfl, more⟩
      have unchanged (next : RollStage)
          (nextSound : RollSound disk opening days targetDate next) :
          Rolled disk nowNs opening days targetDate disk (some next)
            days := {
        others := fun gapId _ => SameGap.refl gapId disk
        sealedDays := rfl
        agrees := id
        recorded := fun _ => id
        state := state
        continues := continues
        forward := le_refl _
        bounded := id
        stageSound := by
          rintro _ ⟨⟩
          exact nextSound
        finished := by simp }
      by_cases isSealed :
          disk.index.DayIsSealed (rollDate (piece opening days))
      · refine ⟨disk, _, days, by rw [rollStep, if_pos isSealed], ?_⟩
        exact unchanged _ ⟨rfl, more⟩
      · refine ⟨disk, _, days, by rw [rollStep, if_neg isSealed], ?_⟩
        rw [rollDate_piece continues.isOpening] at isSealed
        exact unchanged _ ⟨rfl, more, isSealed⟩
  | closePrevious opened =>
      rcases sound with ⟨rfl, more, unsealed⟩
      rw [← rollDate_piece continues.isOpening,
        ← continuedClosing_eventDate] at unsealed
      rcases publish_of_unsealed unsealed with
        ⟨after, completed, published⟩
      refine ⟨after, _, days, by rw [rollStep, completed], ?_⟩
      exact rolled_of_closePrevious continues state due more published
  | openNext opened =>
      rcases sound with ⟨rfl, more⟩
      have unsealed : ¬ disk.index.DayIsSealed
          (piece opening (days + 1)).eventDate := by
        intro isSealed
        have early := continues.seals _ isSealed
        rw [eventDate_piece continues.isOpening] at early
        omega
      rcases publish_of_unsealed unsealed with
        ⟨after, completed, published⟩
      have isNext : continuedOpening (piece opening days) =
          piece opening (days + 1) := rfl
      refine ⟨after, _, days, by rw [rollStep, isNext, completed], ?_⟩
      exact rolled_of_openNext continues state due more published
  | writeState opened =>
      rcases sound with ⟨rfl, more, there⟩
      exact ⟨_, _, days + 1, rfl,
        rolled_of_writeState continues more there⟩

end Step

end ShadowDataPlane.Edge
