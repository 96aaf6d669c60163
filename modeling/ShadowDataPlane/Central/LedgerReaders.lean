import ShadowDataPlane.Central.AuthorityReplay
import ShadowDataPlane.Central.QualityDurations

/-!
# Two readers of one ledger

The reconstructor replays the gap ledger and the quality check matches it.
Both see the same gaps, in orders which differ between indistinguishable
events only, so a valid instant lies in no matched interval but for one
nanosecond: the check extends a gap which continues into the next day to the
day's end, where the reconstructor has already closed it.

`conflictingNs_eq_zero_iff` says exactly when that nanosecond is valid.
-/

namespace ShadowDataPlane.Central

open ShadowDataPlane.Foundation
open ShadowDataPlane.Contracts

/--
What the edge's journal keeps true of a day's ledger: clocks are positive, and
only the `CLOSED` event at the last instant of the day says that its gap
continues.
-/
structure JournalLedger (dayEndNs : Nat) (ledger : List GapEventV1) :
    Prop where
  positive : ∀ event ∈ ledger, event.affectedFromRealtimeNs ≠ some 0
  continues : ∀ event ∈ ledger, event.state = .closed →
    event.detail = continuesDetail → event.observedAtRealtimeNs + 1 = dayEndNs

/-! ## The two orders -/

theorem explicitEffectiveNs_eq
    {event : GapEventV1} (positive : event.affectedFromRealtimeNs ≠ some 0) :
    explicitEffectiveNs event = event.effectiveNs := by
  unfold explicitEffectiveNs GapEventV1.effectiveNs
  cases event.state with
  | closed => rfl
  | opened =>
      cases affected : event.affectedFromRealtimeNs with
      | none => rfl
      | some affected' =>
          have nonzero : affected' ≠ 0 := by
            rintro rfl
            exact positive affected
          simp [nonzero]

instance : Std.Total fun left right : GapEventV1 =>
    explicitKey left ≤ explicitKey right :=
  ⟨fun left right => le_total (explicitKey left) (explicitKey right)⟩

instance : IsTrans GapEventV1
    fun left right => explicitKey left ≤ explicitKey right :=
  ⟨fun _ _ _ first second => le_trans first second⟩

/-- The detail only breaks ties of the other reader's order. -/
theorem sortKey_le_of_explicitKey_le
    {left right : GapEventV1}
    (leftPositive : left.affectedFromRealtimeNs ≠ some 0)
    (rightPositive : right.affectedFromRealtimeNs ≠ some 0)
    (ordered : explicitKey left ≤ explicitKey right) :
    left.sortKey ≤ right.sortKey := by
  rw [explicitKey, explicitKey, explicitEffectiveNs_eq leftPositive,
    explicitEffectiveNs_eq rightPositive] at ordered
  rw [GapEventV1.sortKey, GapEventV1.sortKey, Prod.Lex.toLex_le_toLex]
  rcases Prod.Lex.toLex_le_toLex.mp ordered with strict | ⟨sameTime, ordered⟩
  · exact Or.inl strict
  · refine Or.inr ⟨sameTime, Prod.Lex.toLex_le_toLex.mpr ?_⟩
    rcases Prod.Lex.toLex_le_toLex.mp ordered with strict | ⟨sameGap, ordered⟩
    · exact Or.inl strict
    · refine Or.inr ⟨sameGap, ?_⟩
      rcases Prod.Lex.toLex_le_toLex.mp ordered with strict | ⟨same, _⟩
      · exact strict.le
      · exact same.le

section Orders

variable {symbol : String} {dayEndNs : Nat} {ledger : List GapEventV1}

theorem mem_explicitEvents_iff {event : GapEventV1} :
    event ∈ explicitEvents symbol ledger ↔
      event ∈ ledger ∧ event.Relevant symbol .depth := by
  rw [explicitEvents, (List.perm_insertionSort _ _).mem_iff, List.mem_filter,
    decide_eq_true_eq]

/-- Both readers see the same events up to ties. -/
theorem explicitEvents_sortKeys (journal : JournalLedger dayEndNs ledger) :
    (explicitEvents symbol ledger).map GapEventV1.sortKey =
      (transportGapEvents symbol ledger).map GapEventV1.sortKey := by
  have same : (explicitEvents symbol ledger).Perm
      (transportGapEvents symbol ledger) :=
    (List.perm_insertionSort _ _).trans (GapEventV1.sortEvents_perm _).symm
  have explicitSorted : (explicitEvents symbol ledger).Pairwise
      fun left right => left.sortKey ≤ right.sortKey := by
    have sorted := List.pairwise_insertionSort
      (fun left right : GapEventV1 => explicitKey left ≤ explicitKey right)
      (ledger.filter fun event => event.Relevant symbol .depth)
    refine List.Pairwise.imp_of_mem ?_ sorted
    intro left right isLeft isRight ordered
    exact sortKey_le_of_explicitKey_le
      (journal.positive left (mem_explicitEvents_iff.mp isLeft).1)
      (journal.positive right (mem_explicitEvents_iff.mp isRight).1) ordered
  exact List.Perm.eq_of_pairwise (fun _ _ _ _ => le_antisymm)
    (List.pairwise_map.mpr explicitSorted)
    (List.pairwise_map.mpr (GapEventV1.sortEvents_sorted _)) (same.map _)

end Orders

theorem sortKey_inj
    {left right : GapEventV1} (same : left.sortKey = right.sortKey) :
    left.effectiveNs = right.effectiveNs ∧ left.gapId = right.gapId ∧
      left.state = right.state := by
  have keys : (left.effectiveNs, toLex (left.gapId, left.state.value)) =
      (right.effectiveNs, toLex (right.gapId, right.state.value)) := same
  have inner : (left.gapId, left.state.value) =
      (right.gapId, right.state.value) := (Prod.mk.inj keys).2
  refine ⟨(Prod.mk.inj keys).1, (Prod.mk.inj inner).1, ?_⟩
  have states := (Prod.mk.inj inner).2
  revert states
  cases left.state <;> cases right.state <;> decide

theorem nextClosed_of_sortKeys
    {left right : List GapEventV1}
    (same : left.map GapEventV1.sortKey = right.map GapEventV1.sortKey)
    (gapId : String) :
    (nextClosed gapId left).map GapEventV1.observedAtRealtimeNs =
      (nextClosed gapId right).map GapEventV1.observedAtRealtimeNs := by
  induction left generalizing right with
  | nil =>
      rw [List.map_nil] at same
      rw [List.map_eq_nil_iff.mp same.symm]
  | cons head rest induction =>
      rw [List.map_cons] at same
      obtain ⟨other, others, rfl, sameHead, sameRest⟩ :=
        List.map_eq_cons_iff.mp same.symm
      obtain ⟨sameTime, sameGap, sameState⟩ := sortKey_inj sameHead
      have tails := induction sameRest.symm
      by_cases closes : head.gapId = gapId ∧ head.state = .closed
      · have closes' : other.gapId = gapId ∧ other.state = .closed := by
          rw [sameGap, sameState]
          exact closes
        have times : head.observedAtRealtimeNs = other.observedAtRealtimeNs := by
          rw [← GapEventV1.effectiveNs_of_closed closes.2,
            ← GapEventV1.effectiveNs_of_closed closes'.2, sameTime]
        simp [nextClosed, closes, closes', times]
      · have closes' : ¬ (other.gapId = gapId ∧ other.state = .closed) := by
          rw [sameGap, sameState]
          exact closes
        simpa only [nextClosed, List.find?_cons, decide_eq_false closes,
          decide_eq_false closes'] using tails

/-- Lists which agree up to ties have the same instants inside gaps. -/
theorem insideGap_of_sortKeys
    {left right : List GapEventV1}
    (same : left.map GapEventV1.sortKey = right.map GapEventV1.sortKey)
    {instant : Nat} (inside : InsideGap left instant) :
    InsideGap right instant := by
  obtain ⟨before, opening, after, rfl, opened, started, unclosed⟩ := inside
  rw [List.map_append, List.map_cons] at same
  obtain ⟨before', rest, rfl, _, sameRest⟩ :=
    List.map_eq_append_iff.mp same.symm
  obtain ⟨opening', after', rfl, sameOpening, sameAfter⟩ :=
    List.map_eq_cons_iff.mp sameRest
  obtain ⟨sameTime, sameGap, sameState⟩ := sortKey_inj sameOpening
  refine ⟨before', opening', after', rfl, sameState.trans opened,
    sameTime ▸ started, fun closing closed => ?_⟩
  have next := nextClosed_of_sortKeys sameAfter opening'.gapId
  rw [closed, sameGap] at next
  obtain ⟨closing', isNext, time⟩ := Option.map_eq_some_iff.mp next.symm
  rw [← time]
  exact unclosed closing' isNext

/-! ## What the matcher finds -/

/-- An `OPEN` event and the `CLOSED` event which ends it. -/
structure Matched (events : List GapEventV1)
    (opening closing : GapEventV1) : Prop where
  opened : opening.state = .opened
  closed : ∃ before after, events = before ++ opening :: after ∧
    nextClosed opening.gapId after = some closing

theorem Matched.concat
    {events : List GapEventV1} {opening closing last : GapEventV1}
    (isMatched : Matched events opening closing) :
    Matched (events ++ [last]) opening closing where
  opened := isMatched.opened
  closed := by
    obtain ⟨before, after, split, closed⟩ := isMatched.closed
    exact ⟨before, after ++ [last], by simp [split],
      nextClosed_append_some closed⟩

/-- A match over a longer list is an old one or ends with the new event. -/
theorem matched_concat_cases
    {events : List GapEventV1} {opening closing last : GapEventV1}
    (isMatched : Matched (events ++ [last]) opening closing) :
    Matched events opening closing ∨
      (closing = last ∧ last.state = .closed ∧
        LeavesOpen events last.gapId) := by
  obtain ⟨opened, before, after, split, closed⟩ := isMatched
  rcases concat_eq_split_iff.mp split with
    ⟨rfl, _, _⟩ | ⟨shorter, rfl, shorterSplit⟩
  · simp [nextClosed] at closed
  · rw [nextClosed_concat] at closed
    cases earlier : nextClosed opening.gapId shorter with
    | some old =>
        rw [earlier, Option.some_or] at closed
        exact Or.inl ⟨opened, before, shorter, shorterSplit,
          Option.some.inj closed ▸ earlier⟩
    | none =>
        rw [earlier, Option.none_or] at closed
        split at closed
        next closes =>
          exact Or.inr ⟨(Option.some.inj closed).symm, closes.2, before,
            opening, shorter, shorterSplit, opened, closes.1.symm,
            closes.1 ▸ earlier⟩
        next => simp at closed

/-- The state of the matcher after a list of events. -/
structure MatchSound (events : List GapEventV1) (matched : ExplicitMatch) :
    Prop where
  opened : ∀ gapId startNs, matched.opened.get? gapId = some startNs →
    ∃ before opening after, events = before ++ opening :: after ∧
      opening.state = .opened ∧ opening.gapId = gapId ∧
      startNs = explicitEffectiveNs opening ∧ nextClosed gapId after = none
  pending : ∀ gapId, LeavesOpen events gapId →
    (matched.opened.get? gapId).isSome
  intervals : ∀ span ∈ matched.intervals, ∃ opening closing,
    Matched events opening closing ∧
      span = (explicitEffectiveNs opening, explicitEndNs closing)
  closed : ∀ opening closing, Matched events opening closing →
    ∃ span ∈ matched.intervals, span.2 = explicitEndNs closing

theorem matchSound_nil : MatchSound [] {} where
  opened := by simp
  pending := by simp [LeavesOpen]
  intervals := by simp
  closed := by
    rintro opening closing ⟨_, before, after, split, _⟩
    simp at split

theorem MatchSound.opening
    {events : List GapEventV1} {matched : ExplicitMatch} {event : GapEventV1}
    (sound : MatchSound events matched) (opened : event.state = .opened) :
    MatchSound (events ++ [event]) (matched.step event) := by
  simp only [ExplicitMatch.step, opened]
  exact {
    opened := by
      intro gapId startNs found
      rw [Dict.get?_set] at found
      split at found
      next same =>
        exact ⟨events, event, [], rfl, opened, same.symm,
          (Option.some.inj found).symm, rfl⟩
      next different =>
        obtain ⟨before, opening, after, rfl, isOpened, sameGap, starts,
          unclosed⟩ := sound.opened gapId startNs found
        refine ⟨before, opening, after ++ [event], by simp, isOpened,
          sameGap, starts, ?_⟩
        rw [nextClosed_concat, unclosed]
        simp [opened]
    pending := by
      intro gapId leaves
      rw [Dict.get?_set]
      split
      next => rfl
      next different =>
        rcases leavesOpen_concat_iff.mp leaves with
          ⟨_, same⟩ | ⟨old, _⟩
        · exact (different same.symm).elim
        · exact sound.pending gapId old
    intervals := by
      intro span member
      obtain ⟨opening, closing, isMatched, rfl⟩ :=
        sound.intervals span member
      exact ⟨opening, closing, isMatched.concat, rfl⟩
    closed := by
      intro opening closing isMatched
      rcases matched_concat_cases isMatched with old | ⟨_, closed, _⟩
      · exact sound.closed opening closing old
      · simp [opened] at closed }

theorem MatchSound.closing
    {events : List GapEventV1} {matched : ExplicitMatch} {event : GapEventV1}
    (sound : MatchSound events matched) (closed : event.state = .closed) :
    MatchSound (events ++ [event]) (matched.step event) := by
  -- An opening of another gap stays as it was.
  have others : ∀ gapId startNs, gapId ≠ event.gapId →
      matched.opened.get? gapId = some startNs →
      ∃ before opening after,
        events ++ [event] = before ++ opening :: after ∧
          opening.state = .opened ∧ opening.gapId = gapId ∧
          startNs = explicitEffectiveNs opening ∧
          nextClosed gapId after = none := by
    intro gapId startNs different found
    obtain ⟨before, opening, after, rfl, isOpened, sameGap, starts,
      unclosed⟩ := sound.opened gapId startNs found
    refine ⟨before, opening, after ++ [event], by simp, isOpened, sameGap,
      starts, ?_⟩
    rw [nextClosed_concat, unclosed]
    simp [Ne.symm different]
  simp only [ExplicitMatch.step, closed]
  split
  next absent =>
    exact {
      opened := by
        intro gapId startNs found
        refine others gapId startNs ?_ found
        rintro rfl
        simp [absent] at found
      pending := by
        intro gapId leaves
        rcases leavesOpen_concat_iff.mp leaves with ⟨opened, _⟩ | ⟨old, _⟩
        · simp [closed] at opened
        · exact sound.pending gapId old
      intervals := by
        intro span member
        obtain ⟨opening, closing, isMatched, rfl⟩ :=
          sound.intervals span member
        exact ⟨opening, closing, isMatched.concat, rfl⟩
      closed := by
        intro opening closing isMatched
        rcases matched_concat_cases isMatched with old | ⟨_, _, leaves⟩
        · exact sound.closed opening closing old
        · have some := sound.pending event.gapId leaves
          simp [absent] at some }
  next startNs found =>
    obtain ⟨before, opening, after, split, isOpened, sameGap, starts,
      unclosed⟩ := sound.opened event.gapId startNs found
    exact {
      opened := by
        intro gapId startNs found
        rw [Dict.get?_erase] at found
        split at found
        next => simp at found
        next different => exact others gapId startNs different found
      pending := by
        intro gapId leaves
        rcases leavesOpen_concat_iff.mp leaves with
          ⟨opened, _⟩ | ⟨old, notClosed⟩
        · simp [closed] at opened
        · have different : gapId ≠ event.gapId := fun same =>
            notClosed ⟨same.symm, closed⟩
          rw [Dict.get?_erase, if_neg different]
          exact sound.pending gapId old
      intervals := by
        intro span member
        rcases List.mem_append.mp member with old | new
        · obtain ⟨opening, closing, isMatched, rfl⟩ :=
            sound.intervals span old
          exact ⟨opening, closing, isMatched.concat, rfl⟩
        · rw [List.mem_singleton.mp new, starts]
          refine ⟨opening, event,
            ⟨isOpened, before, after ++ [event], by simp [split], ?_⟩, rfl⟩
          rw [nextClosed_concat, sameGap, unclosed]
          simp [closed]
      closed := by
        intro opening' closing isMatched
        rcases matched_concat_cases isMatched with old | ⟨rfl, _, _⟩
        · obtain ⟨span, member, ends⟩ :=
            sound.closed opening' closing old
          exact ⟨span, List.mem_append_left _ member, ends⟩
        · exact ⟨_, List.mem_append_right _ List.mem_cons_self, rfl⟩ }

theorem matchSound_foldl (events : List GapEventV1) :
    MatchSound events (events.foldl ExplicitMatch.step {}) := by
  induction events using List.reverseRecOn with
  | nil => exact matchSound_nil
  | append_singleton events event induction =>
      rw [List.foldl_append, List.foldl_cons, List.foldl_nil]
      cases kind : event.state with
      | opened => exact induction.opening kind
      | closed => exact induction.closing kind

/-! ## The conflict -/

/-- Some gap of the ledger was ended by the event which lets it continue. -/
def RolledOver (events : List GapEventV1) : Prop :=
  ∃ opening closing, Matched events opening closing ∧
    closing.detail = continuesDetail

section Conflict

variable {symbol : String} {ledger : List GapEventV1}
variable {dayStartNs dayEndNs windowStartNs windowEndNs instant : Nat}

/-- The reader's events which end a gap are those of the journal. -/
theorem Matched.closing_mem
    {events : List GapEventV1} {opening closing : GapEventV1}
    (isMatched : Matched events opening closing) :
    opening ∈ events ∧ closing ∈ events ∧ closing.state = .closed := by
  obtain ⟨before, after, rfl, closed⟩ := isMatched.closed
  obtain ⟨member, _, isClosed⟩ := nextClosed_mem closed
  exact ⟨by simp, by simp [member], isClosed⟩

/--
An instant of a matched interval lies inside a gap, or is the last one of the
day and the gap continues.
-/
theorem insideGap_of_mem_explicitSpans
    (journal : JournalLedger dayEndNs ledger) {span : Span}
    (member : span ∈ explicitSpans symbol windowEndNs ledger)
    (lower : span.1 ≤ instant) (upper : instant < span.2) :
    InsideGap (explicitEvents symbol ledger) instant ∨
      (instant + 1 = dayEndNs ∧
        RolledOver (explicitEvents symbol ledger)) := by
  have sound := matchSound_foldl (explicitEvents symbol ledger)
  have positive : ∀ event ∈ explicitEvents symbol ledger,
      event.affectedFromRealtimeNs ≠ some 0 := fun event isEvent =>
    journal.positive event (mem_explicitEvents_iff.mp isEvent).1
  rcases List.mem_append.mp member with isMatched | isPending
  · obtain ⟨opening, closing, pair, rfl⟩ := sound.intervals span isMatched
    obtain ⟨isOpening, isClosing, isClosed⟩ := pair.closing_mem
    rw [explicitEffectiveNs_eq (positive opening isOpening)] at lower
    have effective : explicitEffectiveNs closing =
        closing.observedAtRealtimeNs := by
      rw [explicitEffectiveNs_eq (positive closing isClosing),
        GapEventV1.effectiveNs_of_closed isClosed]
    rw [explicitEndNs, effective] at upper
    by_cases early : instant < closing.observedAtRealtimeNs
    · obtain ⟨before, after, split, closed⟩ := pair.closed
      refine Or.inl ⟨before, opening, after, split, pair.opened, lower, ?_⟩
      intro other isOther
      rwa [← Option.some.inj (closed.symm.trans isOther)]
    · split at upper
      next continues =>
        have atEnd := journal.continues closing
          (mem_explicitEvents_iff.mp isClosing).1 isClosed continues
        exact Or.inr ⟨by omega, opening, closing, pair, continues⟩
      next => omega
  · obtain ⟨startNs, isValue, rfl⟩ := List.mem_map.mp isPending
    obtain ⟨gapId, found⟩ := (Dict.mem_values_iff _).mp isValue
    obtain ⟨before, opening, after, split, opened, sameGap, rfl, unclosed⟩ :=
      sound.opened gapId startNs found
    have isOpening : opening ∈ explicitEvents symbol ledger := by
      simp [split]
    rw [explicitEffectiveNs_eq (positive opening isOpening)] at lower
    refine Or.inl ⟨before, opening, after, split, opened, lower, ?_⟩
    intro closing closed
    rw [sameGap, unclosed] at closed
    simp at closed

/-- A gap which continues makes the last instant of the day invalid. -/
theorem exists_explicitSpan_of_rolledOver
    (windowEndNs : Nat) (journal : JournalLedger dayEndNs ledger)
    (effective : ∀ event ∈ ledger, event.effectiveNs < dayEndNs)
    (rolledOver : RolledOver (explicitEvents symbol ledger)) :
    ∃ span ∈ explicitSpans symbol windowEndNs ledger,
      span.1 < dayEndNs ∧ span.2 = dayEndNs := by
  have sound := matchSound_foldl (explicitEvents symbol ledger)
  obtain ⟨opening, closing, pair, continues⟩ := rolledOver
  obtain ⟨_, isClosing, isClosed⟩ := pair.closing_mem
  have inLedger := (mem_explicitEvents_iff.mp isClosing).1
  obtain ⟨span, member, ends⟩ := sound.closed opening closing pair
  refine ⟨span, List.mem_append_left _ member, ?_, ?_⟩
  · obtain ⟨first, _, firstPair, rfl⟩ := sound.intervals span member
    have isFirst := (mem_explicitEvents_iff.mp firstPair.closing_mem.1).1
    rw [explicitEffectiveNs_eq (journal.positive first isFirst)]
    exact effective first isFirst
  · rw [ends, explicitEndNs, if_pos continues,
      explicitEffectiveNs_eq (journal.positive closing inLedger),
      GapEventV1.effectiveNs_of_closed isClosed]
    exact journal.continues closing inLedger isClosed continues

/--
Valid spans which avoid the gaps conflict with the explicit ones exactly in
the last instant of the day, when it is valid and a gap continues.
-/
theorem conflictingNs_eq_zero_iff_lastInstant
    {valid : List Span}
    (journal : JournalLedger dayEndNs ledger)
    (effective : ∀ event ∈ ledger, event.effectiveNs < dayEndNs)
    (avoids : ∀ instant ∈ coverage valid,
      ¬ InsideGap (transportGapEvents symbol ledger) instant)
    (nonempty : windowStartNs < windowEndNs)
    (inDay : windowEndNs ≤ dayEndNs) :
    (symbolCoverage symbol windowStartNs windowEndNs valid
        ledger).conflictingNs = 0 ↔
      ¬ (windowEndNs = dayEndNs ∧
        RolledOver (explicitEvents symbol ledger) ∧
        dayEndNs - 1 ∈ coverage valid) := by
  simp only [symbolCoverage, Int.natCast_eq_zero,
    intersectionDuration_eq_zero_iff]
  constructor
  · rintro disjoint ⟨rfl, rolledOver, isValid⟩
    obtain ⟨span, member, starts, ends⟩ :=
      exists_explicitSpan_of_rolledOver windowEndNs journal effective
        rolledOver
    refine disjoint (windowEndNs - 1) (by omega) (by omega) isValid ?_
    have clipped : (max span.1 windowStartNs, windowEndNs) ∈
        explicitInvalidIntervals symbol windowStartNs windowEndNs ledger :=
      List.mem_filterMap.mpr ⟨span, member, clipSpan_eq_some_iff.mpr
        ⟨by omega, by rw [ends, min_self]⟩⟩
    obtain ⟨beyond, _⟩ :=
      extendedEndNs_spec valid (le_refl windowEndNs)
    exact mem_coverage_iff.mpr
      ⟨_, List.mem_map_of_mem clipped, by dsimp only; omega,
        by dsimp only; omega⟩
  · intro noConflict instant fromStart beforeEnd isValid isInvalid
    obtain ⟨_, isExtended, lower, upper⟩ := mem_coverage_iff.mp isInvalid
    obtain ⟨clipped, isClipped, rfl⟩ := List.mem_map.mp isExtended
    obtain ⟨span, isSpan, isClip⟩ := List.mem_filterMap.mp isClipped
    obtain ⟨_, rfl⟩ := clipSpan_eq_some_iff.mp isClip
    obtain ⟨_, unextended⟩ := extendedEndNs_spec valid
      (min_le_right span.2 windowEndNs)
    dsimp only at lower upper unextended
    have inSpan : instant < min span.2 windowEndNs := by
      by_contra beyond
      exact unextended instant (not_lt.mp beyond) upper isValid
    have fromSpan : span.1 ≤ instant := by omega
    have beforeSpan : instant < span.2 := by omega
    rcases insideGap_of_mem_explicitSpans journal isSpan fromSpan
        beforeSpan with inside | ⟨last, rolledOver⟩
    · exact avoids instant isValid
        (insideGap_of_sortKeys (explicitEvents_sortKeys journal) inside)
    · refine noConflict ⟨by omega, rolledOver, ?_⟩
      have same : dayEndNs - 1 = instant := by omega
      rwa [same]

end Conflict

/-! ## The last instant of the day -/

/-- The last instant is valid exactly when the day ends with an authority. -/
theorem RunSound.lastInstant_valid_iff
    {past history : List TimelineEvent} {inherited : Option String}
    {start state : RunState} {startNs endNs now : Nat}
    (sound : RunSound past inherited start startNs history now state)
    (notPast : now < endNs) :
    endNs - 1 ∈ coverage
        ((state.finish endNs).intervals.map ValidityInterval.span) ↔
      state.authority.isSome := by
  rw [mem_coverage_iff]
  constructor
  · rintro ⟨_, isSpan, _, upper⟩
    obtain ⟨interval, member, rfl⟩ := List.mem_map.mp isSpan
    rcases RunState.mem_endInterval_iff.mp (List.mem_of_mem_filter member)
      with old | ⟨connection, _, authority, _⟩
    · have ended := (sound.ended interval old).untilNow
      simp only [ValidityInterval.span] at upper
      omega
    · rw [authority]
      rfl
  · intro some
    obtain ⟨connection, authority⟩ := Option.isSome_iff_exists.mp some
    have since : state.validFrom ≠ none := fun absent => by
      simp [sound.paired.mpr absent] at authority
    obtain ⟨validFrom, isFrom⟩ := Option.ne_none_iff_exists'.mp since
    obtain ⟨_, _, _, running, _⟩ :=
      sound.running connection validFrom authority isFrom
    have begun := running.untilNow
    have isLast : (⟨validFrom, endNs, connection, "utc_day_end"⟩ :
        ValidityInterval) ∈ (state.finish endNs).intervals := by
      refine List.mem_filter.mpr ⟨RunState.mem_endInterval_iff.mpr
        (Or.inr ⟨connection, validFrom, authority, isFrom, rfl⟩), ?_⟩
      simp only [decide_eq_true_eq]
      omega
    refine ⟨_, List.mem_map_of_mem isLast, ?_, ?_⟩
    · simp only [ValidityInterval.span]
      omega
    · simp only [ValidityInterval.span]
      omega

namespace L2DayReconstructor

variable {day : L2DayReconstructor} {files : DayFiles} {output : DayOutput}

/--
The two readers agree on a day unless its window reaches midnight, some gap
of the symbol continues into the next day, no gap is open in the
reconstructor's reading, and the last book to become `VALID` since the latest
opening is still `VALID`.
-/
theorem conflictingNs_eq_zero_iff
    {past : List TimelineEvent} {start : RunState}
    {windowStartNs windowEndNs : Nat}
    (wellFormed : WellFormedDay day files)
    (journal : JournalLedger day.dayEndNs files.transportGaps)
    (admissible :
      AdmissibleCheckpoint past day.dayStartNs files.previousCheckpoint)
    (initial :
      initialState day.dayStartNs files.previousCheckpoint = .ok start)
    (completed : day.run files = .ok output)
    (nonempty : windowStartNs < windowEndNs)
    (inDay : windowEndNs ≤ day.dayEndNs) :
    (symbolCoverage day.exchangeSymbol windowStartNs windowEndNs
        (output.intervals.map ValidityInterval.span)
        files.transportGaps).conflictingNs = 0 ↔
      ¬ (windowEndNs = day.dayEndNs ∧
        RolledOver
          (explicitEvents day.exchangeSymbol files.transportGaps) ∧
        openGaps
          (transportGapEvents day.exchangeSymbol files.transportGaps) = ∅ ∧
        ∃ connection,
          LastValidated start.books (day.dayTimeline files) connection ∧
            HoldsValid start.books (day.dayTimeline files) connection) := by
  have avoids : ∀ instant ∈
      coverage (output.intervals.map ValidityInterval.span),
      ¬ InsideGap
        (transportGapEvents day.exchangeSymbol files.transportGaps)
        instant := by
    obtain ⟨final, inDay, sound, _⟩ :=
      dayTimeline_sound (fun _ _ => True)
        (fun _ _ _ _ _ _ _ => trivial) wellFormed admissible initial trivial
    obtain ⟨start', initial', _, intervals, _⟩ := run_completed completed
    have sameStart := Except.ok.inj (initial.symm.trans initial')
    subst sameStart
    intro instant covered
    obtain ⟨_, isSpan, lower, upper⟩ := mem_coverage_iff.mp covered
    obtain ⟨interval, member, rfl⟩ := List.mem_map.mp isSpan
    rw [intervals] at member
    have apart := ((sound.finish inDay.le).1 interval member).2.apart
    rw [dayTimeline, timeline, gapsOf_mergeTimeline] at apart
    exact apart.not_insideGap lower upper
  rw [conflictingNs_eq_zero_iff_lastInstant journal
    (fun event member => (wellFormed.effective event member).2) avoids
    nonempty inDay, not_iff_not]
  refine and_congr_right fun _ => and_congr_right fun rolledOver => ?_
  obtain ⟨final, inDay, sound, read⟩ := dayTimeline_sound
    (AuthorityRead (inheritedConnection files.previousCheckpoint)
      start.books)
    (fun _ _ _ _ sound ordered read => read.handleEvent sound ordered)
    wellFormed admissible initial
    (initialState_restored admissible initial).authorityRead
  obtain ⟨start', initial', _, intervals, _⟩ := run_completed completed
  have sameStart := Except.ok.inj (initial.symm.trans initial')
  subst sameStart
  have opened : ∃ event ∈ day.dayTimeline files, event.Opens := by
    obtain ⟨opening, closing, pair, _⟩ := rolledOver
    obtain ⟨inLedger, relevant⟩ :=
      mem_explicitEvents_iff.mp pair.closing_mem.1
    refine ⟨.gap opening, mem_mergeTimeline_iff.mpr
      (Or.inl ⟨opening, ?_, rfl⟩), pair.opened⟩
    exact GapEventV1.mem_sortEvents.mpr
      (List.mem_filter.mpr ⟨inLedger, by simpa using relevant⟩)
  rw [intervals, sound.lastInstant_valid_iff inDay,
    read.isSome_iff sound opened, dayTimeline, timeline,
    gapsOf_mergeTimeline]

end L2DayReconstructor

/-- A gap opens, the book is bridged again inside it, and midnight comes. -/
def rolledOverDay : L2DayReconstructor := ⟨"collector", 1, "BTCUSDT"⟩

def rolledOverFiles : DayFiles where
  normalized := some { formalStartRealtimeNs := some (midnightNs 1) }
  depthRows :=
    [.depthSnapshot ⟨"a", 1, midnightNs 1 + 500, 10, [(1, 1)], [(2, 1)]⟩,
      .depth ⟨"a", 2, midnightNs 1 + 600, 10, 11, 9, [], [], []⟩]
  transportGaps :=
    [{ gapId := "gap-0001", state := .opened, reason := .connectionLost
       observedAtRealtimeNs := midnightNs 1 + 300 },
      { gapId := "gap-0001", state := .closed, reason := .connectionLost
        observedAtRealtimeNs := midnightNs 2 - 1
        detail := continuesDetail
        closedUnaffected := GapEventV1.unaffected .closed }]

theorem rolledOverFiles_wellFormed :
    WellFormedDay rolledOverDay rolledOverFiles where
  ordered := by decide
  received := by decide
  named := by decide
  effective := by decide

theorem rolledOverFiles_journal :
    JournalLedger rolledOverDay.dayEndNs rolledOverFiles.transportGaps where
  positive := by decide
  continues := by decide

theorem rolledOverFiles_admissible :
    AdmissibleCheckpoint [] rolledOverDay.dayStartNs
      rolledOverFiles.previousCheckpoint where
  received := by simp
  named := by simp [rolledOverFiles]
  anchored := by simp [rolledOverFiles]

/-- The last nanosecond of the day is valid and explicitly invalid at once. -/
theorem rolledOver_conflictingNs :
    WellFormedDay rolledOverDay rolledOverFiles ∧
      JournalLedger rolledOverDay.dayEndNs rolledOverFiles.transportGaps ∧
      (rolledOverDay.run rolledOverFiles).toOption.map
          (fun output =>
            (symbolCoverage rolledOverDay.exchangeSymbol
              rolledOverDay.dayStartNs rolledOverDay.dayEndNs
              (output.intervals.map ValidityInterval.span)
              rolledOverFiles.transportGaps).conflictingNs) = some 1 :=
  ⟨rolledOverFiles_wellFormed, rolledOverFiles_journal, by decide +kernel⟩

/-- The condition of the equivalence fails on that day, as it has to. -/
theorem rolledOver_lastValidated :
    ∃ connection,
      LastValidated Dict.empty (rolledOverDay.dayTimeline rolledOverFiles)
          connection ∧
        HoldsValid Dict.empty (rolledOverDay.dayTimeline rolledOverFiles)
          connection := by
  have conflict : (rolledOverDay.run rolledOverFiles).toOption.map
      (fun output =>
        (symbolCoverage rolledOverDay.exchangeSymbol
          rolledOverDay.dayStartNs rolledOverDay.dayEndNs
          (output.intervals.map ValidityInterval.span)
          rolledOverFiles.transportGaps).conflictingNs) = some 1 := by
    decide +kernel
  have initial : initialState rolledOverDay.dayStartNs
      rolledOverFiles.previousCheckpoint = .ok {} := rfl
  cases completed : rolledOverDay.run rolledOverFiles with
  | error problem => simp [completed, Except.toOption] at conflict
  | ok output =>
      have agree := L2DayReconstructor.conflictingNs_eq_zero_iff
        rolledOverFiles_wellFormed rolledOverFiles_journal
        rolledOverFiles_admissible initial completed
        (midnightNs_lt_succ 1) (le_refl _)
      have nonzero : (symbolCoverage rolledOverDay.exchangeSymbol
          rolledOverDay.dayStartNs rolledOverDay.dayEndNs
          (output.intervals.map ValidityInterval.span)
          rolledOverFiles.transportGaps).conflictingNs ≠ 0 := by
        simp only [completed, Except.toOption, Option.map_some,
          Option.some.injEq] at conflict
        rw [conflict]
        decide
      have conflicts := not_not.mp (mt agree.mpr nonzero)
      exact conflicts.2.2.2

end ShadowDataPlane.Central
