import ShadowDataPlane.Central.Reconstructor
import ShadowDataPlane.Foundation.StableSort

/-!
# The merged timeline of a day

`run` interleaves two inputs as it goes.  Here the interleaving is a list of
its own, `timeline`, and the reconstruction is a fold of `handleEvent` over
it.  The timeline is ordered by time, a gap event standing before every row
received at its effective instant.

`sinceOpening` cuts a timeline after its latest gap opening: whatever a book
holds was received after that point.
-/

namespace ShadowDataPlane.Central

open ShadowDataPlane.Foundation
open ShadowDataPlane.Contracts

/-- A gap event or a depth row, in the order `run` handles them. -/
inductive TimelineEvent where
  | gap (event : GapEventV1)
  | row (received : DepthRow)
deriving DecidableEq

namespace TimelineEvent

/-- When an event takes its place on the timeline. -/
def atNs : TimelineEvent → Nat
  | .gap event => event.effectiveNs
  | .row received => received.receivedNs

def gap? : TimelineEvent → Option GapEventV1
  | .gap event => some event
  | .row _ => none

def row? : TimelineEvent → Option DepthRow
  | .gap _ => none
  | .row received => some received

/-- The event opens a gap. -/
def Opens : TimelineEvent → Prop
  | .gap event => event.state = .opened
  | .row _ => False

instance (event : TimelineEvent) : Decidable event.Opens :=
  match event with
  | .gap event => inferInstanceAs (Decidable (event.state = .opened))
  | .row _ => inferInstanceAs (Decidable False)

end TimelineEvent

/-- The depth rows of a timeline. -/
def rowsOf (events : List TimelineEvent) : List DepthRow :=
  events.filterMap TimelineEvent.row?

/-- The gap events of a timeline. -/
def gapsOf (events : List TimelineEvent) : List GapEventV1 :=
  events.filterMap TimelineEvent.gap?

/-- Merge sorted gap events and rows as `run` does. -/
def mergeTimeline : List GapEventV1 → List DepthRow → List TimelineEvent
  | gaps, [] => gaps.map .gap
  | gaps, row :: rows =>
      (gaps.takeWhile fun event => event.effectiveNs ≤ row.receivedNs).map
          .gap ++
        .row row ::
          mergeTimeline
            (gaps.dropWhile fun event => event.effectiveNs ≤ row.receivedNs)
            rows

/-- The timeline of one symbol. -/
def timeline (symbol : String) (rows : List DepthRow)
    (ledger : List GapEventV1) : List TimelineEvent :=
  mergeTimeline (transportGapEvents symbol ledger) rows

def RunState.handleEvent (state : RunState) : TimelineEvent → RunState
  | .gap event => state.handleGap event
  | .row row => state.handleRow row

theorem RunState.drainGaps_eq
    (receivedNs : Nat) (gaps : List GapEventV1) (state : RunState) :
    drainGaps receivedNs gaps state =
      ((gaps.takeWhile fun event => event.effectiveNs ≤ receivedNs).foldl
          handleGap state,
        gaps.dropWhile fun event => event.effectiveNs ≤ receivedNs) := by
  induction gaps generalizing state with
  | nil => rfl
  | cons event rest induction =>
      simp only [drainGaps, List.takeWhile_cons, List.dropWhile_cons]
      split
      next due => simp [due, induction]
      next later => simp [later]

/-- The reconstruction is a fold over the timeline. -/
theorem RunState.advance_eq_foldl
    (state : RunState) (symbol : String)
    (rows : List DepthRow) (ledger : List GapEventV1) :
    state.advance symbol rows ledger =
      (timeline symbol rows ledger).foldl handleEvent state := by
  unfold advance timeline
  generalize transportGapEvents symbol ledger = gaps
  induction rows generalizing gaps state with
  | nil =>
      simp only [consumeRows, mergeTimeline, List.foldl_map]
      rfl
  | cons row rows induction =>
      simp only [consumeRows, mergeTimeline, drainGaps_eq, List.foldl_append,
        List.foldl_map, List.foldl_cons]
      exact induction _ _

/-! ## The order of a timeline -/

theorem gapsOf_map_gap (gaps : List GapEventV1) :
    gapsOf (gaps.map .gap) = gaps := by
  induction gaps with
  | nil => rfl
  | cons event rest induction =>
      simpa [gapsOf, TimelineEvent.gap?] using induction

theorem rowsOf_map_gap (gaps : List GapEventV1) :
    rowsOf (gaps.map .gap) = [] := by
  induction gaps with
  | nil => rfl
  | cons event rest induction =>
      simp [rowsOf, TimelineEvent.row?]

theorem gapsOf_append (left right : List TimelineEvent) :
    gapsOf (left ++ right) = gapsOf left ++ gapsOf right :=
  List.filterMap_append

theorem rowsOf_append (left right : List TimelineEvent) :
    rowsOf (left ++ right) = rowsOf left ++ rowsOf right :=
  List.filterMap_append

@[simp]
theorem gapsOf_mergeTimeline
    (gaps : List GapEventV1) (rows : List DepthRow) :
    gapsOf (mergeTimeline gaps rows) = gaps := by
  induction rows generalizing gaps with
  | nil => exact gapsOf_map_gap gaps
  | cons row rows induction =>
      have tail := induction
        (gaps.dropWhile fun event => event.effectiveNs ≤ row.receivedNs)
      rw [mergeTimeline, gapsOf_append, gapsOf_map_gap]
      simp only [gapsOf, List.filterMap_cons, TimelineEvent.gap?] at tail ⊢
      rw [tail]
      exact List.takeWhile_append_dropWhile

@[simp]
theorem rowsOf_mergeTimeline
    (gaps : List GapEventV1) (rows : List DepthRow) :
    rowsOf (mergeTimeline gaps rows) = rows := by
  induction rows generalizing gaps with
  | nil => exact rowsOf_map_gap gaps
  | cons row rows induction =>
      have tail := induction
        (gaps.dropWhile fun event => event.effectiveNs ≤ row.receivedNs)
      rw [mergeTimeline, rowsOf_append, rowsOf_map_gap]
      simp only [rowsOf, List.filterMap_cons, TimelineEvent.row?] at tail ⊢
      simpa using tail

theorem mem_rowsOf_iff {events : List TimelineEvent} {row : DepthRow} :
    row ∈ rowsOf events ↔ .row row ∈ events := by
  simp only [rowsOf, List.mem_filterMap]
  constructor
  · rintro ⟨event, member, isRow⟩
    cases event with
    | gap event => simp [TimelineEvent.row?] at isRow
    | row other =>
        rw [← Option.some.inj isRow]
        exact member
  · exact fun member => ⟨.row row, member, rfl⟩

theorem mem_gapsOf_iff {events : List TimelineEvent} {event : GapEventV1} :
    event ∈ gapsOf events ↔ .gap event ∈ events := by
  simp only [gapsOf, List.mem_filterMap]
  constructor
  · rintro ⟨other, member, isGap⟩
    cases other with
    | row row => simp [TimelineEvent.gap?] at isGap
    | gap other =>
        rw [← Option.some.inj isGap]
        exact member
  · exact fun member => ⟨.gap event, member, rfl⟩

theorem mem_mergeTimeline_iff
    {gaps : List GapEventV1} {rows : List DepthRow} {event : TimelineEvent} :
    event ∈ mergeTimeline gaps rows ↔
      (∃ gap ∈ gaps, event = .gap gap) ∨ ∃ row ∈ rows, event = .row row := by
  constructor
  · intro member
    cases event with
    | gap gap =>
        refine Or.inl ⟨gap, ?_, rfl⟩
        rw [← gapsOf_mergeTimeline gaps rows]
        exact mem_gapsOf_iff.mpr member
    | row row =>
        refine Or.inr ⟨row, ?_, rfl⟩
        rw [← rowsOf_mergeTimeline gaps rows]
        exact mem_rowsOf_iff.mpr member
  · rintro (⟨gap, member, rfl⟩ | ⟨row, member, rfl⟩)
    · rw [← mem_gapsOf_iff, gapsOf_mergeTimeline]
      exact member
    · rw [← mem_rowsOf_iff, rowsOf_mergeTimeline]
      exact member

/-- Ordered gap events and ordered rows merge to an ordered timeline. -/
theorem mergeTimeline_ordered
    {gaps : List GapEventV1} {rows : List DepthRow}
    (gapsOrdered : gaps.Pairwise fun left right =>
      left.effectiveNs ≤ right.effectiveNs)
    (rowsOrdered : rows.Pairwise fun left right =>
      left.receivedNs ≤ right.receivedNs) :
    (mergeTimeline gaps rows).Pairwise fun left right =>
      left.atNs ≤ right.atNs := by
  induction rows generalizing gaps with
  | nil => exact List.pairwise_map.mpr gapsOrdered
  | cons row rows induction =>
      obtain ⟨rowFirst, tailOrdered⟩ := List.pairwise_cons.mp rowsOrdered
      let due : GapEventV1 → Bool := fun event =>
        event.effectiveNs ≤ row.receivedNs
      have later : ∀ event ∈ gaps.dropWhile due,
          row.receivedNs ≤ event.effectiveNs := by
        intro event member
        cases remaining : gaps.dropWhile due with
        | nil => simp [remaining] at member
        | cons first rest =>
            have notDue := List.head?_dropWhile_not due gaps
            rw [remaining] at notDue
            have firstLater : row.receivedNs < first.effectiveNs := by
              simpa [due] using notDue
            have restOrdered :=
              gapsOrdered.sublist (List.dropWhile_sublist due)
            rw [remaining] at restOrdered member
            rcases List.mem_cons.mp member with rfl | inRest
            · exact firstLater.le
            · exact firstLater.le.trans
                ((List.pairwise_cons.mp restOrdered).1 event inRest)
      have rowBeforeRest : ∀ event ∈ mergeTimeline (gaps.dropWhile due) rows,
          row.receivedNs ≤ event.atNs := by
        intro event member
        rcases mem_mergeTimeline_iff.mp member with
          ⟨gap, gapMember, rfl⟩ | ⟨other, rowMember, rfl⟩
        · exact later gap gapMember
        · exact rowFirst other rowMember
      have tail := induction
        (gapsOrdered.sublist (List.dropWhile_sublist due)) tailOrdered
      refine List.pairwise_append.mpr ⟨?_, ?_, ?_⟩
      · exact List.pairwise_map.mpr
          (gapsOrdered.sublist (List.takeWhile_sublist due))
      · exact List.pairwise_cons.mpr ⟨rowBeforeRest, tail⟩
      · intro early earlyMember late lateMember
        obtain ⟨gap, gapMember, rfl⟩ := List.mem_map.mp earlyMember
        have gapDue : gap.effectiveNs ≤ row.receivedNs := by
          simpa [due] using List.mem_takeWhile_imp gapMember
        rcases List.mem_cons.mp lateMember with rfl | inRest
        · exact gapDue
        · exact gapDue.trans (rowBeforeRest late inRest)

theorem timeline_ordered
    {symbol : String} {rows : List DepthRow} {ledger : List GapEventV1}
    (rowsOrdered : rows.Pairwise fun left right =>
      left.receivedNs ≤ right.receivedNs) :
    (timeline symbol rows ledger).Pairwise fun left right =>
      left.atNs ≤ right.atNs :=
  mergeTimeline_ordered
    ((GapEventV1.sortEvents_sorted _).imp
      GapEventV1.effectiveNs_le_of_sortKey_le)
    rowsOrdered

/-! ## Cutting a timeline -/

theorem sortEvents_append
    {boundaryNs : Nat} {left right : List GapEventV1}
    (before : ∀ event ∈ left, event.effectiveNs < boundaryNs)
    (after : ∀ event ∈ right, boundaryNs ≤ event.effectiveNs) :
    GapEventV1.sortEvents (left ++ right) =
      GapEventV1.sortEvents left ++ GapEventV1.sortEvents right := by
  apply insertionSort_append
  intro early isEarly late isLate
  apply Prod.Lex.le_iff.mpr
  exact Or.inl ((before early isEarly).trans_le (after late isLate))

/-- Inputs on either side of an instant merge to two timelines in a row. -/
theorem mergeTimeline_append
    {boundaryNs : Nat} {gaps laterGaps : List GapEventV1}
    {rows laterRows : List DepthRow}
    (gapsBefore : ∀ event ∈ gaps, event.effectiveNs < boundaryNs)
    (gapsAfter : ∀ event ∈ laterGaps, boundaryNs ≤ event.effectiveNs)
    (rowsBefore : ∀ row ∈ rows, row.receivedNs < boundaryNs)
    (rowsAfter : ∀ row ∈ laterRows, boundaryNs ≤ row.receivedNs) :
    mergeTimeline (gaps ++ laterGaps) (rows ++ laterRows) =
      mergeTimeline gaps rows ++ mergeTimeline laterGaps laterRows := by
  induction rows generalizing gaps with
  | nil =>
      cases laterRows with
      | nil => exact List.map_append
      | cons row laterRows =>
          have due : ∀ event ∈ gaps,
              decide (event.effectiveNs ≤ row.receivedNs) = true := by
            intro event member
            simpa using (gapsBefore event member).le.trans
              (rowsAfter row List.mem_cons_self)
          simp only [List.nil_append, mergeTimeline,
            List.takeWhile_append_of_pos due,
            List.dropWhile_append_of_pos due, List.map_append,
            List.append_assoc]
  | cons row rows induction =>
      have rowBefore := rowsBefore row List.mem_cons_self
      let due : GapEventV1 → Bool := fun event =>
        event.effectiveNs ≤ row.receivedNs
      have notDue : ∀ event ∈ laterGaps, due event = false := by
        intro event member
        simpa [due] using rowBefore.trans_le (gapsAfter event member)
      have taken : laterGaps.takeWhile due = [] ∧
          laterGaps.dropWhile due = laterGaps := by
        cases laterGaps with
        | nil => exact ⟨rfl, rfl⟩
        | cons event rest =>
            have first := notDue event List.mem_cons_self
            simp [first]
      have cut : (gaps ++ laterGaps).takeWhile due = gaps.takeWhile due ∧
          (gaps ++ laterGaps).dropWhile due =
            gaps.dropWhile due ++ laterGaps := by
        rw [List.takeWhile_append, List.dropWhile_append, taken.1, taken.2]
        constructor
        · split
          next whole => simp [(List.takeWhile_prefix due).eq_of_length whole]
          next => rfl
        · split
          next empty =>
            rw [List.isEmpty_iff.mp empty, List.nil_append]
          next => rfl
      have tail := induction
        (fun event member => gapsBefore event
          ((List.dropWhile_sublist due).subset member))
        (fun other member => rowsBefore other
          (List.mem_cons_of_mem _ member))
      show mergeTimeline (gaps ++ laterGaps) (row :: (rows ++ laterRows)) = _
      simp only [mergeTimeline]
      rw [cut.1, cut.2, tail]
      simp only [due, List.append_assoc, List.cons_append]

theorem timeline_append
    {boundaryNs : Nat} {symbol : String}
    {ledger laterLedger : List GapEventV1}
    {rows laterRows : List DepthRow}
    (gapsBefore : ∀ event ∈ ledger, event.effectiveNs < boundaryNs)
    (gapsAfter : ∀ event ∈ laterLedger, boundaryNs ≤ event.effectiveNs)
    (rowsBefore : ∀ row ∈ rows, row.receivedNs < boundaryNs)
    (rowsAfter : ∀ row ∈ laterRows, boundaryNs ≤ row.receivedNs) :
    timeline symbol (rows ++ laterRows) (ledger ++ laterLedger) =
      timeline symbol rows ledger ++
        timeline symbol laterRows laterLedger := by
  have before : ∀ event ∈ ledger.filter (·.Relevant symbol .depth),
      event.effectiveNs < boundaryNs := fun event member =>
    gapsBefore event (List.mem_of_mem_filter member)
  have after : ∀ event ∈ laterLedger.filter (·.Relevant symbol .depth),
      boundaryNs ≤ event.effectiveNs := fun event member =>
    gapsAfter event (List.mem_of_mem_filter member)
  rw [timeline, transportGapEvents, List.filter_append,
    sortEvents_append before after]
  apply mergeTimeline_append
  · exact fun event member => before event (GapEventV1.mem_sortEvents.mp member)
  · exact fun event member => after event (GapEventV1.mem_sortEvents.mp member)
  · exact rowsBefore
  · exact rowsAfter

/-! ## The part after the latest opening -/

/-- Forget what came before an event which opens a gap. -/
def extendSince (recent : List TimelineEvent) (event : TimelineEvent) :
    List TimelineEvent :=
  if event.Opens then [] else recent ++ [event]

/-- The events after the latest gap opening. -/
def sinceOpening (events : List TimelineEvent) : List TimelineEvent :=
  events.foldl extendSince []

theorem sinceOpening_concat (events : List TimelineEvent)
    (event : TimelineEvent) :
    sinceOpening (events ++ [event]) =
      if event.Opens then [] else sinceOpening events ++ [event] := by
  simp [sinceOpening, extendSince]

end ShadowDataPlane.Central
