import ShadowDataPlane.Central.MidnightHandover

/-!
# A close without a matching open

A `CLOSED` event whose gap is not open removes nothing from the active gaps.
The code then restores the latest valid connection all the same, although it
never lost it: the running interval starts over at the close, and what it had
covered until then is in no interval.

The two runs are compared step by step.  `Delayed` relates the state without
the close to the one with it, as long as both have the same events before
them: the interval of one of them starts later, runs or has ended.
-/

namespace ShadowDataPlane.Central

open ShadowDataPlane.Foundation
open ShadowDataPlane.Contracts

/-! ## One event more on a timeline -/

theorem takeWhile_append_of_none
    {α : Type*} {test : α → Bool} (left : List α) {right : List α}
    (none : ∀ item ∈ right, test item = false) :
    (left ++ right).takeWhile test = left.takeWhile test := by
  have stops : right.takeWhile test = [] := by
    cases right with
    | nil => rfl
    | cons head rest =>
        exact List.takeWhile_cons_of_neg
          (by simp [none head List.mem_cons_self])
  rw [List.takeWhile_append, stops]
  split
  next whole =>
    rw [List.append_nil]
    exact ((List.takeWhile_prefix test).eq_of_length whole).symm
  next => rfl

theorem dropWhile_append_of_none
    {α : Type*} {test : α → Bool} (left : List α) {right : List α}
    (none : ∀ item ∈ right, test item = false) :
    (left ++ right).dropWhile test = left.dropWhile test ++ right := by
  have stops : right.dropWhile test = right := by
    cases right with
    | nil => rfl
    | cons head rest =>
        exact List.dropWhile_cons_of_neg
          (by simp [none head List.mem_cons_self])
  rw [List.dropWhile_append, stops]
  split
  next empty => rw [List.isEmpty_iff.mp empty, List.nil_append]
  next => rfl

/-- An event more stands somewhere among the others when they are merged. -/
theorem exists_mergeTimeline_insert
    {before after : List GapEventV1} {event : GapEventV1}
    (sorted : (before ++ event :: after).Pairwise fun left right =>
      left.effectiveNs ≤ right.effectiveNs)
    (rows : List DepthRow) :
    ∃ history future,
      mergeTimeline (before ++ event :: after) rows =
          history ++ .gap event :: future ∧
        mergeTimeline (before ++ after) rows = history ++ future := by
  induction rows generalizing before with
  | nil =>
      refine ⟨before.map .gap, after.map .gap, ?_, ?_⟩
      · simp [mergeTimeline]
      · simp [mergeTimeline]
  | cons row rest induction =>
      rcases List.pairwise_append.mp sorted with ⟨_, tailSorted, apart⟩
      rw [mergeTimeline, mergeTimeline]
      by_cases due : event.effectiveNs ≤ row.receivedNs
      · have allDue : ∀ other ∈ before,
            decide (other.effectiveNs ≤ row.receivedNs) = true := by
          intro other member
          exact decide_eq_true
            ((apart other member event List.mem_cons_self).trans due)
        rw [List.takeWhile_append_of_pos allDue,
          List.takeWhile_append_of_pos allDue,
          List.dropWhile_append_of_pos allDue,
          List.dropWhile_append_of_pos allDue,
          List.takeWhile_cons_of_pos (by simpa using due),
          List.dropWhile_cons_of_pos (by simpa using due)]
        rw [List.map_append, List.map_append, List.map_cons,
          List.append_assoc, List.append_assoc, List.cons_append]
        exact ⟨_, _, rfl, rfl⟩
      · have noneDue : ∀ other ∈ event :: after,
            decide (other.effectiveNs ≤ row.receivedNs) = false := by
          intro other member
          apply decide_eq_false
          rcases List.mem_cons.mp member with rfl | inAfter
          · exact due
          · have behind := (List.pairwise_cons.mp tailSorted).1 other inAfter
            omega
        have noneLater := fun other member =>
          noneDue other (List.mem_cons_of_mem event member)
        rw [takeWhile_append_of_none before noneDue,
          takeWhile_append_of_none before noneLater,
          dropWhile_append_of_none before noneDue,
          dropWhile_append_of_none before noneLater]
        have restSorted : ((before.dropWhile fun other =>
            other.effectiveNs ≤ row.receivedNs) ++
              event :: after).Pairwise fun left right =>
                left.effectiveNs ≤ right.effectiveNs :=
          sorted.sublist ((List.dropWhile_sublist _).append_right _)
        rcases induction restSorted with ⟨history, future, withEvent, without⟩
        rw [withEvent, without, ← List.cons_append, ← List.cons_append,
          ← List.append_assoc, ← List.append_assoc]
        exact ⟨_, _, rfl, rfl⟩

/-- The ledger's own place for an event which concerns the symbol. -/
theorem exists_timeline_insert
    {symbol : String} {event : GapEventV1}
    (relevant : event.Relevant symbol .depth)
    (rows : List DepthRow) (earlier later : List GapEventV1) :
    ∃ history future,
      timeline symbol rows (earlier ++ event :: later) =
          history ++ .gap event :: future ∧
        timeline symbol rows (earlier ++ later) = history ++ future := by
  have total : Std.Total fun left right : GapEventV1 =>
      left.sortKey ≤ right.sortKey :=
    ⟨fun left right => le_total left.sortKey right.sortKey⟩
  have trans : IsTrans GapEventV1 fun left right =>
      left.sortKey ≤ right.sortKey :=
    ⟨fun _ _ _ first second => le_trans first second⟩
  unfold timeline transportGapEvents
  rw [List.filter_append, List.filter_append,
    List.filter_cons_of_pos (by simpa using relevant)]
  rcases exists_insertionSort_insert
    (fun left right : GapEventV1 => left.sortKey ≤ right.sortKey) event
    (earlier.filter fun other => other.Relevant symbol .depth)
    (later.filter fun other => other.Relevant symbol .depth) with
    ⟨before, after, withEvent, without⟩
  have sorted := GapEventV1.sortEvents_sorted
    ((earlier.filter fun other => other.Relevant symbol .depth) ++
      event :: later.filter fun other => other.Relevant symbol .depth)
  rw [GapEventV1.sortEvents, withEvent] at sorted
  rw [GapEventV1.sortEvents, GapEventV1.sortEvents, withEvent, without]
  exact exists_mergeTimeline_insert
    (sorted.imp fun below => GapEventV1.effectiveNs_le_of_sortKey_le below)
    rows

/-- An event of another symbol or stream stands nowhere. -/
theorem timeline_insert_irrelevant
    {symbol : String} {event : GapEventV1}
    (irrelevant : ¬ event.Relevant symbol .depth)
    (rows : List DepthRow) (earlier later : List GapEventV1) :
    timeline symbol rows (earlier ++ event :: later) =
      timeline symbol rows (earlier ++ later) := by
  unfold timeline transportGapEvents
  rw [List.filter_append, List.filter_append,
    List.filter_cons_of_neg (by simpa using irrelevant)]

/-! ## Intervals are only written -/

/-- The interval which ending the running one adds, if there is one. -/
def RunState.endedInterval (state : RunState) (endNs : Nat)
    (reason : String) : List ValidityInterval :=
  match state.authority, state.validFrom with
  | some authority, some validFrom => [⟨validFrom, endNs, authority, reason⟩]
  | _, _ => []

theorem RunState.endInterval_eq
    (state : RunState) (endNs : Nat) (reason : String) :
    state.endInterval endNs reason =
      state.intervals ++ state.endedInterval endNs reason := by
  unfold endInterval endedInterval
  cases state.authority with
  | none => exact (List.append_nil _).symm
  | some authority =>
      cases state.validFrom with
      | none => exact (List.append_nil _).symm
      | some validFrom => rfl

/-- What a change adds to the intervals does not depend on those before. -/
theorem RunState.handleChange_intervals
    (state : RunState) (connection : String) (change : StateChange) :
    ∃ added, ∀ intervals,
      RunState.handleChange { state with intervals := intervals } connection
          change =
        { state.handleChange connection change with
          intervals := intervals ++ added } := by
  by_cases valid : change.state = .valid
  · by_cases noGap : state.activeGaps = ∅
    · refine ⟨state.endedInterval change.atNs "connection_switch",
        fun intervals => ?_⟩
      rw [handleChange_validated valid (by exact noGap),
        handleChange_validated valid (by exact noGap), endInterval_eq]
      rfl
    · refine ⟨[], fun intervals => ?_⟩
      rw [handleChange_validInGap valid (by exact noGap),
        handleChange_validInGap valid (by exact noGap), List.append_nil]
  · by_cases holder : state.authority = some connection ∧
        state.validFrom.isSome
    · refine ⟨state.endedInterval change.atNs change.reason,
        fun intervals => ?_⟩
      rw [handleChange_lostAuthority valid (by exact holder),
        handleChange_lostAuthority valid (by exact holder), endInterval_eq]
      rfl
    · refine ⟨[], fun intervals => ?_⟩
      rw [handleChange_lostOther valid (by exact holder),
        handleChange_lostOther valid (by exact holder), List.append_nil]

theorem RunState.endInterval_of_running
    {state : RunState} {authority : String} {validFrom : Nat}
    (isAuthority : state.authority = some authority)
    (since : state.validFrom = some validFrom)
    (endNs : Nat) (reason : String) :
    state.endInterval endNs reason =
      state.intervals ++ [⟨validFrom, endNs, authority, reason⟩] := by
  simp only [endInterval, isAuthority, since]

/-- What an event adds to the intervals does not depend on those before. -/
theorem RunState.handleEvent_intervals
    (state : RunState) (event : TimelineEvent) :
    ∃ added, ∀ intervals,
      RunState.handleEvent { state with intervals := intervals } event =
        { state.handleEvent event with intervals := intervals ++ added } := by
  cases event with
  | gap event =>
      cases kind : event.state with
      | opened =>
          refine ⟨state.endedInterval event.effectiveNs "transport_gap",
            fun intervals => ?_⟩
          simp only [handleEvent, handleGap, kind, endInterval_eq]
          rfl
      | closed =>
          refine ⟨[], fun intervals => ?_⟩
          simp only [handleEvent, handleGap, kind, List.append_nil]
          repeat' split
          all_goals rfl
  | row row =>
      cases changed : ((state.bookOf row.connectionId).onRow row).2 with
      | none =>
          refine ⟨[], fun intervals => ?_⟩
          rw [handleEvent, handleEvent, handleRow_of_silent changed,
            handleRow_of_silent (by exact changed), List.append_nil]
          rfl
      | some change =>
          rcases RunState.handleChange_intervals
            { state with
              books := state.books.set row.connectionId
                ((state.bookOf row.connectionId).onRow row).1 }
            row.connectionId change with ⟨added, appended⟩
          refine ⟨added, fun intervals => ?_⟩
          rw [handleEvent, handleEvent, handleRow_of_change changed,
            handleRow_of_change (by exact changed)]
          exact appended intervals

/-! ## The two runs -/

/--
The gap ledger closes a gap before the interval which runs in the state has
ended.
-/
def RunState.RestartedIn (state : RunState) (events : List TimelineEvent) :
    Prop :=
  ∃ middle closing rest, events = middle ++ .gap closing :: rest ∧
    closing.state = .closed ∧
    (middle.foldl RunState.handleEvent state).intervals = state.intervals

theorem RunState.RestartedIn.concat
    {state : RunState} {events : List TimelineEvent}
    (restarted : state.RestartedIn events) (event : TimelineEvent) :
    state.RestartedIn (events ++ [event]) := by
  rcases restarted with ⟨middle, closing, rest, rfl, closed, same⟩
  exact ⟨middle, closing, rest ++ [event], by simp, closed, same⟩

/--
The state without the close and the one with it, after the events `seen`.  The
interval which ran since `sinceNs` started over at `obsNs`: it still runs, a
later close has made both start over, or it has ended.
-/
inductive Delayed (origin : RunState) (sinceNs obsNs : Nat)
    (seen : List TimelineEvent) : RunState → RunState → Prop where
  | running {state : RunState} {connection : String}
      (authority : state.authority = some connection)
      (since : state.validFrom = some sinceNs)
      (intervals : state.intervals = origin.intervals) :
      Delayed origin sinceNs obsNs seen state
        { state with validFrom := some obsNs }
  | restarted (state : RunState) (again : origin.RestartedIn seen) :
      Delayed origin sinceNs obsNs seen state state
  | ended {state : RunState} {newer : List ValidityInterval}
      {endNs : Nat} {connection reason : String} (later : obsNs ≤ endNs)
      (intervals : state.intervals =
        origin.intervals ++ ⟨sinceNs, endNs, connection, reason⟩ :: newer) :
      Delayed origin sinceNs obsNs seen state
        { state with
          intervals := origin.intervals ++
            ⟨obsNs, endNs, connection, reason⟩ :: newer }

theorem mem_validInstants_iff
    {intervals : List ValidityInterval} {instant : Nat} :
    instant ∈ validInstants intervals ↔
      ∃ interval ∈ intervals,
        interval.validFromNs ≤ instant ∧ instant < interval.validToNs := by
  simp [validInstants, mem_instants_iff, ValidityInterval.span]

section Compare

variable {past : List TimelineEvent} {inherited : Option String}
variable {start origin : RunState} {startNs now sinceNs obsNs : Nat}
variable {history seen : List TimelineEvent} {state left right : RunState}

/-- A close restores the running connection, whatever its gap. -/
theorem handleClosing_of_running
    (sound : RunSound past inherited start startNs history now state)
    {connection : String} (authority : state.authority = some connection)
    {event : GapEventV1} (closed : event.state = .closed) :
    state.handleGap event =
      { state with validFrom := some event.observedAtRealtimeNs } := by
  have begun : state.validFrom ≠ none := by
    intro absent
    simp [sound.paired.mpr absent] at authority
  rcases Option.ne_none_iff_exists'.mp begun with ⟨validFrom, since⟩
  rcases sound.running connection validFrom authority since with
    ⟨noGap, latest, valid, _⟩
  have restores : state.Restores event connection := by
    refine ⟨by simp [noGap], latest, ?_⟩
    exact RunState.bookOf_valid_iff.mpr valid
  have erased : state.activeGaps.erase event.gapId = state.activeGaps := by
    simp [noGap]
  rw [RunState.handleClosing_of_restores closed restores, erased, ← authority]

/-- What a row does to a running interval and to its delayed double. -/
theorem Delayed.handleRow
    (sound : RunSound past inherited start startNs history now state)
    {row : DepthRow} (ordered : now ≤ row.receivedNs)
    (notBefore : obsNs ≤ row.receivedNs)
    {connection : String} (authority : state.authority = some connection)
    (since : state.validFrom = some sinceNs)
    (intervals : state.intervals = origin.intervals) :
    Delayed origin sinceNs obsNs (seen ++ [.row row]) (state.handleRow row)
      (RunState.handleRow { state with validFrom := some obsNs } row) := by
  rcases sound.running connection sinceNs authority since with
    ⟨noGap, _, ⟨book, found, isValid⟩, _⟩
  rcases sound.delivered ordered with ⟨_, delivered⟩
  cases changed : ((state.bookOf row.connectionId).onRow row).2 with
  | none =>
      rw [RunState.handleRow_of_silent changed,
        RunState.handleRow_of_silent (by exact changed)]
      exact .running authority since intervals
  | some change =>
      rw [RunState.handleRow_of_change changed,
        RunState.handleRow_of_change (by exact changed)]
      by_cases valid : change.state = .valid
      · have atNs := (delivered.validated change changed valid).2.2
        rw [RunState.handleChange_validated valid (by exact noGap),
          RunState.handleChange_validated valid (by exact noGap),
          RunState.endInterval_of_running (by exact authority)
            (by exact since),
          RunState.endInterval_of_running (by exact authority) rfl]
        dsimp only
        rw [intervals]
        exact .ended (atNs ▸ notBefore) rfl
      · by_cases holder : connection = row.connectionId
        · subst holder
          have wasValid :
              (state.bookOf row.connectionId).state = .valid :=
            RunState.bookOf_valid_iff.mpr ⟨book, found, isValid⟩
          have atNs := (delivered.gapped change changed valid).2 wasValid
          rw [RunState.handleChange_lostAuthority valid
              (by exact ⟨authority, by simp [since]⟩),
            RunState.handleChange_lostAuthority valid
              (by exact ⟨authority, rfl⟩),
            RunState.endInterval_of_running (by exact authority)
              (by exact since),
            RunState.endInterval_of_running (by exact authority) rfl]
          dsimp only
          rw [intervals]
          exact .ended (atNs ▸ notBefore) rfl
        · have other : state.authority ≠ some row.connectionId := by
            rw [authority]
            exact fun same => holder (Option.some.inj same)
          rw [RunState.handleChange_lostOther valid
              (by exact fun isHolder => other isHolder.1),
            RunState.handleChange_lostOther valid
              (by exact fun isHolder => other isHolder.1)]
          exact .running authority since intervals

/-- The two runs stay related, whatever the next event is. -/
theorem Delayed.handleEvent
    (sound : RunSound past inherited start startNs history now left)
    (reached : left = seen.foldl RunState.handleEvent origin)
    {event : TimelineEvent} (ordered : now ≤ event.atNs)
    (notBefore : obsNs ≤ event.atNs)
    (delayed : Delayed origin sinceNs obsNs seen left right) :
    Delayed origin sinceNs obsNs (seen ++ [event]) (left.handleEvent event)
      (right.handleEvent event) := by
  cases delayed with
  | restarted again => exact .restarted _ (again.concat event)
  | @ended newer endNs connection reason later intervals =>
      rcases left.handleEvent_intervals event with ⟨added, appended⟩
      have leftIs := appended left.intervals
      have rightIs := appended (origin.intervals ++
        ⟨obsNs, endNs, connection, reason⟩ :: newer)
      have keptIntervals : (left.handleEvent event).intervals =
          origin.intervals ++
            ⟨sinceNs, endNs, connection, reason⟩ :: (newer ++ added) := by
        have eta : { left with intervals := left.intervals } = left := rfl
        rw [eta] at leftIs
        rw [leftIs, intervals]
        simp
      rw [List.append_assoc, List.cons_append] at rightIs
      rw [rightIs]
      exact .ended later keptIntervals
  | @running connection authority since intervals =>
      cases event with
      | row row => exact handleRow sound ordered notBefore authority since intervals
      | gap event =>
          cases kind : event.state with
          | opened =>
              simp only [RunState.handleEvent, RunState.handleGap, kind]
              rw [RunState.endInterval_of_running authority since,
                RunState.endInterval_of_running (by exact authority) rfl]
              dsimp only
              rw [intervals]
              exact .ended notBefore rfl
          | closed =>
              have again : origin.RestartedIn (seen ++ [.gap event]) :=
                ⟨seen, event, [], rfl, kind, by rw [← reached, intervals]⟩
              rcases sound.running connection sinceNs authority since with
                ⟨noGap, latest, valid, _⟩
              have restores : RunState.Restores
                  { left with validFrom := some obsNs } event connection :=
                ⟨by simp [noGap], latest,
                  RunState.bookOf_valid_iff.mpr valid⟩
              have restores' : left.Restores event connection := restores
              rw [RunState.handleEvent, RunState.handleEvent,
                RunState.handleClosing_of_restores kind restores,
                RunState.handleClosing_of_restores kind restores']
              exact .restarted _ again

/-- The two runs are related after everything which comes after the close. -/
theorem Delayed.foldl
    {events : List TimelineEvent}
    (sound : RunSound past inherited start startNs history now left)
    (reached : left = seen.foldl RunState.handleEvent origin)
    (delayed : Delayed origin sinceNs obsNs seen left right)
    (ordered : events.Pairwise fun earlier later => earlier.atNs ≤ later.atNs)
    (future : ∀ event ∈ events, now ≤ event.atNs)
    (notBefore : ∀ event ∈ events, obsNs ≤ event.atNs)
    (named : ∀ row ∈ rowsOf events, row.connectionId ≠ "") :
    Delayed origin sinceNs obsNs (seen ++ events)
      (events.foldl RunState.handleEvent left)
      (events.foldl RunState.handleEvent right) := by
  induction events generalizing seen history now left right with
  | nil => simpa using delayed
  | cons event rest induction =>
      rcases List.pairwise_cons.mp ordered with ⟨first, restOrdered⟩
      have next := sound.handleEvent (future event List.mem_cons_self)
        (by
          rintro row rfl
          exact named row (mem_rowsOf_iff.mpr List.mem_cons_self))
      have reachedNext : left.handleEvent event =
          (seen ++ [event]).foldl RunState.handleEvent origin := by
        rw [List.foldl_concat, reached]
      have step := delayed.handleEvent sound reached
        (future event List.mem_cons_self)
        (notBefore event List.mem_cons_self)
      have namedRest : ∀ row ∈ rowsOf rest, row.connectionId ≠ "" := by
        intro row member
        exact named row (mem_rowsOf_iff.mpr
          (List.mem_cons_of_mem _ (mem_rowsOf_iff.mp member)))
      have final := induction next reachedNext step restOrdered first
        (fun other member => notBefore other (List.mem_cons_of_mem _ member))
        namedRest
      rwa [List.append_assoc] at final

/-- After a later close of the running interval the two runs are one. -/
theorem Delayed.eq_of_restartedIn
    {events : List TimelineEvent}
    (sound : RunSound past inherited start startNs history now left)
    (delayed : Delayed left sinceNs obsNs [] left right)
    (ordered : events.Pairwise fun earlier later => earlier.atNs ≤ later.atNs)
    (future : ∀ event ∈ events, now ≤ event.atNs)
    (notBefore : ∀ event ∈ events, obsNs ≤ event.atNs)
    (named : ∀ row ∈ rowsOf events, row.connectionId ≠ "")
    (again : left.RestartedIn events) :
    events.foldl RunState.handleEvent left =
      events.foldl RunState.handleEvent right := by
  rcases again with ⟨middle, closing, rest, rfl, closed, unended⟩
  rcases List.pairwise_append.mp ordered with ⟨middleOrdered, _, apart⟩
  have inMiddle : ∀ event ∈ middle, event ∈ middle ++ .gap closing :: rest :=
    fun event member => List.mem_append_left _ member
  have namedMiddle : ∀ row ∈ rowsOf middle, row.connectionId ≠ "" := by
    intro row member
    apply named row
    rw [rowsOf_append]
    exact List.mem_append_left _ member
  have reachedMiddle := delayed.foldl sound rfl middleOrdered
    (fun event member => future event (inMiddle event member))
    (fun event member => notBefore event (inMiddle event member)) namedMiddle
  rcases @RunSound.foldl past inherited start startNs _ (fun _ _ => True)
    (fun _ _ _ _ _ _ _ => trivial) history middle now left sound trivial
    middleOrdered
    (fun event member => future event (inMiddle event member)) namedMiddle
    (fun event member => apart event member _ List.mem_cons_self)
    (future _ (List.mem_append_right _ List.mem_cons_self)) with
    ⟨_, _, soundMiddle, _⟩
  rw [List.foldl_append, List.foldl_append, List.foldl_cons, List.foldl_cons]
  congr 1
  revert reachedMiddle unended soundMiddle
  generalize middle.foldl RunState.handleEvent left = middleLeft
  generalize middle.foldl RunState.handleEvent right = middleRight
  intro unended reachedMiddle soundMiddle
  cases reachedMiddle with
  | restarted again => rfl
  | ended notBefore intervals =>
      rw [unended] at intervals
      simp at intervals
  | @running connection authority since intervals =>
      rcases soundMiddle.running connection sinceNs authority since with
        ⟨noGap, latest, valid, _⟩
      have restores : middleLeft.Restores closing connection :=
        ⟨by simp [noGap], latest, RunState.bookOf_valid_iff.mpr valid⟩
      have restores' : RunState.Restores
          { middleLeft with validFrom := some obsNs } closing connection :=
        restores
      show middleLeft.handleGap closing = RunState.handleGap _ closing
      rw [RunState.handleClosing_of_restores closed restores,
        RunState.handleClosing_of_restores closed restores']

/-- An interval which starts later covers less. -/
theorem Delayed.instants_ne
    {endNs : Nat} (later : sinceNs < obsNs) (inDay : obsNs < endNs)
    (before : ∀ interval ∈ origin.intervals, interval.validToNs ≤ sinceNs)
    (sound : RunSound past inherited start startNs history now left)
    (notPast : now ≤ endNs)
    (delayed : Delayed origin sinceNs obsNs seen left right)
    (notAgain : ¬ origin.RestartedIn seen) :
    validInstants (left.finish endNs).intervals ≠
      validInstants (right.finish endNs).intervals := by
  have startsApart : ∀ interval ∈ origin.intervals,
      ¬ (interval.validFromNs ≤ sinceNs ∧ sinceNs < interval.validToNs) := by
    intro interval member bounds
    have ends := before interval member
    omega
  rw [RunState.validInstants_finish, RunState.validInstants_finish]
  intro same
  have inBoth := Set.ext_iff.mp same sinceNs
  cases delayed with
  | restarted again => exact notAgain again
  | @running connection authority since intervals =>
      rw [RunState.endInterval_of_running authority since,
        RunState.endInterval_of_running (by exact authority) rfl] at inBoth
      dsimp only at inBoth
      rw [intervals] at inBoth
      have covered : sinceNs ∈ validInstants (origin.intervals ++
          [⟨sinceNs, endNs, connection, "utc_day_end"⟩]) :=
        mem_validInstants_iff.mpr ⟨_, List.mem_append_right _
          List.mem_cons_self, le_refl _, later.trans inDay⟩
      rcases mem_validInstants_iff.mp (inBoth.mp covered) with
        ⟨interval, member, bounds⟩
      rcases List.mem_append.mp member with old | new
      · exact startsApart interval old bounds
      · rw [List.mem_singleton.mp new] at bounds
        exact absurd bounds.1 (by simpa using later)
  | @ended newer stopNs connection reason notBefore intervals =>
      have ordered : Ordered ((left.endInterval endNs "utc_day_end").map
          ValidityInterval.span) := by
        refine RunState.endInterval_ordered sound.ordered ?_
        intro authority validFrom isAuthority since
        rcases sound.running authority validFrom isAuthority since with
          ⟨_, _, _, running, after⟩
        exact ⟨running.untilNow.trans notPast, after⟩
      rw [RunState.endInterval_eq] at inBoth ordered
      rw [RunState.endInterval_eq] at inBoth
      rw [intervals, List.append_assoc, List.cons_append] at inBoth ordered
      dsimp only at inBoth
      rw [List.append_assoc, List.cons_append] at inBoth
      have covered : sinceNs ∈ validInstants (origin.intervals ++
          ⟨sinceNs, stopNs, connection, reason⟩ ::
            (newer ++ left.endedInterval endNs "utc_day_end")) :=
        mem_validInstants_iff.mpr ⟨_, List.mem_append_right _
          List.mem_cons_self, le_refl _, later.trans_le notBefore⟩
      rcases mem_validInstants_iff.mp (inBoth.mp covered) with
        ⟨interval, member, bounds⟩
      rcases List.mem_append.mp member with old | new
      · exact startsApart interval old bounds
      · rcases List.mem_cons.mp new with rfl | newest
        · exact absurd bounds.1 (by simpa using later)
        · -- Everything newer starts after the running interval stopped.
          rw [List.map_append, List.map_cons] at ordered
          have behind := (List.pairwise_cons.mp
            (List.pairwise_append.mp ordered.2).2.1).1 interval.span
            (List.mem_map_of_mem newest)
          have begins : stopNs ≤ interval.validFromNs := behind
          omega

end Compare

/-! ## The property -/

/-- Two reconstructions which cover the same instants and end the same day. -/
structure SameOutcome (day : L2DayReconstructor)
    (left right : Reconstruction) : Prop where
  instants : validInstants left.intervals = validInstants right.intervals
  checkpoint :
    buildCheckpoint day day.dayEndNs left.finalBook left.books =
      buildCheckpoint day day.dayEndNs right.finalBook right.books

/--
No interval is running when the close takes its turn, or it started at that
very instant, or the ledger closes a gap again before it ends.
-/
def RunState.HarmlessClose (state : RunState) (event : GapEventV1)
    (future : List TimelineEvent) : Prop :=
  state.authority = none ∨
    state.validFrom = some event.observedAtRealtimeNs ∨
      state.RestartedIn future

namespace L2DayReconstructor

variable {day : L2DayReconstructor} {files : DayFiles}
variable {past history future : List TimelineEvent} {start : RunState}
variable {event : GapEventV1}

/-- The state when the close takes its turn, and at the end without it. -/
theorem sound_at_close
    (wellFormed : WellFormedDay day files)
    (admissible :
      AdmissibleCheckpoint past day.dayStartNs files.previousCheckpoint)
    (initial :
      initialState day.dayStartNs files.previousCheckpoint = .ok start)
    (placed : day.dayTimeline files = history ++ .gap event :: future) :
    ∃ now ≤ event.effectiveNs,
      RunSound past (inheritedConnection files.previousCheckpoint) start
          day.dayStartNs history now
          (history.foldl RunState.handleEvent start) ∧
        AuthorityRead (inheritedConnection files.previousCheckpoint)
          start.books history (history.foldl RunState.handleEvent start) := by
  have inside := dayTimeline_inside wellFormed
  have ordered : (day.dayTimeline files).Pairwise fun earlier later =>
      earlier.atNs ≤ later.atNs := timeline_ordered wellFormed.ordered
  rw [placed] at inside ordered
  rcases List.pairwise_append.mp ordered with ⟨historyOrdered, _, apart⟩
  have restored := initialState_restored admissible initial
  have named : ∀ row ∈ rowsOf history, row.connectionId ≠ "" := by
    intro row member
    have inDay : row ∈ rowsOf (day.dayTimeline files) := by
      rw [placed, rowsOf_append]
      exact List.mem_append_left _ member
    rw [dayTimeline, timeline, rowsOf_mergeTimeline] at inDay
    exact wellFormed.named row inDay
  exact @RunSound.foldl past _ start day.dayStartNs event.effectiveNs
    (AuthorityRead (inheritedConnection files.previousCheckpoint)
      start.books)
    (fun _ _ _ _ sound later read => read.handleEvent sound later)
    [] history day.dayStartNs start (restored.sound admissible.received)
    restored.authorityRead historyOrdered
    (fun other member =>
      (inside other (List.mem_append_left _ member)).1)
    named
    (fun other member => apart other member _ List.mem_cons_self)
    (inside _ (List.mem_append_right _ List.mem_cons_self)).1

/-- The reconstruction of a day from its files. -/
def reconstruction (day : L2DayReconstructor) (files : DayFiles) :
    Except L2Error Reconstruction :=
  reconstruct day.dayStartNs day.dayEndNs day.exchangeSymbol
    files.previousCheckpoint files.depthRows files.transportGaps

/--
Two ledgers whose timelines differ in one close.  If the close's gap is not
open when it takes its turn, the covered instants and the final checkpoint are
the same with and without it exactly if it is harmless.
-/
theorem unmatched_turn_unchanged_iff
    {ledger : List GapEventV1}
    (wellFormed : WellFormedDay day files)
    (admissible :
      AdmissibleCheckpoint past day.dayStartNs files.previousCheckpoint)
    (initial :
      initialState day.dayStartNs files.previousCheckpoint = .ok start)
    (closed : event.state = .closed)
    (placed : day.dayTimeline files = history ++ .gap event :: future)
    (without : day.dayTimeline { files with transportGaps := ledger } =
      history ++ future)
    (unmatched : event.gapId ∉ openGaps (gapsOf history)) :
    (∃ kept changed,
      day.reconstruction { files with transportGaps := ledger } = .ok kept ∧
        day.reconstruction files = .ok changed ∧
        SameOutcome day kept changed) ↔
      (history.foldl RunState.handleEvent start).HarmlessClose event
        future := by
  have inside := dayTimeline_inside wellFormed
  have ordered : (day.dayTimeline files).Pairwise fun earlier later =>
      earlier.atNs ≤ later.atNs := timeline_ordered wellFormed.ordered
  rw [placed] at inside ordered
  rcases List.pairwise_append.mp ordered with ⟨_, tailOrdered, _⟩
  rcases List.pairwise_cons.mp tailOrdered with ⟨notBefore, futureOrdered⟩
  have inDay := (inside _ (List.mem_append_right _ List.mem_cons_self)).2
  have named : ∀ row ∈ rowsOf future, row.connectionId ≠ "" := by
    intro row member
    have inFiles : row ∈ rowsOf (day.dayTimeline files) := by
      rw [placed, rowsOf_append]
      exact List.mem_append_right _ member
    rw [dayTimeline, timeline, rowsOf_mergeTimeline] at inFiles
    exact wellFormed.named row inFiles
  rcases sound_at_close wellFormed admissible initial placed with
    ⟨now, inTime, sound, read⟩
  have keptIs : day.reconstruction { files with transportGaps := ledger } =
        .ok ((future.foldl RunState.handleEvent
          (history.foldl RunState.handleEvent start)).finish
            day.dayEndNs) := by
    rw [← List.foldl_append, ← without]
    exact reconstruct_eq_ok initial _ _ _ _
  have changedIs : day.reconstruction files =
        .ok ((future.foldl RunState.handleEvent
          ((history.foldl RunState.handleEvent start).handleGap
            event)).finish day.dayEndNs) := by
    have isRun : day.reconstruction files =
        .ok (((day.dayTimeline files).foldl RunState.handleEvent
          start).finish day.dayEndNs) := reconstruct_eq_ok initial _ _ _ _
    rw [isRun, placed, List.foldl_append]
    rfl
  revert keptIs changedIs sound read
  generalize history.foldl RunState.handleEvent start = state
  intro sound read keptIs changedIs
  have atNs : event.effectiveNs = event.observedAtRealtimeNs :=
    GapEventV1.effectiveNs_of_closed closed
  have erased : state.activeGaps.erase event.gapId = state.activeGaps := by
    apply Finset.erase_eq_of_notMem
    rwa [sound.gaps]
  cases authority : state.authority with
  | none =>
      have idle : ∀ connection, ¬ state.Restores event connection := by
        rintro connection ⟨noGap, latest, valid⟩
        rw [erased] at noGap
        have holds := (sound.holdsValid_iff connection).mpr
          (RunState.bookOf_valid_iff.mp valid)
        have isAuthority := read.authority connection noGap latest holds
        simp [authority] at isAuthority
      rw [RunState.handleClosing_of_not_restores closed idle, erased]
        at changedIs
      exact iff_of_true ⟨_, _, keptIs, changedIs, rfl, rfl⟩
        (Or.inl authority)
  | some connection =>
      rw [handleClosing_of_running sound authority closed] at changedIs
      have begun : state.validFrom ≠ none := by
        intro absent
        simp [sound.paired.mpr absent] at authority
      rcases Option.ne_none_iff_exists'.mp begun with ⟨sinceNs, since⟩
      rcases sound.running connection sinceNs authority since with
        ⟨_, _, _, running, before⟩
      have delayed : Delayed state sinceNs event.observedAtRealtimeNs []
          state
          { state with validFrom := some event.observedAtRealtimeNs } :=
        .running authority since rfl
      have fromNow : ∀ other ∈ future, now ≤ other.atNs :=
        fun other member => inTime.trans (notBefore other member)
      have fromClose : ∀ other ∈ future,
          event.observedAtRealtimeNs ≤ other.atNs :=
        fun other member => atNs ▸ notBefore other member
      constructor
      · rintro ⟨kept, changed, isKept, isChanged, sameInstants, _⟩
        rw [keptIs] at isKept
        rw [changedIs] at isChanged
        rw [← Except.ok.inj isKept, ← Except.ok.inj isChanged]
          at sameInstants
        right
        by_contra harmful
        push Not at harmful
        rcases harmful with ⟨notAtOnce, notAgain⟩
        have later : sinceNs < event.observedAtRealtimeNs := by
          apply lt_of_le_of_ne
          · exact atNs ▸ running.untilNow.trans inTime
          · exact fun same => notAtOnce (by rw [since, same])
        rcases @RunSound.foldl past _ start day.dayStartNs day.dayEndNs
          (fun _ _ => True) (fun _ _ _ _ _ _ _ => trivial) history future
          now state sound trivial futureOrdered fromNow named
          (fun other member => (inside other (List.mem_append_right _
            (List.mem_cons_of_mem _ member))).2.le)
          (inTime.trans inDay.le) with ⟨final, notPast, soundEnd, _⟩
        have reached := delayed.foldl sound rfl futureOrdered fromNow
          fromClose named
        exact reached.instants_ne later (atNs ▸ inDay) before soundEnd
          notPast notAgain sameInstants
      · rintro (absent | atOnce | again)
        · simp [authority] at absent
        · have same : { state with
              validFrom := some event.observedAtRealtimeNs } = state := by
            rw [← atOnce]
          rw [same] at changedIs
          exact ⟨_, _, keptIs, changedIs, rfl, rfl⟩
        · rw [← delayed.eq_of_restartedIn sound futureOrdered fromNow
            fromClose named again] at changedIs
          exact ⟨_, _, keptIs, changedIs, rfl, rfl⟩

/--
Insert a close anywhere into the ledger of a day.  If it does not concern the
symbol the reconstruction is the same; otherwise it takes one turn among the
events of the symbol.  If its gap is not open when it takes its turn, the
covered instants and the final checkpoint are the same with and without it
exactly if it is harmless.
-/
theorem unmatched_close_unchanged_iff
    {earlier later : List GapEventV1}
    (wellFormed : WellFormedDay day
      { files with transportGaps := earlier ++ event :: later })
    (admissible :
      AdmissibleCheckpoint past day.dayStartNs files.previousCheckpoint)
    (initial :
      initialState day.dayStartNs files.previousCheckpoint = .ok start)
    (closed : event.state = .closed) :
    (¬ event.Relevant day.exchangeSymbol .depth →
      day.reconstruction
          { files with transportGaps := earlier ++ event :: later } =
        day.reconstruction { files with transportGaps := earlier ++ later }) ∧
      (event.Relevant day.exchangeSymbol .depth →
        ∃ history future,
          day.dayTimeline
              { files with transportGaps := earlier ++ event :: later } =
            history ++ .gap event :: future ∧
          day.dayTimeline { files with transportGaps := earlier ++ later } =
            history ++ future) ∧
      ∀ history future,
        day.dayTimeline
            { files with transportGaps := earlier ++ event :: later } =
          history ++ .gap event :: future →
        day.dayTimeline { files with transportGaps := earlier ++ later } =
          history ++ future →
        event.gapId ∉ openGaps (gapsOf history) →
        ((∃ kept changed,
          day.reconstruction
              { files with transportGaps := earlier ++ later } = .ok kept ∧
            day.reconstruction
              { files with transportGaps := earlier ++ event :: later } =
                .ok changed ∧
            SameOutcome day kept changed) ↔
          (history.foldl RunState.handleEvent start).HarmlessClose event
            future) := by
  refine ⟨?_, ?_, ?_⟩
  · intro irrelevant
    show reconstruct _ _ _ _ _ _ = reconstruct _ _ _ _ _ _
    rw [reconstruct_eq_ok initial, reconstruct_eq_ok initial,
      timeline_insert_irrelevant irrelevant]
  · exact fun relevant =>
      exists_timeline_insert relevant files.depthRows earlier later
  · intro history future placed without unmatched
    exact unmatched_turn_unchanged_iff wellFormed admissible initial closed
      placed without unmatched

end L2DayReconstructor

/-! ## A stray close while a book is valid -/

/-- A close of a gap which nobody opened. -/
def strayClose (afterNs : Nat) : GapEventV1 where
  gapId := "gap-0001"
  state := .closed
  reason := .storageExhausted
  observedAtRealtimeNs := midnightNs 1 + afterNs
  affectedBeforeObservation := by simp
  closedUnaffected := GapEventV1.unaffected .closed

/-- The book of the connection is valid from the second nanosecond on. -/
def strayFiles (ledger : List GapEventV1) : DayFiles where
  normalized := some { formalStartRealtimeNs := some (midnightNs 1) }
  depthRows :=
    [cutSnapshot "a" 1 1 10 [(1, 1)], cutDiff "a" 1 2 10 11 9]
  transportGaps := ledger

/-- Before the book is valid the close changes nothing. -/
theorem unmatched_close_unchanged_early :
    ∃ kept changed,
      cutDay.reconstruction (strayFiles []) = .ok kept ∧
        cutDay.reconstruction (strayFiles [strayClose 0]) = .ok changed ∧
        SameOutcome cutDay kept changed := by
  have wellFormed : WellFormedDay cutDay (strayFiles [strayClose 0]) :=
    ⟨by decide +kernel, by decide +kernel, by decide, by decide +kernel⟩
  have admissible : AdmissibleCheckpoint [] cutDay.dayStartNs
      (strayFiles [strayClose 0]).previousCheckpoint :=
    ⟨by simp, by simp [strayFiles], by simp [strayFiles]⟩
  have placed : cutDay.dayTimeline (strayFiles [strayClose 0]) =
      [] ++ .gap (strayClose 0) ::
        (strayFiles []).depthRows.map TimelineEvent.row := by decide +kernel
  have without : cutDay.dayTimeline (strayFiles []) =
      [] ++ (strayFiles []).depthRows.map TimelineEvent.row := by
    decide +kernel
  have inserted := @L2DayReconstructor.unmatched_close_unchanged_iff cutDay
    (strayFiles []) [] _ (strayClose 0) [] [] wellFormed admissible rfl rfl
  exact (inserted.2.2 _ _ placed without (by decide)).mpr (Or.inl rfl)

/-- Afterwards the instants from the second nanosecond to the close are lost. -/
theorem unmatched_close_loses_instants :
    (strayClose 5).gapId ∉ openGaps [] ∧
      ¬ ∃ kept changed,
        cutDay.reconstruction (strayFiles []) = .ok kept ∧
          cutDay.reconstruction (strayFiles [strayClose 5]) = .ok changed ∧
          SameOutcome cutDay kept changed := by
  refine ⟨by decide, ?_⟩
  rintro ⟨kept, changed, isKept, isChanged, sameInstants, _⟩
  have keptIntervals : (cutDay.reconstruction (strayFiles [])).toOption.map
      Reconstruction.intervals =
        some [⟨midnightNs 1 + 2, midnightNs 2, "a", "utc_day_end"⟩] := by
    decide +kernel
  have changedIntervals :
      (cutDay.reconstruction (strayFiles [strayClose 5])).toOption.map
        Reconstruction.intervals =
          some [⟨midnightNs 1 + 5, midnightNs 2, "a", "utc_day_end"⟩] := by
    decide +kernel
  rw [isKept] at keptIntervals
  rw [isChanged] at changedIntervals
  rw [Option.some.inj keptIntervals, Option.some.inj changedIntervals]
    at sameInstants
  have inBoth := Set.ext_iff.mp sameInstants (midnightNs 1 + 2)
  simp [mem_validInstants_iff] at inBoth
  revert inBoth
  decide +kernel

end ShadowDataPlane.Central
