import ShadowDataPlane.Contracts.OpenGaps
import ShadowDataPlane.Central.Timeline
import ShadowDataPlane.Central.Quality

/-!
# Soundness of the emitted validity

The reconstruction keeps one running interval and a list of ended ones.
`RunSound` is what a prefix of the timeline guarantees about both: an interval
lies between the start and the present, it lies apart from every gap, and its
connection was `VALID` when it began, on the strength of rows received after
the latest gap opening.

One lemma for each kind of timeline event keeps `RunSound`; the run lemma is
an induction over the timeline, and the results about `run` follow from the
state it reaches.  Everything is relative to `past`, the timeline of the days
before: a checkpoint carries snapshots and diffs received then.
-/

namespace ShadowDataPlane.Central

open ShadowDataPlane.Foundation
open ShadowDataPlane.Contracts

/-! ## What an interval claims -/

/-- Every gap opened by these events was closed again by `instant`. -/
def ClosedBy (gaps : List GapEventV1) (instant : Nat) : Prop :=
  ∀ before opening after, gaps = before ++ opening :: after →
    opening.state = .opened →
      ∃ closing, nextClosed opening.gapId after = some closing ∧
        closing.observedAtRealtimeNs ≤ instant

/-- A span which ends before a gap opens or starts after it was closed. -/
def ApartFromGaps (gaps : List GapEventV1) (span : Nat × Nat) : Prop :=
  ∀ before opening after, gaps = before ++ opening :: after →
    opening.state = .opened →
      span.2 ≤ opening.effectiveNs ∨
        ∃ closing, nextClosed opening.gapId after = some closing ∧
          closing.observedAtRealtimeNs ≤ span.1

/-- A span apart from the gaps has no instant inside one. -/
theorem ApartFromGaps.not_insideGap
    {gaps : List GapEventV1} {span : Nat × Nat} {instant : Nat}
    (apart : ApartFromGaps gaps span)
    (fromStart : span.1 ≤ instant) (beforeEnd : instant < span.2) :
    ¬ InsideGap gaps instant := by
  rintro ⟨before, opening, after, split, opened, started, unclosed⟩
  rcases apart before opening after split opened with
    endsFirst | ⟨closing, closed, closedFirst⟩
  · omega
  · have later := unclosed closing closed
    omega

section Sound

variable (past : List TimelineEvent) (inherited : Option String)
variable (start : RunState) (startNs : Nat)

/--
At `instant` the connection's book was `VALID`: inherited with no gap opened
since, or bridged by rows received after the latest gap opening.
-/
def Grounded (history : List TimelineEvent) (connection : String)
    (instant : Nat) : Prop :=
  ∃ before after, history = before ++ after ∧
    (∀ event ∈ past ++ before, event.atNs ≤ instant) ∧
    (∀ event ∈ after, event.Opens → instant < event.atNs) ∧
    (∃ book,
      (before.foldl RunState.handleEvent start).books.get? connection =
          some book ∧
        book.state = .valid) ∧
    ((inherited = some connection ∧ ∀ event ∈ before, ¬ event.Opens) ∨
      ConnectionBook.Bridged (rowsOf (sinceOpening (past ++ before)))
        connection)

/-- What holds of an ended interval. -/
structure IntervalSound (history : List TimelineEvent) (now : Nat)
    (interval : ValidityInterval) : Prop where
  named : interval.connectionId ≠ ""
  fromStart : startNs ≤ interval.validFromNs
  untilNow : interval.validToNs ≤ now
  apart : ApartFromGaps (gapsOf history) interval.span
  grounded : interval.validFromNs < interval.validToNs →
    Grounded past inherited start history interval.connectionId
      interval.validFromNs

/-- What holds of the running interval. -/
structure RunningSound (history : List TimelineEvent) (now : Nat)
    (connection : String) (validFrom : Nat) : Prop where
  named : connection ≠ ""
  fromStart : startNs ≤ validFrom
  untilNow : validFrom ≤ now
  closed : ClosedBy (gapsOf history) validFrom
  grounded : Grounded past inherited start history connection validFrom

variable {past inherited start startNs}
variable {history : List TimelineEvent} {now : Nat}

theorem gapsOf_concat_gap (event : GapEventV1) :
    gapsOf (history ++ [.gap event]) = gapsOf history ++ [event] := by
  rw [gapsOf_append]
  rfl

theorem gapsOf_concat_row (row : DepthRow) :
    gapsOf (history ++ [.row row]) = gapsOf history := by
  rw [gapsOf_append]
  exact List.append_nil _

theorem ApartFromGaps.concat
    {span : Nat × Nat} {event : TimelineEvent}
    (apart : ApartFromGaps (gapsOf history) span)
    (later : span.2 ≤ event.atNs) :
    ApartFromGaps (gapsOf (history ++ [event])) span := by
  cases event with
  | row row => simpa only [gapsOf_concat_row] using apart
  | gap event =>
      rw [gapsOf_concat_gap]
      intro before opening after split opened
      rcases concat_eq_split_iff.mp split with
        ⟨_, _, rfl⟩ | ⟨shorter, rfl, shorterSplit⟩
      · exact Or.inl later
      · rcases apart before opening shorter shorterSplit opened with
          endsFirst | ⟨closing, closed, closedFirst⟩
        · exact Or.inl endsFirst
        · exact Or.inr
            ⟨closing, nextClosed_append_some closed, closedFirst⟩

theorem ClosedBy.apart
    {gaps : List GapEventV1} {validFrom validTo : Nat}
    (closed : ClosedBy gaps validFrom) :
    ApartFromGaps gaps (validFrom, validTo) :=
  fun before opening after split opened =>
    Or.inr (closed before opening after split opened)

/-- Closed gaps stay closed until another opening. -/
theorem ClosedBy.concat
    {instant : Nat} {event : TimelineEvent}
    (closed : ClosedBy (gapsOf history) instant)
    (notOpening : ¬ event.Opens) :
    ClosedBy (gapsOf (history ++ [event])) instant := by
  cases event with
  | row row => simpa only [gapsOf_concat_row] using closed
  | gap event =>
      rw [gapsOf_concat_gap]
      intro before opening after split opened
      rcases concat_eq_split_iff.mp split with
        ⟨_, _, rfl⟩ | ⟨shorter, rfl, shorterSplit⟩
      · exact (notOpening opened).elim
      · obtain ⟨closing, isNext, inTime⟩ :=
          closed before opening shorter shorterSplit opened
        exact ⟨closing, nextClosed_append_some isNext, inTime⟩

/-- Without open gaps every opening was closed by the present. -/
theorem closedBy_of_openGaps_eq_empty
    (none : openGaps (gapsOf history) = ∅)
    (ordered : ∀ event ∈ history, event.atNs ≤ now) :
    ClosedBy (gapsOf history) now := by
  intro before opening after split opened
  cases next : nextClosed opening.gapId after with
  | none =>
      have stillOpen : opening.gapId ∈ openGaps (gapsOf history) :=
        mem_openGaps_iff.mpr
          ⟨before, opening, after, split, opened, rfl, next⟩
      simp [none] at stillOpen
  | some closing =>
      obtain ⟨member, _, isClosed⟩ := nextClosed_mem next
      have inHistory : TimelineEvent.gap closing ∈ history := by
        rw [← mem_gapsOf_iff, split]
        exact List.mem_append_right _ (List.mem_cons_of_mem _ member)
      have inTime := ordered _ inHistory
      refine ⟨closing, rfl, ?_⟩
      rwa [TimelineEvent.atNs,
        GapEventV1.effectiveNs_of_closed isClosed] at inTime

theorem Grounded.concat
    {connection : String} {instant : Nat} {event : TimelineEvent}
    (grounded : Grounded past inherited start history connection instant)
    (later : event.Opens → instant < event.atNs) :
    Grounded past inherited start (history ++ [event]) connection
      instant := by
  obtain ⟨before, after, rfl, received, unopened, book, evidence⟩ := grounded
  refine ⟨before, after ++ [event], by simp, received, ?_, book, evidence⟩
  intro other member opens
  rcases List.mem_append.mp member with old | new
  · exact unopened other old opens
  · rw [List.mem_singleton.mp new] at opens ⊢
    exact later opens

theorem IntervalSound.concat
    {interval : ValidityInterval} {event : TimelineEvent}
    (sound : IntervalSound past inherited start startNs history now interval)
    (ordered : now ≤ event.atNs) :
    IntervalSound past inherited start startNs (history ++ [event])
      event.atNs interval where
  named := sound.named
  fromStart := sound.fromStart
  untilNow := sound.untilNow.trans ordered
  apart := sound.apart.concat (sound.untilNow.trans ordered)
  grounded := fun nonempty =>
    (sound.grounded nonempty).concat fun _ =>
      nonempty.trans_le (sound.untilNow.trans ordered)

/-- Ending the running interval with the event at hand. -/
theorem RunningSound.ended
    {connection reason : String} {validFrom : Nat} {event : TimelineEvent}
    (sound :
      RunningSound past inherited start startNs history now connection
        validFrom) :
    IntervalSound past inherited start startNs (history ++ [event])
      event.atNs ⟨validFrom, event.atNs, connection, reason⟩ where
  named := sound.named
  fromStart := sound.fromStart
  untilNow := le_refl _
  apart := sound.closed.apart.concat (le_refl _)
  grounded := fun nonempty => sound.grounded.concat fun _ => nonempty

/-- Ending the running interval with the span. -/
theorem RunningSound.finished
    {connection reason : String} {validFrom endNs : Nat}
    (sound :
      RunningSound past inherited start startNs history now connection
        validFrom) :
    IntervalSound past inherited start startNs history endNs
      ⟨validFrom, endNs, connection, reason⟩ where
  named := sound.named
  fromStart := sound.fromStart
  untilNow := le_refl _
  apart := sound.closed.apart
  grounded := fun _ => sound.grounded

/-- The running interval survives an event which opens no gap. -/
theorem RunningSound.concat
    {connection : String} {validFrom : Nat}
    (sound :
      RunningSound past inherited start startNs history now connection
        validFrom)
    (event : TimelineEvent)
    (ordered : now ≤ event.atNs) (notOpening : ¬ event.Opens) :
    RunningSound past inherited start startNs (history ++ [event])
      event.atNs connection validFrom where
  named := sound.named
  fromStart := sound.fromStart
  untilNow := sound.untilNow.trans ordered
  closed := sound.closed.concat notOpening
  grounded := sound.grounded.concat fun opens => (notOpening opens).elim

/-! ## The invariant -/

variable (past inherited start startNs)

/-- What a prefix of the timeline guarantees about the state it leads to. -/
structure RunSound (history : List TimelineEvent) (now : Nat)
    (state : RunState) : Prop where
  reached : state = history.foldl RunState.handleEvent start
  begun : startNs ≤ now
  received : ∀ event ∈ past ++ history, event.atNs ≤ now
  books : ∀ connection book, state.books.get? connection = some book →
    book.connectionId = connection ∧ connection ≠ "" ∧
      book.Supported
        (inherited = some connection ∧ ∀ event ∈ history, ¬ event.Opens)
        (rowsOf (sinceOpening (past ++ history))) now
  gaps : state.activeGaps = openGaps (gapsOf history)
  paired : state.authority = none ↔ state.validFrom = none
  running : ∀ connection validFrom,
    state.authority = some connection → state.validFrom = some validFrom →
      state.activeGaps = ∅ ∧
        state.lastValidConnection = some connection ∧
        (∃ book, state.books.get? connection = some book ∧
          book.state = .valid) ∧
        RunningSound past inherited start startNs history now connection
          validFrom ∧
        ∀ interval ∈ state.intervals, interval.validToNs ≤ validFrom
  ended : ∀ interval ∈ state.intervals,
    IntervalSound past inherited start startNs history now interval
  ordered : Ordered (state.intervals.map ValidityInterval.span)

variable {past inherited start startNs}
variable {state : RunState}

theorem RunState.mem_endInterval_iff
    {endNs : Nat} {reason : String} {interval : ValidityInterval} :
    interval ∈ state.endInterval endNs reason ↔
      interval ∈ state.intervals ∨
        ∃ connection validFrom, state.authority = some connection ∧
          state.validFrom = some validFrom ∧
          interval = ⟨validFrom, endNs, connection, reason⟩ := by
  unfold endInterval
  cases authority : state.authority with
  | none => simp
  | some connection =>
      cases validFrom : state.validFrom with
      | none => simp
      | some validFrom => simp

theorem RunState.endInterval_ordered
    {endNs : Nat} {reason : String}
    (ordered : Ordered (state.intervals.map ValidityInterval.span))
    (running : ∀ connection validFrom,
      state.authority = some connection → state.validFrom = some validFrom →
        validFrom ≤ endNs ∧
          ∀ interval ∈ state.intervals, interval.validToNs ≤ validFrom) :
    Ordered ((state.endInterval endNs reason).map
      ValidityInterval.span) := by
  unfold endInterval
  split
  next connection validFrom authority since =>
    obtain ⟨forward, after⟩ := running connection validFrom authority since
    rw [List.map_append, List.map_singleton]
    refine ordered.concat ?_ forward
    intro span member
    obtain ⟨interval, isInterval, rfl⟩ := List.mem_map.mp member
    exact after interval isInterval
  next => exact ordered

namespace RunSound

variable (sound : RunSound past inherited start startNs history now state)

include sound

/-- Ending the running interval with an event keeps what is known. -/
theorem endInterval
    (event : TimelineEvent) (ordered : now ≤ event.atNs)
    (reason : String) :
    (∀ interval ∈ state.endInterval event.atNs reason,
      IntervalSound past inherited start startNs (history ++ [event])
        event.atNs interval) ∧
    Ordered ((state.endInterval event.atNs reason).map
      ValidityInterval.span) := by
  constructor
  · intro interval member
    rcases RunState.mem_endInterval_iff.mp member with
      old | ⟨connection, validFrom, authority, since, rfl⟩
    · exact (sound.ended interval old).concat ordered
    · obtain ⟨_, _, _, running, _⟩ :=
        sound.running connection validFrom authority since
      exact running.ended
  · refine RunState.endInterval_ordered sound.ordered ?_
    intro connection validFrom authority since
    obtain ⟨_, _, _, running, after⟩ :=
      sound.running connection validFrom authority since
    exact ⟨running.untilNow.trans ordered, after⟩

theorem received_concat
    (event : TimelineEvent) (ordered : now ≤ event.atNs) :
    ∀ other ∈ past ++ (history ++ [event]), other.atNs ≤ event.atNs := by
  intro other member
  rw [← List.append_assoc] at member
  rcases List.mem_append.mp member with old | new
  · exact (sound.received other old).trans ordered
  · rw [List.mem_singleton.mp new]

theorem reached_concat (event : TimelineEvent) :
    state.handleEvent event =
      (history ++ [event]).foldl RunState.handleEvent start := by
  rw [List.foldl_append, ← sound.reached]
  rfl

/-- A gap opening ends the running interval and invalidates every book. -/
theorem handleOpening
    {event : GapEventV1} (opened : event.state = .opened)
    (ordered : now ≤ event.effectiveNs) :
    RunSound past inherited start startNs (history ++ [.gap event])
      event.effectiveNs (state.handleGap event) := by
  have ends := sound.endInterval (.gap event) ordered "transport_gap"
  have reached := sound.reached_concat (.gap event)
  simp only [RunState.handleEvent, RunState.handleGap, opened] at reached ⊢
  exact {
    reached := reached
    begun := sound.begun.trans ordered
    received := sound.received_concat (.gap event) ordered
    books := by
      intro connection book found
      rw [Dict.get?_map] at found
      obtain ⟨before, wasBound, rfl⟩ := Option.map_eq_some_iff.mp found
      obtain ⟨sameConnection, named, _⟩ :=
        sound.books connection before wasBound
      exact ⟨sameConnection, named,
        ConnectionBook.supported_invalidate _ _ _ _⟩
    gaps := by
      rw [gapsOf_concat_gap, openGaps_concat, trackGap, opened, sound.gaps]
    paired := by simp
    running := by simp
    ended := ends.1
    ordered := ends.2 }

/-- An event which opens no gap leaves every book its support. -/
theorem books_concat
    (event : TimelineEvent) (ordered : now ≤ event.atNs)
    (notOpening : ¬ event.Opens) :
    ∀ connection book, state.books.get? connection = some book →
      book.connectionId = connection ∧ connection ≠ "" ∧
        book.Supported
          (inherited = some connection ∧
            ∀ other ∈ history ++ [event], ¬ other.Opens)
          (rowsOf (sinceOpening (past ++ (history ++ [event]))))
          event.atNs := by
  intro connection book found
  obtain ⟨sameConnection, named, supported⟩ :=
    sound.books connection book found
  refine ⟨sameConnection, named, (supported.imp ?_).mono ?_ ordered⟩
  · rintro ⟨isInherited, unopened⟩
    refine ⟨isInherited, fun other member => ?_⟩
    rcases List.mem_append.mp member with old | new
    · exact unopened other old
    · rw [List.mem_singleton.mp new]
      exact notOpening
  · rw [← List.append_assoc, sinceOpening_concat, if_neg notOpening,
      rowsOf_append]
    exact List.subset_append_left _ _

/-- The interval which begins with the event at hand. -/
theorem begins
    (event : TimelineEvent) (connection : String) (book : ConnectionBook)
    (ordered : now ≤ event.atNs)
    (allClosed : openGaps (gapsOf (history ++ [event])) = ∅)
    (found :
      (state.handleEvent event).books.get? connection = some book)
    (valid : book.state = .valid) (named : connection ≠ "")
    (sameConnection : book.connectionId = connection)
    (supported : book.Supported
      (inherited = some connection ∧
        ∀ other ∈ history ++ [event], ¬ other.Opens)
      (rowsOf (sinceOpening (past ++ (history ++ [event])))) event.atNs) :
    RunningSound past inherited start startNs (history ++ [event])
      event.atNs connection event.atNs where
  named := named
  fromStart := sound.begun.trans ordered
  untilNow := le_refl _
  closed := closedBy_of_openGaps_eq_empty allClosed fun other member =>
    sound.received_concat event ordered other (List.mem_append_right _ member)
  grounded := by
    refine ⟨history ++ [event], [], by simp, sound.received_concat event ordered,
      by simp, ⟨book, ?_, valid⟩, ?_⟩
    · rwa [← sound.reached_concat]
    · exact sameConnection ▸ supported.bridged valid

/-- A gap closing restores the latest valid connection or changes nothing. -/
theorem handleClosing
    {event : GapEventV1} (closed : event.state = .closed)
    (ordered : now ≤ event.effectiveNs) :
    RunSound past inherited start startNs (history ++ [.gap event])
      event.effectiveNs (state.handleGap event) := by
  have notOpening : ¬ (TimelineEvent.gap event).Opens := by
    simp [TimelineEvent.Opens, closed]
  have reached := sound.reached_concat (.gap event)
  have books := sound.books_concat (.gap event) ordered notOpening
  have gaps : state.activeGaps.erase event.gapId =
      openGaps (gapsOf (history ++ [.gap event])) := by
    rw [gapsOf_concat_gap, openGaps_concat, trackGap, closed, sound.gaps]
  have ended : ∀ interval ∈ state.intervals,
      IntervalSound past inherited start startNs (history ++ [.gap event])
        event.effectiveNs interval :=
    fun interval member => (sound.ended interval member).concat ordered
  -- Every branch but the last only removes the gap from the active ones.
  have unchanged (state' : RunState)
      (same : state' =
        { state with activeGaps := state.activeGaps.erase event.gapId })
      (reached' : state' =
        (history ++ [TimelineEvent.gap event]).foldl
          RunState.handleEvent start) :
      RunSound past inherited start startNs (history ++ [.gap event])
        event.effectiveNs state' := by
    subst same
    exact {
      reached := reached'
      begun := sound.begun.trans ordered
      received := sound.received_concat (.gap event) ordered
      books := books
      gaps := gaps
      paired := sound.paired
      running := by
        intro connection validFrom authority since
        obtain ⟨noGap, latest, valid, running, after⟩ :=
          sound.running connection validFrom authority since
        exact ⟨by simp [noGap], latest, valid,
          running.concat (.gap event) ordered notOpening, after⟩
      ended := ended
      ordered := sound.ordered }
  have handled : state.handleEvent (.gap event) = state.handleGap event := rfl
  rw [handled] at reached
  revert reached
  generalize result : state.handleGap event = state'
  intro reached
  simp only [RunState.handleGap, closed] at result
  split at result
  next => exact unchanged state' result.symm reached
  next noGap =>
    split at result
    next => exact unchanged state' result.symm reached
    next connection latest =>
      split at result
      next => exact unchanged state' result.symm reached
      next candidate found =>
        split at result
        next => exact unchanged state' result.symm reached
        next valid =>
          have isValid : candidate.state = .valid := by simpa using valid
          have noGaps : state.activeGaps.erase event.gapId = ∅ := by
            simpa using noGap
          have atNs : event.effectiveNs = event.observedAtRealtimeNs :=
            GapEventV1.effectiveNs_of_closed closed
          obtain ⟨sameConnection, named, supported⟩ :=
            books connection candidate found
          have sameBooks :
              (state.handleEvent (.gap event)).books.get? connection =
                some candidate := by
            rw [sound.reached_concat, ← reached, ← result]
            exact found
          have begun := sound.begins (.gap event) connection candidate
            ordered
            (gaps ▸ noGaps) sameBooks isValid named sameConnection supported
          have begun' : RunningSound past inherited start startNs
              (history ++ [.gap event]) event.effectiveNs connection
              event.observedAtRealtimeNs := atNs ▸ begun
          subst result
          exact {
            reached := reached
            begun := sound.begun.trans ordered
            received := sound.received_concat (.gap event) ordered
            books := books
            gaps := gaps
            paired := by simp
            running := by
              rintro _ _ ⟨⟩ ⟨⟩
              exact ⟨noGaps, latest, ⟨candidate, found, isValid⟩, begun',
                fun interval member =>
                  atNs ▸ (ended interval member).untilNow⟩
            ended := ended
            ordered := sound.ordered }

/-- What delivering a row to the book of its connection guarantees. -/
theorem delivered
    {row : DepthRow} (ordered : now ≤ row.receivedNs) :
    (state.bookOf row.connectionId).connectionId = row.connectionId ∧
      (state.bookOf row.connectionId).Delivered
        (inherited = some row.connectionId ∧
          ∀ other ∈ history ++ [.row row], ¬ other.Opens)
        (rowsOf (sinceOpening (past ++ (history ++ [.row row]))))
        row.receivedNs
        ((state.bookOf row.connectionId).onRow row) := by
  have notOpening : ¬ (TimelineEvent.row row).Opens := id
  have rows : rowsOf (sinceOpening (past ++ (history ++ [.row row]))) =
      rowsOf (sinceOpening (past ++ history)) ++ [row] := by
    rw [← List.append_assoc, sinceOpening_concat, if_neg notOpening,
      rowsOf_append]
    rfl
  have supported :
      (state.bookOf row.connectionId).connectionId = row.connectionId ∧
        (state.bookOf row.connectionId).Supported
          (inherited = some row.connectionId ∧
            ∀ other ∈ history ++ [.row row], ¬ other.Opens)
          (rowsOf (sinceOpening (past ++ history))) now := by
    unfold RunState.bookOf
    cases found : state.books.get? row.connectionId with
    | none => exact ⟨rfl, ConnectionBook.supported_fresh _ _ _ _⟩
    | some book =>
        obtain ⟨sameConnection, _, supported⟩ :=
          sound.books row.connectionId book found
        refine ⟨sameConnection, supported.imp ?_⟩
        rintro ⟨isInherited, unopened⟩
        refine ⟨isInherited, fun other member => ?_⟩
        rcases List.mem_append.mp member with old | new
        · exact unopened other old
        · rw [List.mem_singleton.mp new]
          exact notOpening
  rw [rows]
  exact ⟨supported.1, ConnectionBook.onRow_delivered supported.2 row
    supported.1.symm ordered⟩

/-- A row keeps the invariant, whatever its book makes of it. -/
theorem handleRow
    {row : DepthRow} (named : row.connectionId ≠ "")
    (ordered : now ≤ row.receivedNs) :
    RunSound past inherited start startNs (history ++ [.row row])
      row.receivedNs (state.handleRow row) := by
  have notOpening : ¬ (TimelineEvent.row row).Opens := id
  have ends := sound.endInterval (.row row) ordered
  have carried := sound.books_concat (.row row) ordered notOpening
  obtain ⟨sameConnection, delivered⟩ := sound.delivered ordered
  have outcome := state.handleRow_outcome row
  have reached : state.handleRow row =
      (history ++ [TimelineEvent.row row]).foldl RunState.handleEvent start :=
    sound.reached_concat (.row row)
  have handled : state.handleEvent (.row row) = state.handleRow row := rfl
  have begins := sound.begins (.row row)
    row.connectionId
    ((state.bookOf row.connectionId).onRow row).1 ordered
  rw [handled] at begins
  have gaps : state.activeGaps =
      openGaps (gapsOf (history ++ [.row row])) := by
    rw [gapsOf_concat_row, sound.gaps]
  have books : ∀ connection book,
      (state.books.set row.connectionId
        ((state.bookOf row.connectionId).onRow row).1).get? connection =
          some book →
        book.connectionId = connection ∧ connection ≠ "" ∧
          book.Supported
            (inherited = some connection ∧
              ∀ other ∈ history ++ [.row row], ¬ other.Opens)
            (rowsOf (sinceOpening (past ++ (history ++ [.row row]))))
            row.receivedNs := by
    intro connection book found
    rw [Dict.get?_set] at found
    split at found
    next same =>
      subst same
      rw [← Option.some.inj found]
      exact ⟨delivered.sameConnection.trans sameConnection, named,
        delivered.supported⟩
    next => exact carried connection book found
  have ended : ∀ interval ∈ state.intervals,
      IntervalSound past inherited start startNs (history ++ [.row row])
        row.receivedNs interval :=
    fun interval member => (sound.ended interval member).concat ordered
  have received := sound.received_concat (.row row) ordered
  -- A running interval which the row does not touch.
  have untouched : ∀ connection validFrom,
      state.authority = some connection → state.validFrom = some validFrom →
      (connection = row.connectionId →
        ((state.bookOf row.connectionId).onRow row).1.state = .valid) →
      state.activeGaps = ∅ ∧
        state.lastValidConnection = some connection ∧
        (∃ book,
          (state.books.set row.connectionId
            ((state.bookOf row.connectionId).onRow row).1).get? connection =
              some book ∧
            book.state = .valid) ∧
        RunningSound past inherited start startNs (history ++ [.row row])
          row.receivedNs connection validFrom ∧
        ∀ interval ∈ state.intervals, interval.validToNs ≤ validFrom := by
    intro connection validFrom authority since stillValid
    obtain ⟨noGap, latest, ⟨book, found, valid⟩, running, after⟩ :=
      sound.running connection validFrom authority since
    refine ⟨noGap, latest, ?_,
      running.concat (.row row) ordered notOpening, after⟩
    by_cases same : connection = row.connectionId
    · exact ⟨_, by rw [Dict.get?_set, if_pos same], stillValid same⟩
    · exact ⟨book, by rw [Dict.get?_set, if_neg same, found], valid⟩
  -- The authority's book is the one the row was delivered to.
  have wasValid : ∀ validFrom,
      state.authority = some row.connectionId →
      state.validFrom = some validFrom →
      (state.bookOf row.connectionId).state = .valid := by
    intro validFrom authority since
    obtain ⟨_, _, ⟨book, found, valid⟩, _, _⟩ :=
      sound.running row.connectionId validFrom authority since
    simpa [RunState.bookOf, found] using valid
  revert outcome reached begins
  generalize change? :
    ((state.bookOf row.connectionId).onRow row).2 = change
  generalize state.handleRow row = state'
  intro outcome reached begins
  cases outcome with
  | silent =>
      exact {
        reached := reached
        begun := sound.begun.trans ordered
        received := received
        books := books
        gaps := gaps
        paired := sound.paired
        running := fun connection validFrom authority since =>
          untouched connection validFrom authority since fun same =>
            (delivered.quiet change?).mpr
              (wasValid validFrom (same ▸ authority) since)
        ended := ended
        ordered := sound.ordered }
  | validInGap change valid gap =>
      exact {
        reached := reached
        begun := sound.begun.trans ordered
        received := received
        books := books
        gaps := gaps
        paired := sound.paired
        running := fun connection validFrom authority since =>
          (gap (sound.running connection validFrom authority since).1).elim
        ended := ended
        ordered := sound.ordered }
  | validated change valid noGap =>
      obtain ⟨_, nowValid, atNs⟩ := delivered.validated change change? valid
      have found : (state.books.set row.connectionId
          ((state.bookOf row.connectionId).onRow row).1).get?
            row.connectionId =
          some ((state.bookOf row.connectionId).onRow row).1 :=
        Dict.get?_set_self _ _ _
      have begun : RunningSound past inherited start startNs
          (history ++ [.row row]) row.receivedNs row.connectionId
          row.receivedNs :=
        begins (gaps ▸ noGap) found nowValid named
          (delivered.sameConnection.trans sameConnection) delivered.supported
      have ends := ends "connection_switch"
      simp only [TimelineEvent.atNs] at ends
      rw [← atNs] at ends begun
      exact {
        reached := reached
        begun := sound.begun.trans ordered
        received := received
        books := books
        gaps := gaps
        paired := by simp
        running := by
          rintro _ _ ⟨⟩ ⟨⟩
          exact ⟨noGap, rfl, ⟨_, found, nowValid⟩, atNs ▸ begun,
            fun interval member => (ends.1 interval member).untilNow⟩
        ended := atNs ▸ ends.1
        ordered := ends.2 }
  | lostAuthority change invalid authority since =>
      obtain ⟨validFrom, isFrom⟩ := Option.isSome_iff_exists.mp since
      have atNs : change.atNs = row.receivedNs :=
        (delivered.gapped change change? invalid).2
          (wasValid validFrom authority isFrom)
      have ends := ends change.reason
      simp only [TimelineEvent.atNs] at ends
      rw [← atNs] at ends
      exact {
        reached := reached
        begun := sound.begun.trans ordered
        received := received
        books := books
        gaps := gaps
        paired := by simp
        running := by simp
        ended := atNs ▸ ends.1
        ordered := ends.2 }
  | lostOther change invalid other =>
      exact {
        reached := reached
        begun := sound.begun.trans ordered
        received := received
        books := books
        gaps := gaps
        paired := sound.paired
        running := fun connection validFrom authority since =>
          untouched connection validFrom authority since fun same =>
            (other ⟨same ▸ authority,
              Option.isSome_iff_exists.mpr ⟨validFrom, since⟩⟩).elim
        ended := ended
        ordered := sound.ordered }

end RunSound

/-- Every timeline event keeps the invariant. -/
theorem RunSound.handleEvent
    (sound : RunSound past inherited start startNs history now state)
    {event : TimelineEvent} (ordered : now ≤ event.atNs)
    (named : ∀ row, event = .row row → row.connectionId ≠ "") :
    RunSound past inherited start startNs (history ++ [event]) event.atNs
      (state.handleEvent event) := by
  cases event with
  | row row => exact sound.handleRow (named row rfl) ordered
  | gap event =>
      cases kind : event.state with
      | opened => exact sound.handleOpening kind ordered
      | closed => exact sound.handleClosing kind ordered

end Sound

end ShadowDataPlane.Central
