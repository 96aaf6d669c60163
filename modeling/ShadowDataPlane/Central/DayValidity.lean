import ShadowDataPlane.Central.ValiditySound
import ShadowDataPlane.Foundation.Result

/-!
# The validity of a day

`ValiditySound` follows the state through a timeline.  Here the timeline is a
day: `run` starts from the checkpoint of the day before, which is admissible
when an earlier timeline `past` supports every book it carries, and writes
intervals which pass the quality check, avoid every gap and are grounded.

What `run` writes is admissible again (`run_checkpoint_admissible`), so the
premise on the checkpoint holds along every chain of days.
-/

namespace ShadowDataPlane.Central

open ShadowDataPlane.Foundation
open ShadowDataPlane.Contracts

/-- The inputs of a day: ordered rows and gap events, all inside the day. -/
structure WellFormedDay (day : L2DayReconstructor) (files : DayFiles) :
    Prop where
  ordered : files.depthRows.Pairwise fun left right =>
    left.receivedNs ≤ right.receivedNs
  received : ∀ row ∈ files.depthRows,
    day.dayStartNs ≤ row.receivedNs ∧ row.receivedNs < day.dayEndNs
  named : ∀ row ∈ files.depthRows, row.connectionId ≠ ""
  effective : ∀ event ∈ files.transportGaps,
    day.dayStartNs ≤ event.effectiveNs ∧ event.effectiveNs < day.dayEndNs

/--
A checkpoint which the timeline `past` up to the boundary supports.  Nothing
is asked of the authoritative book of a `VALID` checkpoint but its name.
-/
structure AdmissibleCheckpoint (past : List TimelineEvent) (boundaryNs : Nat)
    (checkpoint : Option L2CheckpointV1) : Prop where
  received : ∀ event ∈ past, event.atNs ≤ boundaryNs
  named : ∀ restored ∈ checkpoint, ∀ connection ∈ restored.connectionId,
    connection ≠ ""
  anchored : ∀ restored ∈ checkpoint,
    ∀ anchored ∈ restored.anchoredBooks,
      anchored.connectionId ≠ "" ∧
        (ConnectionBook.fromAnchorCheckpoint anchored).Supported False
          (rowsOf (sinceOpening past)) boundaryNs

/-- The connection a day inherits as authoritative. -/
def inheritedConnection (checkpoint : Option L2CheckpointV1) :
    Option String :=
  checkpoint.bind L2CheckpointV1.connectionId

/-! ## The state a day starts from -/

/-- Books restored from a checkpoint, with the authority they leave intact. -/
structure Restored (past : List TimelineEvent) (inherited : Option String)
    (startNs : Nat) (state : RunState) : Prop where
  books : ∀ connection book, state.books.get? connection = some book →
    book.connectionId = connection ∧ connection ≠ "" ∧
      book.Supported (inherited = some connection)
        (rowsOf (sinceOpening past)) startNs
  authority :
    (state.authority = none ∧ state.validFrom = none ∧
      state.lastValidConnection = none) ∨
    ∃ connection book, inherited = some connection ∧
      state.authority = some connection ∧
      state.validFrom = some startNs ∧
      state.lastValidConnection = some connection ∧
      state.books.get? connection = some book ∧ book.state = .valid
  intervals : state.intervals = []
  activeGaps : state.activeGaps = ∅

theorem restored_nothing
    {past : List TimelineEvent} {inherited : Option String} {startNs : Nat} :
    Restored past inherited startNs {} where
  books := by simp
  authority := Or.inl ⟨rfl, rfl, rfl⟩
  intervals := rfl
  activeGaps := rfl

theorem supported_fromCheckpoint
    {inherited : Prop} {rows : List DepthRow} {now : Nat}
    {connection : String} {bids asks : Levels} {updateId : Option Int}
    (holds : inherited) (linked : updateId.isSome) :
    ConnectionBook.Supported inherited rows now
      { connectionId := connection
        state := .valid
        bids := bookSide bids
        asks := bookSide asks
        previousUpdateId := updateId } where
  pending := by simp
  anchored := by simp
  untimed := by simp
  unbridged := by simp
  settled := fun _ => rfl
  linked := fun _ => linked
  bridged := fun _ => Or.inl holds
  bidsTradable := bookSide_tradable _
  asksTradable := bookSide_tradable _

theorem restoreAuthority_restored
    {past : List TimelineEvent} {startNs : Nat}
    {checkpoint : L2CheckpointV1} {state : RunState}
    (named : ∀ connection ∈ checkpoint.connectionId, connection ≠ "")
    (completed : restoreAuthority startNs checkpoint = .ok state) :
    Restored past checkpoint.connectionId startNs state := by
  unfold restoreAuthority at completed
  split at completed
  next valid =>
    obtain ⟨book, restored, result⟩ := bind_eq_ok_iff.mp completed
    rw [← Except.ok.inj result]
    unfold ConnectionBook.fromCheckpoint at restored
    split at restored
    next connection _ isConnection =>
      rw [← Except.ok.inj restored]
      exact {
        books := by
          intro other found isFound
          rw [Dict.get?_set] at isFound
          split at isFound
          next same =>
            rw [← Option.some.inj isFound]
            exact ⟨same.symm, same ▸ named connection isConnection,
              supported_fromCheckpoint (same ▸ isConnection)
                (checkpoint.complete valid).2.1⟩
          next => simp at isFound
        authority := Or.inr
          ⟨connection, _, isConnection, rfl, rfl, rfl,
            Dict.get?_set_self _ _ _, rfl⟩
        intervals := rfl
        activeGaps := rfl }
    next => simp at restored
  next =>
    rw [← Except.ok.inj completed]
    exact restored_nothing

theorem restoreAnchored_restored
    {past : List TimelineEvent} {inherited : Option String} {startNs : Nat}
    {anchored : AnchoredBookCheckpointV1} {before after : RunState}
    (named : anchored.connectionId ≠ "")
    (supported : (ConnectionBook.fromAnchorCheckpoint anchored).Supported
      False (rowsOf (sinceOpening past)) startNs)
    (restored : Restored past inherited startNs before)
    (completed : restoreAnchored before anchored = .ok after) :
    Restored past inherited startNs after := by
  unfold restoreAnchored at completed
  split at completed
  next => simp at completed
  next absent =>
    rw [← Except.ok.inj completed]
    exact {
      books := by
        intro connection book found
        rw [Dict.get?_set] at found
        split at found
        next same =>
          rw [← Option.some.inj found]
          exact ⟨same.symm, same ▸ named, supported.imp False.elim⟩
        next => exact restored.books connection book found
      authority := by
        refine restored.authority.imp_right ?_
        rintro ⟨connection, book, isInherited, authority, since, latest,
          found, valid⟩
        refine ⟨connection, book, isInherited, authority, since, latest,
          ?_, valid⟩
        have different : connection ≠ anchored.connectionId := by
          rintro rfl
          simp [found] at absent
        rw [Dict.get?_set, if_neg different, found]
      intervals := restored.intervals
      activeGaps := restored.activeGaps }

theorem initialState_restored
    {past : List TimelineEvent} {startNs : Nat}
    {checkpoint : Option L2CheckpointV1} {state : RunState}
    (admissible : AdmissibleCheckpoint past startNs checkpoint)
    (completed : initialState startNs checkpoint = .ok state) :
    Restored past (inheritedConnection checkpoint) startNs state := by
  cases checkpoint with
  | none =>
      rw [← Except.ok.inj completed]
      exact restored_nothing
  | some checkpoint =>
      obtain ⟨middle, authority, anchored⟩ := bind_eq_ok_iff.mp completed
      refine foldlM_preserves ?_
        (restoreAuthority_restored (admissible.named checkpoint rfl)
          authority) anchored
      intro book member before after restored stepped
      obtain ⟨named, supported⟩ :=
        admissible.anchored checkpoint rfl book member
      exact restoreAnchored_restored named supported restored stepped

/-- A restored state satisfies the invariant before the first event. -/
theorem Restored.sound
    {past : List TimelineEvent} {inherited : Option String} {startNs : Nat}
    {state : RunState}
    (restored : Restored past inherited startNs state)
    (received : ∀ event ∈ past, event.atNs ≤ startNs) :
    RunSound past inherited state startNs [] startNs state where
  reached := rfl
  begun := le_refl _
  received := by simpa using received
  books := by
    intro connection book found
    obtain ⟨sameConnection, named, supported⟩ :=
      restored.books connection book found
    refine ⟨sameConnection, named, ?_⟩
    rw [List.append_nil]
    exact supported.imp fun isInherited => ⟨isInherited, by simp⟩
  gaps := restored.activeGaps
  paired := by
    rcases restored.authority with
      ⟨authority, since, _⟩ | ⟨_, _, _, authority, since, _⟩
    · simp [authority, since]
    · simp [authority, since]
  running := by
    intro connection validFrom authority since
    rcases restored.authority with
      ⟨absent, _⟩ | ⟨other, book, isInherited, isAuthority, isSince, latest,
        found, valid⟩
    · simp [absent] at authority
    · have same : other = connection :=
        Option.some.inj (isAuthority.symm.trans authority)
      have start : startNs = validFrom :=
        Option.some.inj (isSince.symm.trans since)
      subst same start
      refine ⟨restored.activeGaps, latest, ⟨book, found, valid⟩, ?_,
        by simp [restored.intervals]⟩
      exact {
        named := (restored.books other book found).2.1
        fromStart := le_refl _
        untilNow := le_refl _
        closed := by
          intro before opening after split
          simp [gapsOf] at split
        grounded := ⟨[], [], rfl, by simpa using received, by simp,
          ⟨book, found, valid⟩, Or.inl ⟨isInherited, by simp⟩⟩ }
  ended := by simp [restored.intervals]
  ordered := by simpa [restored.intervals] using ordered_nil

/-! ## Running through a timeline -/

section Run

variable {past : List TimelineEvent} {inherited : Option String}
variable {start : RunState} {startNs endNs : Nat}

/--
The invariant holds at the end of every ordered timeline, and so does what
each event preserves in a sound state.
-/
theorem RunSound.foldl
    {holds : List TimelineEvent → RunState → Prop}
    (preserved : ∀ history now state event,
      RunSound past inherited start startNs history now state →
      now ≤ event.atNs → holds history state →
        holds (history ++ [event]) (state.handleEvent event))
    {history later : List TimelineEvent} {now : Nat} {state : RunState}
    (sound : RunSound past inherited start startNs history now state)
    (initially : holds history state)
    (ordered : later.Pairwise fun left right => left.atNs ≤ right.atNs)
    (future : ∀ event ∈ later, now ≤ event.atNs)
    (named : ∀ row ∈ rowsOf later, row.connectionId ≠ "")
    (bounded : ∀ event ∈ later, event.atNs ≤ endNs) (notPast : now ≤ endNs) :
    ∃ final ≤ endNs,
      RunSound past inherited start startNs (history ++ later) final
          (later.foldl RunState.handleEvent state) ∧
        holds (history ++ later)
          (later.foldl RunState.handleEvent state) := by
  induction later generalizing history now state with
  | nil => exact ⟨now, notPast, by simpa using ⟨sound, initially⟩⟩
  | cons event rest induction =>
      obtain ⟨first, restOrdered⟩ := List.pairwise_cons.mp ordered
      have next := sound.handleEvent (future event List.mem_cons_self)
        (by
          rintro row rfl
          exact named row (mem_rowsOf_iff.mpr List.mem_cons_self))
      have kept := preserved history now state event sound
        (future event List.mem_cons_self) initially
      have namedRest : ∀ row ∈ rowsOf rest, row.connectionId ≠ "" := by
        intro row member
        exact named row (mem_rowsOf_iff.mpr
          (List.mem_cons_of_mem _ (mem_rowsOf_iff.mp member)))
      have final := induction next kept restOrdered first namedRest
        (fun other member => bounded other (List.mem_cons_of_mem _ member))
        (bounded event List.mem_cons_self)
      simpa using final

/-- What `finish` makes of a sound state. -/
theorem RunSound.finish
    {history : List TimelineEvent} {now : Nat} {state : RunState}
    (sound : RunSound past inherited start startNs history now state)
    (notPast : now ≤ endNs) :
    (∀ interval ∈ (state.finish endNs).intervals,
      interval.validFromNs < interval.validToNs ∧
        IntervalSound past inherited start startNs history endNs
          interval) ∧
      Separated ((state.finish endNs).intervals.map
        ValidityInterval.span) := by
  have ordered : Ordered ((state.endInterval endNs "utc_day_end").map
      ValidityInterval.span) := by
    refine RunState.endInterval_ordered sound.ordered ?_
    intro connection validFrom authority since
    obtain ⟨_, _, _, running, after⟩ :=
      sound.running connection validFrom authority since
    exact ⟨running.untilNow.trans notPast, after⟩
  constructor
  · intro interval member
    obtain ⟨inEnded, nonempty⟩ := List.mem_filter.mp member
    refine ⟨by simpa using nonempty, ?_⟩
    rcases RunState.mem_endInterval_iff.mp inEnded with
      old | ⟨connection, validFrom, authority, since, rfl⟩
    · have ended := sound.ended interval old
      exact { ended with untilNow := ended.untilNow.trans notPast }
    · obtain ⟨_, _, _, running, _⟩ :=
        sound.running connection validFrom authority since
      exact running.finished
  · have separated := ordered.separated_filter
    rwa [List.filter_map] at separated

end Run

/-! ## One day -/

namespace L2DayReconstructor

/-- The timeline of a day's inputs. -/
def dayTimeline (day : L2DayReconstructor) (files : DayFiles) :
    List TimelineEvent :=
  timeline day.exchangeSymbol files.depthRows files.transportGaps

variable {day : L2DayReconstructor} {files : DayFiles} {output : DayOutput}

theorem loadPreviousCheckpoint_ok
    {checkpoint : Option L2CheckpointV1}
    (loaded : day.loadPreviousCheckpoint files = .ok checkpoint) :
    checkpoint = files.previousCheckpoint := by
  unfold loadPreviousCheckpoint at loaded
  split at loaded
  next absent => rw [absent, ← Except.ok.inj loaded]
  next previous present =>
    split at loaded
    next => simp at loaded
    next =>
      split at loaded
      next => simp at loaded
      next => rw [present, ← Except.ok.inj loaded]

/-- What a completed run has computed. -/
theorem run_completed (completed : day.run files = .ok output) :
    ∃ start, initialState day.dayStartNs files.previousCheckpoint =
        .ok start ∧
      let final := (day.dayTimeline files).foldl RunState.handleEvent start
      let result := final.finish day.dayEndNs
      output.changes = result.changes ∧
        output.intervals = result.intervals ∧
        buildCheckpoint day day.dayEndNs result.finalBook result.books =
          .ok output.checkpoint := by
  unfold run at completed
  obtain ⟨canStart, _, completed⟩ := bind_eq_ok_iff.mp completed
  obtain ⟨checkpoint, loaded, completed⟩ := bind_eq_ok_iff.mp completed
  have isPrevious := loadPreviousCheckpoint_ok loaded
  subst isPrevious
  split at completed
  next => simp at completed
  obtain ⟨result, reconstructed, completed⟩ := bind_eq_ok_iff.mp completed
  obtain ⟨start, initial, isResult⟩ := bind_eq_ok_iff.mp reconstructed
  obtain ⟨written, built, isOutput⟩ := bind_eq_ok_iff.mp completed
  rw [RunState.advance_eq_foldl] at isResult
  have resultIs := Except.ok.inj isResult
  rw [← resultIs] at built isOutput
  rw [← Except.ok.inj isOutput]
  exact ⟨start, initial, rfl, rfl, built⟩

theorem dayTimeline_inside (wellFormed : WellFormedDay day files) :
    ∀ event ∈ day.dayTimeline files,
      day.dayStartNs ≤ event.atNs ∧ event.atNs < day.dayEndNs := by
  intro event member
  rcases mem_mergeTimeline_iff.mp member with
    ⟨gap, isGap, rfl⟩ | ⟨row, isRow, rfl⟩
  · have relevant := GapEventV1.mem_sortEvents.mp isGap
    exact wellFormed.effective gap (List.mem_of_mem_filter relevant)
  · exact wellFormed.received row isRow

/--
The state at the end of a day satisfies the invariant no later than its last
instant, and so does what each event preserves in a sound state.
-/
theorem dayTimeline_sound
    {past : List TimelineEvent} {start : RunState}
    (holds : List TimelineEvent → RunState → Prop)
    (preserved : ∀ history now state event,
      RunSound past (inheritedConnection files.previousCheckpoint) start
        day.dayStartNs history now state →
      now ≤ event.atNs → holds history state →
        holds (history ++ [event]) (state.handleEvent event))
    (wellFormed : WellFormedDay day files)
    (admissible :
      AdmissibleCheckpoint past day.dayStartNs files.previousCheckpoint)
    (initial :
      initialState day.dayStartNs files.previousCheckpoint = .ok start)
    (initially : holds [] start) :
    ∃ final < day.dayEndNs,
      RunSound past (inheritedConnection files.previousCheckpoint) start
          day.dayStartNs (day.dayTimeline files) final
          ((day.dayTimeline files).foldl RunState.handleEvent start) ∧
        holds (day.dayTimeline files)
          ((day.dayTimeline files).foldl RunState.handleEvent start) := by
  have sound :=
    (initialState_restored admissible initial).sound admissible.received
  have inside := dayTimeline_inside wellFormed
  have dayLength : day.dayStartNs < day.dayEndNs :=
    midnightNs_lt_succ day.utcDate
  have named : ∀ row ∈ rowsOf (day.dayTimeline files),
      row.connectionId ≠ "" := by
    intro row member
    rw [dayTimeline, timeline, rowsOf_mergeTimeline] at member
    exact wellFormed.named row member
  have bounded : ∀ event ∈ day.dayTimeline files,
      event.atNs ≤ day.dayEndNs - 1 := fun event member =>
    Nat.le_sub_one_of_lt (inside event member).2
  obtain ⟨final, inDay, reached⟩ := sound.foldl
    preserved initially (timeline_ordered wellFormed.ordered)
    (fun event member => (inside event member).1) named bounded
    (Nat.le_sub_one_of_lt dayLength)
  exact ⟨final, by omega, reached⟩

/-! ## The checkpoint of a day -/

/-- A checkpoint keeps what supports the book it is taken from. -/
theorem anchorCheckpoint_supported
    {inherited : Prop} {rows : List DepthRow} {now : Nat}
    {book : ConnectionBook} {anchored : AnchoredBookCheckpointV1}
    (supported : book.Supported inherited rows now)
    (written : anchorCheckpoint book = .ok anchored) :
    anchored.connectionId = book.connectionId ∧
      (ConnectionBook.fromAnchorCheckpoint anchored).Supported False rows
        now := by
  unfold anchorCheckpoint at written
  split at written
  next updateId anchor received _ isAnchor isReceived =>
    split at written
    next unbridged =>
      rw [← Except.ok.inj written]
      refine ⟨rfl, ?_⟩
      exact {
        pending := fun diff member =>
          supported.pending diff (List.mem_of_mem_filter member)
        anchored := by
          intro other isOther
          have same : anchor = other := Option.some.inj isOther
          obtain ⟨snapshot, row, sameConnection, lastUpdateId, time,
            inTime⟩ := supported.anchored other (same ▸ isAnchor)
          exact ⟨snapshot, row, sameConnection, lastUpdateId,
            isReceived.symm.trans time, inTime⟩
        untimed := by simp [ConnectionBook.fromAnchorCheckpoint]
        unbridged := by
          intro other isOther _ diff member
          have same : anchor = other := Option.some.inj isOther
          exact supported.unbridged other (same ▸ isAnchor) unbridged.1 diff
            (List.mem_of_mem_filter member)
        settled := fun valid => (unbridged.1 valid).elim
        linked := fun valid => (unbridged.1 valid).elim
        bridged := fun valid => (unbridged.1 valid).elim
        bidsTradable := bookSide_tradable _
        asksTradable := bookSide_tradable _ }
    next => simp at written
  next => simp at written

theorem buildCheckpoint_ok
    {validThroughNs : Nat} {book : Option ConnectionBook}
    {books : Dict String ConnectionBook} {checkpoint : L2CheckpointV1}
    (built : buildCheckpoint day validThroughNs book books =
      .ok checkpoint) :
    (∀ connection ∈ checkpoint.connectionId,
      ∃ final, book = some final ∧ final.connectionId = connection) ∧
      ∀ anchored ∈ checkpoint.anchoredBooks,
        ∃ candidate ∈ books.values,
          anchorCheckpoint candidate = .ok anchored := by
  obtain ⟨written, mapped, assembled⟩ := bind_eq_ok_iff.mp built
  have sources : ∀ anchored ∈ written, ∃ candidate ∈ books.values,
      anchorCheckpoint candidate = .ok anchored := by
    intro anchored member
    obtain ⟨candidate, isCandidate, converted⟩ :=
      exists_of_mem_mapM mapped member
    exact ⟨candidate, List.mem_of_mem_filter isCandidate, converted⟩
  split at assembled
  next final =>
    split at assembled
    next carried =>
      rw [← Except.ok.inj assembled]
      exact ⟨fun connection isConnection =>
        ⟨final, rfl, Option.some.inj isConnection⟩, sources⟩
    next =>
      rw [← Except.ok.inj assembled]
      exact ⟨fun _ isConnection => by
        simp [unanchoredCheckpoint] at isConnection, sources⟩
  next =>
    rw [← Except.ok.inj assembled]
    exact ⟨fun _ isConnection => by
      simp [unanchoredCheckpoint] at isConnection, sources⟩

theorem RunState.finish_finalBook
    {state : RunState} {endNs : Nat} {book : ConnectionBook}
    (isFinal : (state.finish endNs).finalBook = some book) :
    ∃ connection, state.books.get? connection = some book := by
  simp only [RunState.finish] at isFinal
  split at isFinal
  next authority _ =>
    split at isFinal
    next => exact ⟨authority, isFinal⟩
    next => simp at isFinal
  next => simp at isFinal

/-- The checkpoint of a completed day is admissible on the next one. -/
theorem run_checkpoint_admissible
    {past : List TimelineEvent}
    (wellFormed : WellFormedDay day files)
    (admissible :
      AdmissibleCheckpoint past day.dayStartNs files.previousCheckpoint)
    (completed : day.run files = .ok output) :
    AdmissibleCheckpoint (past ++ day.dayTimeline files) day.dayEndNs
      (some output.checkpoint) := by
  obtain ⟨start, initial, _, _, built⟩ := run_completed completed
  obtain ⟨final, inDay, sound, _⟩ :=
    dayTimeline_sound (fun _ _ => True) (fun _ _ _ _ _ _ _ => trivial)
      wellFormed admissible initial trivial
  obtain ⟨authority, anchoredFrom⟩ := buildCheckpoint_ok built
  exact {
    received := fun event member =>
      (sound.received event member).trans inDay.le
    named := by
      rintro _ ⟨⟩ connection isConnection
      obtain ⟨book, isFinal, sameConnection⟩ :=
        authority connection isConnection
      obtain ⟨key, found⟩ := RunState.finish_finalBook isFinal
      obtain ⟨sameKey, named, _⟩ := sound.books key book found
      rw [← sameConnection, sameKey]
      exact named
    anchored := by
      rintro _ ⟨⟩ anchored member
      obtain ⟨candidate, isValue, written⟩ := anchoredFrom anchored member
      obtain ⟨key, found⟩ := (Dict.mem_values_iff _).mp isValue
      obtain ⟨sameKey, named, supported⟩ := sound.books key candidate found
      obtain ⟨sameConnection, kept⟩ :=
        anchorCheckpoint_supported supported written
      refine ⟨?_, kept.mono (List.Subset.refl _) inDay.le⟩
      rw [sameConnection, sameKey]
      exact named }

/-! ## The result -/

/--
The intervals a day writes are nonempty, ordered and inside the day, so the
quality check accepts them; none has an instant inside a gap of the symbol's
depth stream, and each began while its connection's book was `VALID`,
inherited or bridged, on nothing received before the latest gap opening.
-/
theorem run_validity_sound
    {past : List TimelineEvent}
    (wellFormed : WellFormedDay day files)
    (admissible :
      AdmissibleCheckpoint past day.dayStartNs files.previousCheckpoint)
    (completed : day.run files = .ok output) :
    Separated (output.intervals.map ValidityInterval.span) ∧
      (∀ interval ∈ output.intervals,
        day.dayStartNs ≤ interval.validFromNs ∧
          interval.validToNs ≤ day.dayEndNs) ∧
      validateValidity day.utcDate output.intervals =
        .ok (output.intervals.map ValidityInterval.span) ∧
      (∀ interval ∈ output.intervals, ∀ instant,
        interval.validFromNs ≤ instant → instant < interval.validToNs →
          ¬ InsideGap
            (transportGapEvents day.exchangeSymbol files.transportGaps)
            instant) ∧
      ∃ start, initialState day.dayStartNs files.previousCheckpoint =
          .ok start ∧
        ∀ interval ∈ output.intervals,
          Grounded past (inheritedConnection files.previousCheckpoint) start
            (day.dayTimeline files) interval.connectionId
            interval.validFromNs := by
  obtain ⟨start, initial, _, intervals, _⟩ := run_completed completed
  obtain ⟨final, inDay, sound, _⟩ :=
    dayTimeline_sound (fun _ _ => True) (fun _ _ _ _ _ _ _ => trivial)
      wellFormed admissible initial trivial
  obtain ⟨ended, separated⟩ := sound.finish inDay.le
  rw [← intervals] at ended separated
  have inside : ∀ interval ∈ output.intervals,
      day.dayStartNs ≤ interval.validFromNs ∧
        interval.validToNs ≤ day.dayEndNs := fun interval member =>
    have ⟨_, ended⟩ := ended interval member
    ⟨ended.fromStart, ended.untilNow⟩
  have gaps : gapsOf (day.dayTimeline files) =
      transportGapEvents day.exchangeSymbol files.transportGaps :=
    gapsOf_mergeTimeline _ _
  refine ⟨separated, inside,
    validateValidity_eq_ok (fun interval member =>
      (ended interval member).2.named) inside separated, ?_,
    start, initial, fun interval member => ?_⟩
  · intro interval member instant fromStart beforeEnd
    rw [← gaps]
    exact (ended interval member).2.apart.not_insideGap fromStart beforeEnd
  · obtain ⟨nonempty, ended⟩ := ended interval member
    exact ended.grounded nonempty

end L2DayReconstructor

/-- A day which inherits connection `a` and loses it to one gap. -/
def inheritingDay : L2DayReconstructor := ⟨"collector", 1, "BTCUSDT"⟩

def inheritingFiles : DayFiles where
  normalized := some {}
  previousCheckpoint := some {
    collectorId := "collector"
    utcDate := 0
    exchangeSymbol := "BTCUSDT"
    state := .valid
    connectionId := some "a"
    previousUpdateId := some 5
    validThroughNs := some (midnightNs 1)
    bids := [(1, 1)]
    asks := [(2, 1)] }
  depthRows :=
    [.depth ⟨"a", 1, midnightNs 1 + 100, 6, 6, 5, [], [], []⟩,
      .depthSnapshot ⟨"a", 2, midnightNs 1 + 400, 10, [(1, 1)], [(2, 1)]⟩,
      .depth ⟨"a", 3, midnightNs 1 + 450, 10, 11, 9, [], [], []⟩]
  transportGaps :=
    [{ gapId := "gap-0001", state := .opened, reason := .connectionLost
       observedAtRealtimeNs := midnightNs 1 + 320
       affectedFromRealtimeNs := some (midnightNs 1 + 300) },
      { gapId := "gap-0001", state := .closed, reason := .connectionLost
        observedAtRealtimeNs := midnightNs 1 + 350
        closedUnaffected := GapEventV1.unaffected .closed }]

theorem inheritingFiles_wellFormed :
    WellFormedDay inheritingDay inheritingFiles where
  ordered := by decide
  received := by decide
  named := by decide
  effective := by decide

theorem inheritingFiles_admissible :
    AdmissibleCheckpoint [] inheritingDay.dayStartNs
      inheritingFiles.previousCheckpoint where
  received := by simp
  named := by decide
  anchored := by
    rintro restored ⟨⟩ anchored member
    simp at member

/-- The day's two intervals, on either side of its gap. -/
theorem run_validity_sound_inheriting :
    ∃ output, inheritingDay.run inheritingFiles = .ok output ∧
      output.intervals.map ValidityInterval.span =
        [(midnightNs 1, midnightNs 1 + 300),
          (midnightNs 1 + 450, midnightNs 2)] ∧
      validateValidity 1 output.intervals =
        .ok (output.intervals.map ValidityInterval.span) := by
  have spans : ((inheritingDay.run inheritingFiles).toOption.map
      fun output => output.intervals.map ValidityInterval.span) =
        some [(midnightNs 1, midnightNs 1 + 300),
          (midnightNs 1 + 450, midnightNs 2)] := by
    decide +kernel
  cases completed : inheritingDay.run inheritingFiles with
  | error problem => simp [completed, Except.toOption] at spans
  | ok output =>
      have sound := L2DayReconstructor.run_validity_sound
        inheritingFiles_wellFormed inheritingFiles_admissible completed
      refine ⟨output, rfl, ?_, sound.2.2.1⟩
      simpa [completed, Except.toOption] using spans

end ShadowDataPlane.Central
