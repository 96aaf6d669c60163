import ShadowDataPlane.Central.DayValidity

/-!
# The authority, read off the inputs

Every connection's book follows its own rows and the gap openings alone:
`bookAfter` replays them without the reconstructor.  In these terms the
authority at the end of a timeline needs no running state.  A connection holds
it when no gap is open, its book was the last to become `VALID` since the
latest opening, and that book still is.
-/

namespace ShadowDataPlane.Central

open ShadowDataPlane.Foundation
open ShadowDataPlane.Contracts

/-- The book of a row's connection, fresh if there is none. -/
def bookFor (row : DepthRow) (book? : Option ConnectionBook) :
    ConnectionBook :=
  book?.getD { connectionId := row.connectionId }

/-- What one timeline event does to the book of one connection. -/
def bookStep (connection : String) (book? : Option ConnectionBook) :
    TimelineEvent → Option ConnectionBook
  | .gap event =>
      match event.state with
      | .opened => book?.map ConnectionBook.invalidate
      | .closed => book?
  | .row row =>
      if row.connectionId = connection then
        some ((bookFor row book?).onRow row).1
      else book?

/-- The book of a connection after a timeline. -/
def bookAfter (restored : Dict String ConnectionBook)
    (events : List TimelineEvent) (connection : String) :
    Option ConnectionBook :=
  events.foldl (bookStep connection) (restored.get? connection)

theorem bookAfter_concat
    (restored : Dict String ConnectionBook) (events : List TimelineEvent)
    (event : TimelineEvent) (connection : String) :
    bookAfter restored (events ++ [event]) connection =
      bookStep connection (bookAfter restored events connection) event := by
  simp [bookAfter]

theorem RunState.handleRow_books (state : RunState) (row : DepthRow) :
    (state.handleRow row).books =
      state.books.set row.connectionId
        ((state.bookOf row.connectionId).onRow row).1 := by
  have outcome := state.handleRow_outcome row
  revert outcome
  generalize ((state.bookOf row.connectionId).onRow row).2 = change
  generalize state.handleRow row = result
  intro outcome
  cases outcome <;> rfl

theorem RunState.handleEvent_books
    (state : RunState) (event : TimelineEvent) (connection : String) :
    (state.handleEvent event).books.get? connection =
      bookStep connection (state.books.get? connection) event := by
  cases event with
  | gap event =>
      cases kind : event.state with
      | opened =>
          simp [handleEvent, handleGap, bookStep, kind, Dict.get?_map]
      | closed =>
          simp only [handleEvent, handleGap, bookStep, kind]
          repeat' split
          all_goals rfl
  | row row =>
      rw [handleEvent, handleRow_books, Dict.get?_set]
      simp only [bookStep, eq_comm (a := connection)]
      split
      next same =>
        subst same
        rfl
      next => rfl

/-- The reconstructor's books are the replayed ones. -/
theorem RunState.foldl_books
    (start : RunState) (events : List TimelineEvent) (connection : String) :
    (events.foldl handleEvent start).books.get? connection =
      bookAfter start.books events connection := by
  induction events using List.reverseRecOn with
  | nil => rfl
  | append_singleton events event induction =>
      rw [List.foldl_append, bookAfter_concat, ← induction]
      exact handleEvent_books _ _ _

/-- Delivering the row makes its book `VALID`. -/
def Validates (restored : Dict String ConnectionBook)
    (earlier : List TimelineEvent) (row : DepthRow) : Prop :=
  ∃ change,
    ((bookFor row (bookAfter restored earlier row.connectionId)).onRow
        row).2 = some change ∧
      change.state = .valid

/--
The connection is the last one whose book became `VALID`, and no gap was
opened since.
-/
def LastValidated (restored : Dict String ConnectionBook)
    (events : List TimelineEvent) (connection : String) : Prop :=
  ∃ earlier row later, events = earlier ++ .row row :: later ∧
    row.connectionId = connection ∧
    Validates restored earlier row ∧
    (∀ event ∈ later, ¬ event.Opens) ∧
    ∀ between other rest, later = between ++ .row other :: rest →
      ¬ Validates restored (earlier ++ .row row :: between) other

/-- The book of the connection is `VALID` after the timeline. -/
def HoldsValid (restored : Dict String ConnectionBook)
    (events : List TimelineEvent) (connection : String) : Prop :=
  ∃ book, bookAfter restored events connection = some book ∧
    book.state = .valid

section LastValidated

variable {restored : Dict String ConnectionBook}
variable {events : List TimelineEvent} {connection : String}

theorem not_lastValidated_concat_opening
    (event : TimelineEvent) (opens : event.Opens) :
    ¬ LastValidated restored (events ++ [event]) connection := by
  rintro ⟨earlier, row, later, split, _, _, unopened, _⟩
  rcases concat_eq_split_iff.mp split with
    ⟨_, _, rfl⟩ | ⟨shorter, rfl, _⟩
  · exact opens
  · exact unopened event (List.mem_append_right _ List.mem_cons_self) opens

/-- An event which neither opens a gap nor validates a book changes nothing. -/
theorem lastValidated_concat_iff
    {event : TimelineEvent} (notOpening : ¬ event.Opens)
    (notValidating : ∀ row, event = .row row →
      ¬ Validates restored events row) :
    LastValidated restored (events ++ [event]) connection ↔
      LastValidated restored events connection := by
  constructor
  · rintro ⟨earlier, row, later, split, isConnection, validates, unopened,
      latest⟩
    rcases concat_eq_split_iff.mp split with
      ⟨_, rfl, isRow⟩ | ⟨shorter, rfl, shorterSplit⟩
    · exact (notValidating row isRow.symm validates).elim
    · refine ⟨earlier, row, shorter, shorterSplit, isConnection, validates,
        fun other member => unopened other (List.mem_append_left _ member),
        fun between other rest isShorter => ?_⟩
      exact latest between other (rest ++ [event]) (by simp [isShorter])
  · rintro ⟨earlier, row, later, rfl, isConnection, validates, unopened,
      latest⟩
    refine ⟨earlier, row, later ++ [event], by simp, isConnection,
      validates, ?_, ?_⟩
    · intro other member
      rcases List.mem_append.mp member with old | new
      · exact unopened other old
      · rw [List.mem_singleton.mp new]
        exact notOpening
    · intro between other rest split
      rcases concat_eq_split_iff.mp split with
        ⟨_, rfl, isRow⟩ | ⟨shorter, _, shorterSplit⟩
      · exact notValidating other isRow.symm
      · exact latest between other shorter shorterSplit

theorem lastValidated_concat_row_iff
    {row : DepthRow} (validates : Validates restored events row) :
    LastValidated restored (events ++ [.row row]) connection ↔
      connection = row.connectionId := by
  constructor
  · rintro ⟨earlier, other, later, split, isConnection, _, _, latest⟩
    rcases concat_eq_split_iff.mp split with
      ⟨_, _, isRow⟩ | ⟨shorter, rfl, rfl⟩
    · rw [← isConnection, TimelineEvent.row.inj isRow]
    · exact (latest shorter row [] rfl validates).elim
  · rintro rfl
    exact ⟨events, row, [], rfl, rfl, validates, by simp, by simp⟩

end LastValidated

/-! ## The authority is what the replay says -/

section Authority

variable {past : List TimelineEvent} {inherited : Option String}
variable {start : RunState} {startNs now : Nat}
variable {history : List TimelineEvent} {state : RunState}

/-- The latest valid connection and the authority, in terms of the inputs. -/
structure AuthorityRead (inherited : Option String)
    (restored : Dict String ConnectionBook) (history : List TimelineEvent)
    (state : RunState) : Prop where
  latest : ∀ connection, state.lastValidConnection = some connection →
    (inherited = some connection ∧ ∀ event ∈ history, ¬ event.Opens) ∨
      LastValidated restored history connection
  remembered : ∀ connection, LastValidated restored history connection →
    HoldsValid restored history connection →
      state.lastValidConnection = some connection
  authority : ∀ connection, state.activeGaps = ∅ →
    state.lastValidConnection = some connection →
      HoldsValid restored history connection →
        state.authority = some connection

theorem RunSound.bookAfter
    (sound : RunSound past inherited start startNs history now state)
    (connection : String) :
    bookAfter start.books history connection =
      state.books.get? connection := by
  rw [sound.reached, RunState.foldl_books]

/-- A row validates exactly when the reconstructor sees a `VALID` change. -/
theorem RunSound.validates_iff
    (sound : RunSound past inherited start startNs history now state)
    (row : DepthRow) :
    Validates start.books history row ↔
      ∃ change, ((state.bookOf row.connectionId).onRow row).2 = some change ∧
        change.state = .valid := by
  rw [Validates, sound.bookAfter]
  rfl

/-- What a closing does to the parts of the state the authority rests on. -/
theorem RunState.handleGap_closed
    (state : RunState) {event : GapEventV1} (closed : event.state = .closed) :
    (state.handleGap event).lastValidConnection =
        state.lastValidConnection ∧
      (state.handleGap event).activeGaps =
        state.activeGaps.erase event.gapId ∧
      ∀ connection book, state.activeGaps.erase event.gapId = ∅ →
        state.lastValidConnection = some connection →
        state.books.get? connection = some book → book.state = .valid →
          (state.handleGap event).authority = some connection := by
  simp only [handleGap, closed]
  split
  next gap => exact ⟨rfl, rfl, fun _ _ noGap => (gap noGap).elim⟩
  next =>
    split
    next none =>
      exact ⟨rfl, rfl, fun connection book _ latest => by simp_all⟩
    next connection latest =>
      split
      next absent =>
        refine ⟨rfl, rfl, fun other book _ isLatest found => ?_⟩
        have same := Option.some.inj (latest.symm.trans isLatest)
        simp [← same, absent] at found
      next candidate isCandidate =>
        split
        next invalid =>
          refine ⟨rfl, rfl, fun other book _ isLatest found valid => ?_⟩
          have same := Option.some.inj (latest.symm.trans isLatest)
          rw [← same, isCandidate] at found
          exact (invalid (Option.some.inj found ▸ valid)).elim
        next =>
          exact ⟨rfl, rfl, fun other book _ isLatest _ _ =>
            latest.symm.trans isLatest⟩

variable (sound : RunSound past inherited start startNs history now state)

include sound

theorem RunSound.holdsValid_iff (connection : String) :
    HoldsValid start.books history connection ↔
      ∃ book, state.books.get? connection = some book ∧
        book.state = .valid := by
  rw [HoldsValid, sound.bookAfter]

theorem RunSound.bookOf_valid_iff (row : DepthRow) :
    (state.bookOf row.connectionId).state = .valid ↔
      HoldsValid start.books history row.connectionId := by
  rw [sound.holdsValid_iff, RunState.bookOf]
  cases state.books.get? row.connectionId <;> simp

theorem RunSound.holdsValid_concat_row
    (row : DepthRow) (connection : String) :
    HoldsValid start.books (history ++ [.row row]) connection ↔
      if connection = row.connectionId then
        ((state.bookOf row.connectionId).onRow row).1.state = .valid
      else HoldsValid start.books history connection := by
  rw [HoldsValid, bookAfter_concat, sound.bookAfter]
  simp only [bookStep]
  split
  next same =>
    subst same
    simp only [Option.some.injEq, exists_eq_left', if_true]
    rfl
  next different =>
    rw [if_neg (Ne.symm different), sound.holdsValid_iff]

omit sound

theorem holdsValid_concat_closing
    {restored : Dict String ConnectionBook} {event : GapEventV1}
    (closed : event.state = .closed) (connection : String) :
    HoldsValid restored (history ++ [.gap event]) connection ↔
      HoldsValid restored history connection := by
  rw [HoldsValid, bookAfter_concat, HoldsValid]
  simp [bookStep, closed]

theorem authorityRead_handleOpening
    {event : GapEventV1} (opened : event.state = .opened) :
    AuthorityRead inherited start.books (history ++ [.gap event])
      (state.handleGap event) := by
  have forgets : (state.handleGap event).lastValidConnection = none := by
    simp [RunState.handleGap, opened]
  exact {
    latest := fun connection latest => by simp [forgets] at latest
    remembered := fun connection last =>
      (not_lastValidated_concat_opening
        (.gap event) opened last).elim
    authority := fun connection _ latest => by simp [forgets] at latest }

theorem AuthorityRead.handleClosing
    (read : AuthorityRead inherited start.books history state)
    (sound : RunSound past inherited start startNs history now state)
    {event : GapEventV1} (closed : event.state = .closed) :
    AuthorityRead inherited start.books (history ++ [.gap event])
      (state.handleGap event) := by
  have notOpening : ¬ (TimelineEvent.gap event).Opens := by
    simp [TimelineEvent.Opens, closed]
  obtain ⟨sameLatest, gaps, restores⟩ := state.handleGap_closed closed
  have last (connection : String) :
      LastValidated start.books (history ++ [.gap event]) connection ↔
        LastValidated start.books history connection :=
    lastValidated_concat_iff notOpening (by simp)
  exact {
    latest := by
      intro connection latest
      rw [sameLatest] at latest
      rcases read.latest connection latest with
        ⟨isInherited, unopened⟩ | validated
      · refine Or.inl ⟨isInherited, fun other member => ?_⟩
        rcases List.mem_append.mp member with old | new
        · exact unopened other old
        · rw [List.mem_singleton.mp new]
          exact notOpening
      · exact Or.inr ((last connection).mpr validated)
    remembered := by
      intro connection validated valid
      rw [sameLatest]
      exact read.remembered connection ((last connection).mp validated)
        ((holdsValid_concat_closing closed connection).mp valid)
    authority := by
      intro connection noGap latest valid
      rw [gaps] at noGap
      rw [sameLatest] at latest
      obtain ⟨book, found, isValid⟩ := (sound.holdsValid_iff connection).mp
        ((holdsValid_concat_closing closed connection).mp valid)
      exact restores connection book noGap latest found isValid }

theorem AuthorityRead.handleRow
    (read : AuthorityRead inherited start.books history state)
    (sound : RunSound past inherited start startNs history now state)
    {row : DepthRow} (ordered : now ≤ row.receivedNs) :
    AuthorityRead inherited start.books (history ++ [.row row])
      (state.handleRow row) := by
  have notOpening : ¬ (TimelineEvent.row row).Opens := id
  obtain ⟨_, delivered⟩ := sound.delivered ordered
  have outcome := state.handleRow_outcome row
  have validates := sound.validates_iff row
  have valid := sound.holdsValid_concat_row row
  have wasValid := sound.bookOf_valid_iff row
  have last (connection : String)
      (silent : ¬ Validates start.books history row) :
      LastValidated start.books (history ++ [.row row]) connection ↔
        LastValidated start.books history connection :=
    lastValidated_concat_iff notOpening fun other isOther =>
      TimelineEvent.row.inj isOther ▸ silent
  have carried (connection : String)
      (silent : ¬ Validates start.books history row)
      (latest : state.lastValidConnection = some connection) :
      (inherited = some connection ∧
          ∀ event ∈ history ++ [.row row], ¬ event.Opens) ∨
        LastValidated start.books (history ++ [.row row]) connection := by
    rcases read.latest connection latest with
      ⟨isInherited, unopened⟩ | validated
    · refine Or.inl ⟨isInherited, fun other member => ?_⟩
      rcases List.mem_append.mp member with old | new
      · exact unopened other old
      · rw [List.mem_singleton.mp new]
        exact notOpening
    · exact Or.inr ((last connection silent).mpr validated)
  revert outcome
  generalize change? :
    ((state.bookOf row.connectionId).onRow row).2 = change
  rw [change?] at validates
  generalize state.handleRow row = state'
  intro outcome
  cases outcome with
  | silent =>
      have silent : ¬ Validates start.books history row := by
        simp [validates]
      have unchanged (connection : String) :
          HoldsValid start.books (history ++ [.row row]) connection ↔
            HoldsValid start.books history connection := by
        rw [valid connection]
        split
        next same => rw [delivered.quiet change?, wasValid, same]
        next => rfl
      exact {
        latest := fun connection latest => carried connection silent latest
        remembered := fun connection validated held =>
          read.remembered connection ((last connection silent).mp validated)
            ((unchanged connection).mp held)
        authority := fun connection noGap latest held =>
          read.authority connection noGap latest
            ((unchanged connection).mp held) }
  | validInGap change isValid gap =>
      have validating := validates.mpr ⟨change, rfl, isValid⟩
      exact {
        latest := by
          rintro _ ⟨⟩
          exact Or.inr ((lastValidated_concat_row_iff validating).mpr rfl)
        remembered := by
          intro connection validated _
          rw [(lastValidated_concat_row_iff validating).mp validated]
        authority := fun _ noGap => (gap noGap).elim }
  | validated change isValid noGap =>
      have validating := validates.mpr ⟨change, rfl, isValid⟩
      exact {
        latest := by
          rintro _ ⟨⟩
          exact Or.inr ((lastValidated_concat_row_iff validating).mpr rfl)
        remembered := by
          intro connection validated _
          rw [(lastValidated_concat_row_iff validating).mp validated]
        authority := fun connection _ latest _ => latest }
  | lostAuthority change invalid authority since =>
      have silent : ¬ Validates start.books history row := by
        simp [validates, invalid]
      obtain ⟨validFrom, isFrom⟩ := Option.isSome_iff_exists.mp since
      have latest : state.lastValidConnection = some row.connectionId :=
        (sound.running row.connectionId validFrom authority isFrom).2.1
      have lost := (delivered.gapped change change? invalid).1
      exact {
        latest := by simp [latest]
        remembered := by
          intro connection validated held
          rw [valid connection] at held
          split at held
          next => exact (lost held).elim
          next different =>
            have remembered := read.remembered connection
              ((last connection silent).mp validated) held
            exact (different
              (Option.some.inj (remembered.symm.trans latest))).elim
        authority := by simp [latest] }
  | lostOther change invalid other =>
      have silent : ¬ Validates start.books history row := by
        simp [validates, invalid]
      have lost := (delivered.gapped change change? invalid).1
      have held (connection : String)
          (after : HoldsValid start.books (history ++ [.row row])
            connection) :
          HoldsValid start.books history connection := by
        rw [valid connection] at after
        split at after
        next => exact (lost after).elim
        next => exact after
      exact {
        latest := fun connection latest => carried connection silent latest
        remembered := fun connection validated after =>
          read.remembered connection ((last connection silent).mp validated)
            (held connection after)
        authority := fun connection noGap latest after =>
          read.authority connection noGap latest (held connection after) }

theorem AuthorityRead.handleEvent
    (read : AuthorityRead inherited start.books history state)
    (sound : RunSound past inherited start startNs history now state)
    {event : TimelineEvent} (ordered : now ≤ event.atNs) :
    AuthorityRead inherited start.books (history ++ [event])
      (state.handleEvent event) := by
  cases event with
  | row row => exact read.handleRow sound ordered
  | gap event =>
      cases kind : event.state with
      | opened => exact authorityRead_handleOpening kind
      | closed => exact read.handleClosing sound kind

theorem Restored.authorityRead
    (restored : Restored past inherited startNs state) :
    AuthorityRead inherited state.books [] state where
  latest := by
    intro connection latest
    rcases restored.authority with
      ⟨_, _, absent⟩ | ⟨other, _, isInherited, _, _, isLatest, _⟩
    · simp [absent] at latest
    · have same := Option.some.inj (isLatest.symm.trans latest)
      exact Or.inl ⟨same ▸ isInherited, by simp⟩
  remembered := by
    rintro connection ⟨earlier, row, later, split, _⟩
    simp at split
  authority := by
    intro connection _ latest _
    rcases restored.authority with
      ⟨_, _, absent⟩ | ⟨other, _, _, authority, _, isLatest, _⟩
    · simp [absent] at latest
    · rw [authority, ← isLatest, latest]

/-- Once a gap was opened, the authority is what the replay says. -/
theorem AuthorityRead.isSome_iff
    (read : AuthorityRead inherited start.books history state)
    (sound : RunSound past inherited start startNs history now state)
    (opened : ∃ event ∈ history, event.Opens) :
    state.authority.isSome ↔
      openGaps (gapsOf history) = ∅ ∧
        ∃ connection, LastValidated start.books history connection ∧
          HoldsValid start.books history connection := by
  constructor
  · intro some
    obtain ⟨connection, authority⟩ := Option.isSome_iff_exists.mp some
    have since : state.validFrom ≠ none := fun absent => by
      simp [sound.paired.mpr absent] at authority
    obtain ⟨validFrom, isFrom⟩ := Option.ne_none_iff_exists'.mp since
    obtain ⟨noGap, latest, valid, _⟩ :=
      sound.running connection validFrom authority isFrom
    refine ⟨sound.gaps ▸ noGap, connection, ?_,
      (sound.holdsValid_iff connection).mpr valid⟩
    rcases read.latest connection latest with ⟨_, unopened⟩ | validated
    · obtain ⟨event, member, opens⟩ := opened
      exact (unopened event member opens).elim
    · exact validated
  · rintro ⟨noGap, connection, validated, valid⟩
    have latest := read.remembered connection validated valid
    rw [read.authority connection (sound.gaps ▸ noGap) latest valid]
    rfl

end Authority

end ShadowDataPlane.Central
