import ShadowDataPlane.Central.AuthorityReplay
import ShadowDataPlane.Central.MidnightHandover
import ShadowDataPlane.Central.RedundantSnapshot
import ShadowDataPlane.Foundation.Transition

/-!
# The anchor a `VALID` book must not have

A bridge clears the anchor, so a book which became `VALID` has none, and the
end-of-day checkpoint can be built from any books without such a leftover.
The one way to leave an anchor in a `VALID` book is a snapshot which is
delivered to it: nothing is buffered which could bridge, so the anchor stays
and the validator of the anchored checkpoint refuses the book.

`Orderly` is what every other event keeps of a book.  The main theorem says
that a run stays buildable exactly if no snapshot meets a `VALID` book.
-/

namespace ShadowDataPlane.Central

open ShadowDataPlane.Foundation
open ShadowDataPlane.Contracts

/-! ## Books without a leftover -/

/-- A `VALID` book has neither buffer nor anchor, and an anchor has its ID. -/
structure Orderly (book : ConnectionBook) : Prop where
  settled : book.state = .valid → book.pending = []
  cleared : book.state = .valid →
    book.anchorLastUpdateId = none ∧ book.anchorReceivedNs = none
  linked : book.anchorLastUpdateId ≠ none → book.previousUpdateId ≠ none

theorem orderly_invalidate (book : ConnectionBook) (pending : List DepthDiff) :
    Orderly { book.invalidate with pending := pending } := by
  constructor <;> simp [ConnectionBook.invalidate]

theorem orderly_fromAnchorCheckpoint (anchored : AnchoredBookCheckpointV1) :
    Orderly (ConnectionBook.fromAnchorCheckpoint anchored) := by
  constructor
  · exact fun valid => absurd valid anchored.unbridged.1
  · exact fun valid => absurd valid anchored.unbridged.1
  · simp [ConnectionBook.fromAnchorCheckpoint]

theorem orderly_fromCheckpoint
    {checkpoint : L2CheckpointV1} {book : ConnectionBook}
    (read : ConnectionBook.fromCheckpoint checkpoint = .ok book) :
    Orderly book := by
  unfold ConnectionBook.fromCheckpoint at read
  split at read
  · rw [← Except.ok.inj read]
    constructor <;> simp
  · cases read

theorem orderly_tryBridge
    {book : ConnectionBook} (orderly : Orderly book) :
    Orderly book.tryBridge.1 := by
  have outcome := ConnectionBook.tryBridge_outcome book
  generalize book.tryBridge = result at outcome
  cases outcome with
  | unanchored absent => exact orderly
  | waiting anchor received anchored receivedAt apart =>
      refine ⟨?_, orderly.cleared, orderly.linked⟩
      intro valid
      have unanchored := (orderly.cleared valid).1
      rw [anchored] at unanchored
      simp at unanchored
  | bridged anchor received bridge applied anchored receivedAt member bridges
      sameConnection sameSeen linked tradable =>
      exact ⟨fun _ => rfl, fun _ => ⟨rfl, rfl⟩,
        fun present => absurd rfl present⟩
  | discontinuous diff member => exact orderly_invalidate book [diff]

/-- The rows which leave no anchor in a `VALID` book. -/
def DepthRow.Clears (book : ConnectionBook) : DepthRow → Prop
  | .depth _ => True
  | .depthSnapshot _ => book.state ≠ .valid

instance (book : ConnectionBook) (row : DepthRow) :
    Decidable (row.Clears book) :=
  match row with
  | .depth _ => inferInstanceAs (Decidable True)
  | .depthSnapshot _ => inferInstanceAs (Decidable (_ ≠ _))

theorem Orderly.onRow
    {book : ConnectionBook} (orderly : Orderly book)
    {row : DepthRow} (clears : row.Clears book) :
    Orderly (book.onRow row).1 := by
  cases row with
  | depthSnapshot snapshot =>
      apply orderly_tryBridge
      constructor
      · exact fun valid => absurd valid clears
      · exact fun valid => absurd valid clears
      · simp
  | depth diff =>
      show Orderly (book.onDiff diff).1
      unfold ConnectionBook.onDiff
      split
      next => exact orderly
      next =>
        dsimp only
        split
        next invalid =>
          apply orderly_tryBridge
          constructor
          · exact fun valid => absurd valid invalid
          · exact fun valid => absurd valid invalid
          · exact orderly.linked
        next =>
          split
          next => exact orderly_invalidate _ [diff]
          next =>
            refine ⟨orderly.settled, orderly.cleared, ?_⟩
            simp [ConnectionBook.apply]

/-- A snapshot leaves its anchor in a `VALID` book. -/
theorem Orderly.leftover
    {book : ConnectionBook} (orderly : Orderly book)
    (valid : book.state = .valid) (snapshot : DepthSnapshot) :
    (book.onSnapshot snapshot).1.state = .valid ∧
      (book.onSnapshot snapshot).1.anchorLastUpdateId =
        some snapshot.lastUpdateId := by
  rw [onSnapshot_of_settled (orderly.settled valid)]
  exact ⟨valid, rfl⟩

/-! ## Runs without a leftover -/

/-- One step of the reconstruction, which refuses nothing. -/
def RunState.step (state : RunState) (event : TimelineEvent) :
    Option RunState :=
  some (state.handleEvent event)

theorem RunState.runFrom_step
    (state : RunState) (events : List TimelineEvent) :
    runFrom RunState.step state events =
      some (events.foldl RunState.handleEvent state) :=
  runFrom_of_total (fun _ _ => rfl) state events

/-- Every book of the state is orderly. -/
def RunState.Orderly (state : RunState) : Prop :=
  ∀ connection book, state.books.get? connection = some book →
    Central.Orderly book

/-- The event is no snapshot for a book which is `VALID`. -/
def RunState.Clears (state : RunState) : TimelineEvent → Prop
  | .gap _ => True
  | .row row => row.Clears (state.bookOf row.connectionId)

instance (state : RunState) (event : TimelineEvent) :
    Decidable (state.Clears event) :=
  match event with
  | .gap _ => inferInstanceAs (Decidable True)
  | .row row => inferInstanceAs (Decidable (row.Clears _))

/--
The state is fit for a checkpoint: no `VALID` book has an anchor, and if the
day ended here its checkpoint could be built.
-/
structure RunState.Buildable (day : L2DayReconstructor) (state : RunState) :
    Prop where
  cleared : ∀ book ∈ state.books.values, book.state = .valid →
    book.anchorLastUpdateId = none ∧ book.anchorReceivedNs = none
  built : ∃ checkpoint,
    buildCheckpoint day day.dayEndNs (state.finish day.dayEndNs).finalBook
      (state.finish day.dayEndNs).books = .ok checkpoint

theorem RunState.Orderly.bookOf
    {state : RunState} (orderly : state.Orderly) (connection : String) :
    Central.Orderly (state.bookOf connection) := by
  unfold RunState.bookOf
  cases found : state.books.get? connection with
  | none => constructor <;> simp
  | some book => exact orderly connection book found

theorem RunState.Orderly.step
    {state : RunState} (orderly : state.Orderly) {event : TimelineEvent}
    (clears : state.Clears event) : (state.handleEvent event).Orderly := by
  intro connection book found
  rw [handleEvent_books] at found
  cases event with
  | gap event =>
      cases kind : event.state with
      | opened =>
          simp only [bookStep, kind, Option.map_eq_some_iff] at found
          rcases found with ⟨before, _, rfl⟩
          exact orderly_invalidate before []
      | closed =>
          simp only [bookStep, kind] at found
          exact orderly connection book found
  | row row =>
      simp only [bookStep] at found
      split at found
      next same =>
        rw [← Option.some.inj found, ← same]
        exact (orderly.bookOf row.connectionId).onRow clears
      next => exact orderly connection book found

theorem initialState_orderly
    {startNs : Nat} {checkpoint : Option L2CheckpointV1} {start : RunState}
    (initial : initialState startNs checkpoint = .ok start) :
    start.Orderly := by
  have empty : (({} : RunState)).Orderly := by
    intro connection book found
    simp at found
  cases checkpoint with
  | none =>
      rw [← Except.ok.inj initial]
      exact empty
  | some checkpoint =>
      rcases bind_eq_ok_iff.mp initial with ⟨restored, authority, anchored⟩
      have ofAuthority : restored.Orderly := by
        unfold restoreAuthority at authority
        split at authority
        next =>
          rcases bind_eq_ok_iff.mp authority with ⟨book, read, finished⟩
          rw [← Except.ok.inj finished]
          intro connection other found
          rw [Dict.get?_set] at found
          split at found
          · rw [← Option.some.inj found]
            exact orderly_fromCheckpoint read
          · simp at found
        next =>
          rw [← Except.ok.inj authority]
          exact empty
      have kept : ∀ book ∈ checkpoint.anchoredBooks, ∀ before after,
          RunState.Orderly before →
            restoreAnchored before book = .ok after →
              RunState.Orderly after := by
        intro book _ before after orderly stepped
        unfold restoreAnchored at stepped
        split at stepped
        next => cases stepped
        next =>
          rw [← Except.ok.inj stepped]
          intro connection other found
          rw [Dict.get?_set] at found
          split at found
          · rw [← Option.some.inj found]
            exact orderly_fromAnchorCheckpoint book
          · exact orderly connection other found
      exact foldlM_preserves kept ofAuthority anchored

theorem Orderly.anchorCheckpoint
    {book : ConnectionBook} (orderly : Orderly book)
    (carries : book.CarriesAnchor) :
    ∃ checkpoint, Central.anchorCheckpoint book = .ok checkpoint := by
  rcases carries with ⟨anchored, received, bids, asks⟩
  have unbridged : book.state ≠ .valid :=
    fun valid => anchored (orderly.cleared valid).1
  rcases Option.ne_none_iff_exists'.mp anchored with ⟨anchor, isAnchor⟩
  rcases Option.ne_none_iff_exists'.mp received with ⟨atNs, isReceived⟩
  rcases Option.ne_none_iff_exists'.mp (orderly.linked anchored) with
    ⟨updateId, isUpdateId⟩
  have accepted : book.state ≠ .valid ∧ checkpointLevels book.bids ≠ [] ∧
      checkpointLevels book.asks ≠ [] := ⟨unbridged, bids, asks⟩
  simp only [Central.anchorCheckpoint, isAnchor, isReceived, isUpdateId,
    dif_pos accepted]
  exact ⟨_, rfl⟩

theorem RunState.Orderly.buildable
    {state : RunState} (orderly : state.Orderly) (day : L2DayReconstructor) :
    state.Buildable day := by
  have ofValue : ∀ book ∈ state.books.values, Central.Orderly book := by
    intro book member
    rcases (Dict.mem_values_iff _).mp member with ⟨connection, found⟩
    exact orderly connection book found
  constructor
  · exact fun book member => (ofValue book member).cleared
  · have written : ∀ book ∈ state.books.values.filter fun candidate =>
        candidate.CarriesAnchor,
        ∃ checkpoint, anchorCheckpoint book = .ok checkpoint := by
      intro book member
      rcases List.mem_filter.mp member with ⟨isValue, carries⟩
      exact (ofValue book isValue).anchorCheckpoint (by simpa using carries)
    rcases exists_mapM_eq_ok written with ⟨anchored, mapped⟩
    show ∃ checkpoint, buildCheckpoint day _ _ state.books = .ok checkpoint
    rw [buildCheckpoint, mapped, ok_bind]
    split
    · split
      · exact ⟨_, rfl⟩
      · exact ⟨_, rfl⟩
    · exact ⟨_, rfl⟩

/-- An event which leaves the state buildable was no needless snapshot. -/
theorem RunState.Orderly.clears
    {state : RunState} (orderly : state.Orderly) {event : TimelineEvent}
    {day : L2DayReconstructor}
    (buildable : (state.handleEvent event).Buildable day) :
    state.Clears event := by
  cases event with
  | gap event => trivial
  | row row =>
      cases row with
      | depth diff => trivial
      | depthSnapshot snapshot =>
          intro valid
          rcases (orderly.bookOf snapshot.connectionId).leftover valid
            snapshot with ⟨stillValid, anchored⟩
          have held : ((state.bookOf snapshot.connectionId).onSnapshot
              snapshot).1 ∈
                (state.handleEvent (.row (.depthSnapshot snapshot))).books.values := by
            apply (Dict.mem_values_iff _).mpr
            refine ⟨snapshot.connectionId, ?_⟩
            rw [handleEvent, handleRow_books]
            exact Dict.get?_set_self _ _ _
          have cleared := (buildable.cleared _ held stillValid).1
          rw [anchored] at cleared
          simp at cleared

/--
Whatever checkpoint, rows and ledger a day is reconstructed from, it stays
buildable throughout exactly if no snapshot is delivered to a `VALID` book.
-/
theorem buildable_throughout_iff
    (day : L2DayReconstructor) {startNs : Nat}
    {checkpoint : Option L2CheckpointV1} {start : RunState}
    (initial : initialState startNs checkpoint = .ok start)
    (symbol : String) (rows : List DepthRow) (ledger : List GapEventV1) :
    Throughout RunState.step (RunState.Buildable day) start
        (timeline symbol rows ledger) ↔
      StepsMeet RunState.step RunState.Clears start
        (timeline symbol rows ledger) := by
  refine throughout_iff_stepsMeet ?_ ?_ ?_ (initialState_orderly initial)
    (start.runFrom_step _)
  · intro before event after orderly clears stepped
    rw [← Option.some.inj stepped]
    exact orderly.step clears
  · exact fun state orderly => orderly.buildable day
  · intro before event after orderly stepped buildable
    rw [← Option.some.inj stepped] at buildable
    exact orderly.clears buildable

/-! ## The snapshot of a book which is `VALID` already -/

def repeatedDay : L2DayReconstructor := ⟨"collector", 0, "BTCUSDT"⟩

/-- A snapshot, the diff which bridges it, and a snapshot of what they give. -/
def repeatedRows : List DepthRow :=
  [.depthSnapshot firstSnapshot, .depth (sampleDiff 2 100 101 99 [(99, 3)]),
    .depthSnapshot equalSnapshot]

def repeatedFiles : DayFiles where
  normalized := some { formalStartRealtimeNs := some 0 }
  depthRows := repeatedRows

/-- The second snapshot says what the book says, and the day cannot end. -/
theorem run_refuses_repeated_snapshot :
    repeatedDay.run repeatedFiles =
      .error .anchoredCheckpointNotUnbridged := by
  decide +kernel

/-- Without the second snapshot the day is buildable throughout. -/
theorem buildable_throughout_bridged :
    Throughout RunState.step (RunState.Buildable repeatedDay) {}
      (timeline "BTCUSDT" (repeatedRows.take 2) []) := by
  have initial : initialState 0 none = .ok {} := rfl
  apply (buildable_throughout_iff repeatedDay initial _ _ _).mpr
  decide +kernel

end ShadowDataPlane.Central
