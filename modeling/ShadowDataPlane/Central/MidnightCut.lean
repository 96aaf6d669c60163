import ShadowDataPlane.Central.AuthorityReplay
import ShadowDataPlane.Central.BookSimulation

/-!
# Two reconstructions of one future

`Agrees` relates the state of an uninterrupted reconstruction to the state
of one which was restarted from a checkpoint at `boundaryNs`.  Both have the
same authority and active gaps; their books track each other or were given
up; from the boundary on their intervals cover the same instants.

Every timeline event keeps the relation, so two reconstructions which agree
at the boundary emit the same validity and end with the same authoritative
book.
-/

namespace ShadowDataPlane.Central

open ShadowDataPlane.Foundation
open ShadowDataPlane.Contracts

/-- The instants at which some interval is valid. -/
def validInstants (intervals : List ValidityInterval) : Set Nat :=
  instants (intervals.map ValidityInterval.span)

theorem validInstants_append (left right : List ValidityInterval) :
    validInstants (left ++ right) =
      validInstants left ∪ validInstants right := by
  rw [validInstants, List.map_append, instants_append]
  rfl

/-! ## The parts which do not depend on books -/

/-- Two starts of a running interval which no instant from the boundary on
tells apart. -/
def SameFrom (boundaryNs left right : Nat) : Prop :=
  left = right ∨ (left ≤ boundaryNs ∧ right = boundaryNs)

/-- Agreement of gaps, authority and emitted intervals. -/
structure ControlAgrees (boundaryNs : Nat) (left right : RunState) :
    Prop where
  gaps : left.activeGaps = right.activeGaps
  authority : left.authority = right.authority
  since : (left.validFrom = none ∧ right.validFrom = none) ∨
    ∃ leftFrom rightFrom, left.validFrom = some leftFrom ∧
      right.validFrom = some rightFrom ∧
      SameFrom boundaryNs leftFrom rightFrom
  intervals : ∀ instant, boundaryNs ≤ instant →
    (instant ∈ validInstants left.intervals ↔
      instant ∈ validInstants right.intervals)

namespace ControlAgrees

variable {boundaryNs : Nat} {left right : RunState}

theorem since_isSome
    (agrees : ControlAgrees boundaryNs left right) :
    left.validFrom.isSome = right.validFrom.isSome := by
  rcases agrees.since with ⟨leftNone, rightNone⟩ | ⟨_, _, leftFrom, rightFrom, _⟩
  · rw [leftNone, rightNone]
  · rw [leftFrom, rightFrom]
    rfl

/-- Ending the running interval covers the same instants. -/
theorem endInterval
    (agrees : ControlAgrees boundaryNs left right)
    (endNs : Nat) (reason : String) :
    ∀ instant, boundaryNs ≤ instant →
      (instant ∈ validInstants (left.endInterval endNs reason) ↔
        instant ∈ validInstants (right.endInterval endNs reason)) := by
  intro instant fromBoundary
  have ended := agrees.intervals instant fromBoundary
  unfold RunState.endInterval
  rw [← agrees.authority]
  cases left.authority with
  | none => exact ended
  | some authority =>
      rcases agrees.since with
        ⟨leftNone, rightNone⟩ | ⟨leftFrom, rightFrom, isLeft, isRight, same⟩
      · rw [leftNone, rightNone]
        exact ended
      · rw [isLeft, isRight]
        simp only [validInstants_append, Set.mem_union]
        apply or_congr ended
        show instant ∈ instants [(leftFrom, endNs)] ↔
          instant ∈ instants [(rightFrom, endNs)]
        simp only [instants_singleton, Set.mem_Ico]
        rcases same with rfl | ⟨early, rfl⟩
        · exact Iff.rfl
        · constructor
          · exact fun bounds => ⟨fromBoundary, bounds.2⟩
          · exact fun bounds => ⟨early.trans fromBoundary, bounds.2⟩

/-- The same change has the same effect. -/
theorem handleChange
    (agrees : ControlAgrees boundaryNs left right)
    (connection : String) (change : StateChange) :
    ControlAgrees boundaryNs (left.handleChange connection change)
      (right.handleChange connection change) := by
  have ends := agrees.endInterval change.atNs
  have sameHolder : (left.authority = some connection ∧
      left.validFrom.isSome) ↔
        (right.authority = some connection ∧ right.validFrom.isSome) := by
    rw [agrees.authority, agrees.since_isSome]
  by_cases valid : change.state = .valid
  · by_cases gap : left.activeGaps = ∅
    · have gap' : right.activeGaps = ∅ := agrees.gaps ▸ gap
      rw [RunState.handleChange_validated valid gap,
        RunState.handleChange_validated valid gap']
      exact ⟨agrees.gaps, rfl, Or.inr ⟨_, _, rfl, rfl, Or.inl rfl⟩,
        ends "connection_switch"⟩
    · have gap' : right.activeGaps ≠ ∅ := agrees.gaps ▸ gap
      rw [RunState.handleChange_validInGap valid gap,
        RunState.handleChange_validInGap valid gap']
      exact ⟨agrees.gaps, agrees.authority, agrees.since, agrees.intervals⟩
  · by_cases holder :
        left.authority = some connection ∧ left.validFrom.isSome
    · rw [RunState.handleChange_lostAuthority valid holder,
        RunState.handleChange_lostAuthority valid (sameHolder.mp holder)]
      exact ⟨agrees.gaps, rfl, Or.inl ⟨rfl, rfl⟩, ends change.reason⟩
    · rw [RunState.handleChange_lostOther valid holder,
        RunState.handleChange_lostOther valid (mt sameHolder.mpr holder)]
      exact ⟨agrees.gaps, agrees.authority, agrees.since, agrees.intervals⟩

end ControlAgrees

/-! ## The books of a state -/

namespace RunState

variable {state : RunState}

theorem bookOf_of_books
    {books : Dict String ConnectionBook} (same : state.books = books)
    (connection : String) :
    state.bookOf connection =
      (books.get? connection).getD { connectionId := connection } := by
  rw [bookOf, same]

theorem bookOf_handleRow (row : DepthRow) (connection : String) :
    (state.handleRow row).bookOf connection =
      if connection = row.connectionId then
        ((state.bookOf row.connectionId).onRow row).1
      else state.bookOf connection := by
  rw [bookOf_of_books (state.handleRow_books row), Dict.get?_set]
  split <;> rfl

theorem handleGap_closed_books
    {event : GapEventV1} (closed : event.state = .closed) :
    (state.handleGap event).books = state.books := by
  simp only [handleGap, closed]
  repeat' split
  all_goals rfl

/-- An opening leaves every book unanchored, with an empty buffer. -/
theorem bookOf_handleOpening
    {event : GapEventV1} (opened : event.state = .opened)
    (connection : String) :
    ((state.handleGap event).bookOf connection).Unanchored ∧
      ((state.handleGap event).bookOf connection).pending = [] ∧
      ((state.handleGap event).bookOf connection).connectionId =
        (state.bookOf connection).connectionId ∧
      ((state.handleGap event).bookOf connection).seenDiffs =
        (state.bookOf connection).seenDiffs := by
  have books : (state.handleGap event).books =
      state.books.map ConnectionBook.invalidate := by
    simp only [handleGap, opened]
  rw [bookOf_of_books books, Dict.get?_map, bookOf]
  cases state.books.get? connection with
  | none => exact ⟨⟨by simp, rfl⟩, rfl, rfl, rfl⟩
  | some book =>
      exact ⟨⟨by simp [ConnectionBook.invalidate], rfl⟩, rfl, rfl, rfl⟩

theorem handleRow_of_silent
    {row : DepthRow}
    (silent : ((state.bookOf row.connectionId).onRow row).2 = none) :
    state.handleRow row =
      { state with
        books := state.books.set row.connectionId
          ((state.bookOf row.connectionId).onRow row).1 } := by
  simp only [handleRow, silent]

theorem handleRow_of_change
    {row : DepthRow} {change : StateChange}
    (changed :
      ((state.bookOf row.connectionId).onRow row).2 = some change) :
    state.handleRow row =
      RunState.handleChange
        { state with
          books := state.books.set row.connectionId
            ((state.bookOf row.connectionId).onRow row).1 }
        row.connectionId change := by
  simp only [handleRow, changed]

/-- The closing of a gap which hands the authority to a connection. -/
def Restores (state : RunState) (event : GapEventV1) (connection : String) :
    Prop :=
  state.activeGaps.erase event.gapId = ∅ ∧
    state.lastValidConnection = some connection ∧
    (state.bookOf connection).state = .valid

theorem bookOf_valid_iff {connection : String} :
    (state.bookOf connection).state = .valid ↔
      ∃ book, state.books.get? connection = some book ∧
        book.state = .valid := by
  rw [bookOf]
  cases state.books.get? connection <;> simp

theorem handleClosing_of_restores
    {event : GapEventV1} {connection : String}
    (closed : event.state = .closed)
    (restores : state.Restores event connection) :
    state.handleGap event =
      { state with
        activeGaps := state.activeGaps.erase event.gapId
        authority := some connection
        validFrom := some event.observedAtRealtimeNs } := by
  rcases restores with ⟨noGap, latest, valid⟩
  rcases bookOf_valid_iff.mp valid with ⟨book, found, isValid⟩
  simp only [handleGap, closed, noGap, latest, found, isValid, ne_eq,
    not_true_eq_false, if_false]

theorem handleClosing_of_not_restores
    {event : GapEventV1} (closed : event.state = .closed)
    (idle : ∀ connection, ¬ state.Restores event connection) :
    state.handleGap event =
      { state with
        activeGaps := state.activeGaps.erase event.gapId } := by
  simp only [handleGap, closed]
  split
  next => rfl
  next noGap =>
    split
    next => rfl
    next connection latest =>
      split
      next => rfl
      next book found =>
        split
        next => rfl
        next isValid =>
          refine (idle connection ⟨not_not.mp noGap, latest, ?_⟩).elim
          exact bookOf_valid_iff.mpr ⟨book, found, not_not.mp isValid⟩

end RunState

/-! ## Agreement -/

/-- What relates the two states while `future` is still to come. -/
structure Agrees (boundaryNs : Nat) (future : List TimelineEvent)
    (left right : RunState) : Prop where
  control : ControlAgrees boundaryNs left right
  latest : right.lastValidConnection = left.lastValidConnection ∨
    (right.lastValidConnection = none ∧
      ∀ connection, left.lastValidConnection = some connection →
        (left.bookOf connection).state ≠ .valid)
  books : ∀ connection,
    ConnectionBook.Tracks connection future (left.bookOf connection)
        (right.bookOf connection) ∨
      (ConnectionBook.Adrift connection future (left.bookOf connection)
          (right.bookOf connection) ∧
        left.authority ≠ some connection ∧
        (left.lastValidConnection = some connection →
          (left.bookOf connection).state ≠ .valid))
  memory : ∀ connection,
    ConnectionBook.Remembers connection future (left.bookOf connection)
      (right.bookOf connection)
  names : ∀ connection,
    (left.bookOf connection).connectionId =
      (right.bookOf connection).connectionId

namespace Agrees

variable {boundaryNs : Nat} {future : List TimelineEvent}
variable {left right : RunState}

/-- The two states restore the same authority. -/
theorem restores_iff
    (agrees : Agrees boundaryNs future left right) (event : GapEventV1)
    (connection : String) :
    left.Restores event connection ↔ right.Restores event connection := by
  constructor
  · rintro ⟨noGap, latest, valid⟩
    have latest' : right.lastValidConnection = some connection := by
      rcases agrees.latest with same | ⟨_, lost⟩
      · rw [same, latest]
      · exact (lost connection latest valid).elim
    refine ⟨agrees.control.gaps ▸ noGap, latest', ?_⟩
    rcases agrees.books connection with tracks | ⟨_, _, lost⟩
    · cases tracks with
      | matched same => exact same.valid.mp valid
      | buffering old sameConnection leftUnanchored =>
          exact (leftUnanchored.1 valid).elim
    · exact (lost latest valid).elim
  · rintro ⟨noGap, latest, valid⟩
    have latest' : left.lastValidConnection = some connection := by
      rcases agrees.latest with same | ⟨none, _⟩
      · rw [← same, latest]
      · simp [none] at latest
    refine ⟨agrees.control.gaps ▸ noGap, latest', ?_⟩
    rcases agrees.books connection with tracks | ⟨adrift, _, _⟩
    · cases tracks with
      | matched same => exact same.valid.mpr valid
      | buffering old sameConnection leftUnanchored rightUnanchored =>
          exact (rightUnanchored.1 valid).elim
    · cases adrift with
      | stranded rightUnanchored => exact (rightUnanchored.1 valid).elim
      | silent rightInvalid => exact (rightInvalid valid).elim

theorem handleOpening
    {event : GapEventV1} (opened : event.state = .opened)
    (agrees : Agrees boundaryNs (.gap event :: future) left right) :
    Agrees boundaryNs future (left.handleGap event)
      (right.handleGap event) where
  control := by
    have ends :=
      agrees.control.endInterval event.effectiveNs "transport_gap"
    have gaps := agrees.control.gaps
    simp only [RunState.handleGap, opened]
    exact ⟨by rw [gaps], rfl, Or.inl ⟨rfl, rfl⟩, ends⟩
  latest := by
    apply Or.inl
    simp only [RunState.handleGap, opened]
  books := by
    intro connection
    rcases left.bookOf_handleOpening opened connection with
      ⟨leftUnanchored, leftPending, leftName, _⟩
    rcases right.bookOf_handleOpening opened connection with
      ⟨rightUnanchored, rightPending, rightName, _⟩
    apply Or.inl
    apply ConnectionBook.Tracks.buffering []
    · rw [leftName, rightName, agrees.names connection]
    · exact leftUnanchored
    · exact rightUnanchored
    · rw [leftPending, rightPending, List.nil_append]
    · intro snapshot _ diff member
      simp at member
  memory := by
    intro connection
    apply (agrees.memory connection).of_same
    · exact (left.bookOf_handleOpening opened connection).2.2.2
    · exact (right.bookOf_handleOpening opened connection).2.2.2
  names := by
    intro connection
    rw [(left.bookOf_handleOpening opened connection).2.2.1,
      (right.bookOf_handleOpening opened connection).2.2.1,
      agrees.names connection]

theorem handleClosing
    {event : GapEventV1} (closed : event.state = .closed)
    (agrees : Agrees boundaryNs (.gap event :: future) left right) :
    Agrees boundaryNs future (left.handleGap event)
      (right.handleGap event) := by
  have leftBooks (connection : String) :
      (left.handleGap event).bookOf connection = left.bookOf connection :=
    RunState.bookOf_of_books (RunState.handleGap_closed_books closed) _
  have rightBooks (connection : String) :
      (right.handleGap event).bookOf connection = right.bookOf connection :=
    RunState.bookOf_of_books (RunState.handleGap_closed_books closed) _
  have foreign (connection : String) :
      ConnectionBook.Foreign connection (.gap event) := closed
  have memory (connection : String) :=
    (agrees.memory connection).skip
  by_cases restores : ∃ connection, left.Restores event connection
  · rcases restores with ⟨restored, leftRestores⟩
    have rightRestores :=
      (agrees.restores_iff event restored).mp leftRestores
    have leftIs := RunState.handleClosing_of_restores closed leftRestores
    have rightIs := RunState.handleClosing_of_restores closed rightRestores
    exact {
      control := by
        rw [leftIs, rightIs]
        exact ⟨congrArg (Finset.erase · event.gapId) agrees.control.gaps,
          rfl, Or.inr ⟨_, _, rfl, rfl, Or.inl rfl⟩,
          agrees.control.intervals⟩
      latest := by
        apply Or.inl
        rw [leftIs, rightIs]
        exact rightRestores.2.1.trans leftRestores.2.1.symm
      books := by
        intro connection
        rw [leftBooks, rightBooks]
        rcases agrees.books connection with
          tracks | ⟨adrift, _, lost⟩
        · exact Or.inl (tracks.skip (foreign connection))
        · refine Or.inr ⟨adrift.skip (foreign connection), ?_, ?_⟩
          · rw [leftIs]
            intro isRestored
            have same := Option.some.inj isRestored
            exact lost (same ▸ leftRestores.2.1) (same ▸ leftRestores.2.2)
          · rw [leftIs]
            exact lost
      memory := by
        intro connection
        rw [leftBooks, rightBooks]
        exact memory connection
      names := by
        intro connection
        rw [leftBooks, rightBooks]
        exact agrees.names connection }
  · have leftIs := RunState.handleClosing_of_not_restores closed
      (not_exists.mp restores)
    have rightIs := RunState.handleClosing_of_not_restores closed
      fun connection rightRestores => restores
        ⟨connection, (agrees.restores_iff event connection).mpr
          rightRestores⟩
    exact {
      control := by
        rw [leftIs, rightIs]
        exact ⟨congrArg (Finset.erase · event.gapId) agrees.control.gaps,
          agrees.control.authority, agrees.control.since,
          agrees.control.intervals⟩
      latest := by
        rw [leftIs, rightIs]
        exact agrees.latest
      books := by
        intro connection
        rw [leftBooks, rightBooks, leftIs]
        rcases agrees.books connection with tracks | ⟨adrift, lost⟩
        · exact Or.inl (tracks.skip (foreign connection))
        · exact Or.inr ⟨adrift.skip (foreign connection), lost⟩
      memory := by
        intro connection
        rw [leftBooks, rightBooks]
        exact memory connection
      names := by
        intro connection
        rw [leftBooks, rightBooks]
        exact agrees.names connection }

/-- A row whose book tracks its counterpart. -/
theorem handleRow_of_tracks
    {past history : List TimelineEvent} {inherited : Option String}
    {start : RunState} {startNs now : Nat} {row : DepthRow}
    (sound : RunSound past inherited start startNs history now left)
    (ordered : now ≤ row.receivedNs)
    (agrees : Agrees boundaryNs (.row row :: future) left right)
    (tracks : ConnectionBook.Tracks row.connectionId (.row row :: future)
      (left.bookOf row.connectionId) (right.bookOf row.connectionId)) :
    ControlAgrees boundaryNs (left.handleRow row) (right.handleRow row) ∧
      ((right.handleRow row).lastValidConnection =
          (left.handleRow row).lastValidConnection ∨
        ((right.handleRow row).lastValidConnection = none ∧
          ∀ connection,
            (left.handleRow row).lastValidConnection = some connection →
              ((left.handleRow row).bookOf connection).state ≠ .valid)) ∧
      ∀ connection, connection ≠ row.connectionId →
        ((left.handleRow row).authority = some connection →
          left.authority = some connection) ∧
        ((left.handleRow row).lastValidConnection = some connection →
          left.lastValidConnection = some connection) := by
  rcases sound.delivered ordered with ⟨_, delivered⟩
  rcases tracks.onRow rfl (agrees.memory row.connectionId) with
    ⟨sameChange, _, _⟩
  have kept : (∀ connection,
      left.lastValidConnection = some connection →
        (left.bookOf connection).state ≠ .valid) →
      (((left.bookOf row.connectionId).state ≠ .valid →
        ((left.bookOf row.connectionId).onRow row).1.state ≠ .valid)) →
      ∀ connection, left.lastValidConnection = some connection →
        ((left.handleRow row).bookOf connection).state ≠ .valid := by
    intro lost stays connection latest
    rw [RunState.bookOf_handleRow]
    split
    next same => exact stays (same ▸ lost connection latest)
    next => exact lost connection latest
  cases changed : ((left.bookOf row.connectionId).onRow row).2 with
  | none =>
      have leftIs := RunState.handleRow_of_silent changed
      have rightIs := RunState.handleRow_of_silent
        (sameChange.symm.trans changed)
      refine ⟨?_, ?_, ?_⟩
      · rw [leftIs, rightIs]
        exact ⟨agrees.control.gaps, agrees.control.authority,
          agrees.control.since, agrees.control.intervals⟩
      · rcases agrees.latest with same | ⟨none, lost⟩
        · rw [leftIs, rightIs]
          exact Or.inl same
        · have lost' := kept lost fun invalid valid =>
            invalid ((delivered.quiet changed).mp valid)
          rw [leftIs] at lost' ⊢
          rw [rightIs]
          exact Or.inr ⟨none, lost'⟩
      · intro connection _
        rw [leftIs]
        exact ⟨id, id⟩
  | some change =>
      have leftIs := RunState.handleRow_of_change changed
      have rightIs := RunState.handleRow_of_change
        (sameChange.symm.trans changed)
      let leftReceived : RunState :=
        { left with
          books := left.books.set row.connectionId
            ((left.bookOf row.connectionId).onRow row).1 }
      let rightReceived : RunState :=
        { right with
          books := right.books.set row.connectionId
            ((right.bookOf row.connectionId).onRow row).1 }
      have leftIs' : left.handleRow row =
          leftReceived.handleChange row.connectionId change := leftIs
      have rightIs' : right.handleRow row =
          rightReceived.handleChange row.connectionId change := rightIs
      have received : ControlAgrees boundaryNs leftReceived rightReceived :=
        ⟨agrees.control.gaps, agrees.control.authority,
          agrees.control.since, agrees.control.intervals⟩
      refine ⟨?_, ?_, ?_⟩
      · rw [leftIs', rightIs']
        exact received.handleChange row.connectionId change
      · by_cases valid : change.state = .valid
        · apply Or.inl
          have holds (state : RunState) :
              (state.handleChange row.connectionId
                change).lastValidConnection = some row.connectionId := by
            by_cases noGap : state.activeGaps = ∅
            · rw [RunState.handleChange_validated valid noGap]
            · rw [RunState.handleChange_validInGap valid noGap]
          rw [leftIs', rightIs', holds, holds]
        · have lostHere := (delivered.gapped change changed valid).1
          by_cases holder : left.authority = some row.connectionId ∧
              left.validFrom.isSome
          · have holder' : right.authority = some row.connectionId ∧
                right.validFrom.isSome := by
              rw [← agrees.control.authority,
                ← agrees.control.since_isSome]
              exact holder
            rcases Option.isSome_iff_exists.mp holder.2 with
              ⟨validFrom, since⟩
            rcases sound.running row.connectionId validFrom holder.1 since
              with ⟨_, latest, ⟨book, found, isValid⟩, _⟩
            have wasValid : (left.bookOf row.connectionId).state = .valid :=
              RunState.bookOf_valid_iff.mpr ⟨book, found, isValid⟩
            have latest' : right.lastValidConnection =
                some row.connectionId := by
              rcases agrees.latest with same | ⟨_, lost⟩
              · rw [same, latest]
              · exact (lost row.connectionId latest wasValid).elim
            have leftHolder : leftReceived.authority =
                some row.connectionId ∧ leftReceived.validFrom.isSome :=
              holder
            have rightHolder : rightReceived.authority =
                some row.connectionId ∧ rightReceived.validFrom.isSome :=
              holder'
            apply Or.inl
            rw [leftIs', rightIs',
              RunState.handleChange_lostAuthority valid leftHolder,
              RunState.handleChange_lostAuthority valid rightHolder]
            simp [leftReceived, rightReceived, latest, latest']
          · have holder' : ¬ (right.authority = some row.connectionId ∧
                right.validFrom.isSome) := by
              rw [← agrees.control.authority,
                ← agrees.control.since_isSome]
              exact holder
            have leftLost : ¬ (leftReceived.authority =
                some row.connectionId ∧ leftReceived.validFrom.isSome) :=
              holder
            have rightLost : ¬ (rightReceived.authority =
                some row.connectionId ∧ rightReceived.validFrom.isSome) :=
              holder'
            have leftLatest : (left.handleRow row).lastValidConnection =
                left.lastValidConnection := by
              rw [leftIs', RunState.handleChange_lostOther valid leftLost]
            have rightLatest : (right.handleRow row).lastValidConnection =
                right.lastValidConnection := by
              rw [rightIs', RunState.handleChange_lostOther valid rightLost]
            rw [leftLatest, rightLatest]
            apply agrees.latest.imp_right
            rintro ⟨none, lost⟩
            exact ⟨none, kept lost fun _ => lostHere⟩
      · intro connection other
        have different : some row.connectionId ≠ some connection :=
          fun same => other (Option.some.inj same).symm
        rw [leftIs']
        by_cases valid : change.state = .valid
        · by_cases noGap : leftReceived.activeGaps = ∅
          · rw [RunState.handleChange_validated valid noGap]
            exact ⟨fun same => (different same).elim,
              fun same => (different same).elim⟩
          · rw [RunState.handleChange_validInGap valid noGap]
            exact ⟨id, fun same => (different same).elim⟩
        · by_cases holder : leftReceived.authority =
              some row.connectionId ∧ leftReceived.validFrom.isSome
          · rw [RunState.handleChange_lostAuthority valid holder]
            refine ⟨by simp, ?_⟩
            show (if left.lastValidConnection = some row.connectionId
                then none else left.lastValidConnection) =
              some connection → _
            split
            · simp
            · exact id
          · rw [RunState.handleChange_lostOther valid holder]
            exact ⟨id, id⟩

/-- A row of a connection whose book was given up. -/
theorem handleRow_of_adrift
    {row : DepthRow}
    (agrees : Agrees boundaryNs (.row row :: future) left right)
    (adrift : ConnectionBook.Adrift row.connectionId (.row row :: future)
      (left.bookOf row.connectionId) (right.bookOf row.connectionId))
    (notAuthority : left.authority ≠ some row.connectionId) :
    ControlAgrees boundaryNs (left.handleRow row) (right.handleRow row) ∧
      (left.handleRow row).authority = left.authority ∧
      (left.handleRow row).lastValidConnection = left.lastValidConnection ∧
      (right.handleRow row).lastValidConnection =
        right.lastValidConnection := by
  rcases adrift.onRow rfl (agrees.memory row.connectionId) with
    ⟨rightSilent, notValidating, _, _, _⟩
  have rightIs := RunState.handleRow_of_silent rightSilent
  cases changed : ((left.bookOf row.connectionId).onRow row).2 with
  | none =>
      rw [RunState.handleRow_of_silent changed, rightIs]
      exact ⟨⟨agrees.control.gaps, agrees.control.authority,
        agrees.control.since, agrees.control.intervals⟩, rfl, rfl, rfl⟩
  | some change =>
      let received : RunState :=
        { left with
          books := left.books.set row.connectionId
            ((left.bookOf row.connectionId).onRow row).1 }
      have notHolder : ¬ (received.authority = some row.connectionId ∧
          received.validFrom.isSome) :=
        fun holder => notAuthority holder.1
      have leftIs : left.handleRow row =
          { received with changes := received.changes ++ [change] } := by
        rw [RunState.handleRow_of_change changed]
        exact RunState.handleChange_lostOther (notValidating change changed)
          notHolder
      rw [leftIs, rightIs]
      exact ⟨⟨agrees.control.gaps, agrees.control.authority,
        agrees.control.since, agrees.control.intervals⟩, rfl, rfl, rfl⟩

theorem handleRow
    {past history : List TimelineEvent} {inherited : Option String}
    {start : RunState} {startNs now : Nat} {row : DepthRow}
    (sound : RunSound past inherited start startNs history now left)
    (ordered : now ≤ row.receivedNs)
    (agrees : Agrees boundaryNs (.row row :: future) left right) :
    Agrees boundaryNs future (left.handleRow row) (right.handleRow row) := by
  have memory : ∀ connection,
      ConnectionBook.Remembers connection future
        ((left.handleRow row).bookOf connection)
        ((right.handleRow row).bookOf connection) := by
    intro connection
    rw [RunState.bookOf_handleRow, RunState.bookOf_handleRow]
    split
    next same =>
      subst same
      rcases agrees.books row.connectionId with tracks | ⟨adrift, _⟩
      · exact (tracks.onRow rfl (agrees.memory _)).2.2
      · exact (adrift.onRow rfl (agrees.memory _)).2.2.2.1
    next => exact (agrees.memory connection).skip
  have names : ∀ connection,
      ((left.handleRow row).bookOf connection).connectionId =
        ((right.handleRow row).bookOf connection).connectionId := by
    intro connection
    rw [RunState.bookOf_handleRow, RunState.bookOf_handleRow]
    split
    · rw [ConnectionBook.onRow_connectionId,
        ConnectionBook.onRow_connectionId, agrees.names]
    · exact agrees.names connection
  have skips (connection : String) (other : connection ≠ row.connectionId) :
      ConnectionBook.Foreign connection (.row row) := Ne.symm other
  rcases agrees.books row.connectionId with
    tracks | ⟨adrift, notAuthority, lost⟩
  · rcases agrees.handleRow_of_tracks sound ordered tracks with
      ⟨control, latest, others⟩
    refine ⟨control, latest, ?_, memory, names⟩
    intro connection
    rw [RunState.bookOf_handleRow, RunState.bookOf_handleRow]
    split
    next same =>
      subst same
      exact Or.inl (tracks.onRow rfl (agrees.memory _)).2.1
    next other =>
      rcases agrees.books connection with kept | ⟨gone, notHeld, invalid⟩
      · exact Or.inl (kept.skip (skips connection other))
      · rcases others connection other with ⟨authority, latest⟩
        exact Or.inr ⟨gone.skip (skips connection other),
          fun held => notHeld (authority held),
          fun isLatest => invalid (latest isLatest)⟩
  · rcases agrees.handleRow_of_adrift adrift notAuthority with
      ⟨control, sameAuthority, sameLatest, sameLatest'⟩
    have step := adrift.onRow rfl (agrees.memory row.connectionId)
    refine ⟨control, ?_, ?_, memory, names⟩
    · rw [sameLatest, sameLatest']
      apply agrees.latest.imp_right
      rintro ⟨none, invalid⟩
      refine ⟨none, fun connection latest => ?_⟩
      rw [RunState.bookOf_handleRow]
      split
      next same => exact step.2.2.2.2 (same ▸ invalid connection latest)
      next => exact invalid connection latest
    · intro connection
      rw [RunState.bookOf_handleRow, RunState.bookOf_handleRow,
        sameAuthority, sameLatest]
      split
      next same =>
        subst same
        exact Or.inr ⟨step.2.2.1, notAuthority,
          fun isLatest => step.2.2.2.2 (lost isLatest)⟩
      next other =>
        rcases agrees.books connection with kept | ⟨gone, notHeld, invalid⟩
        · exact Or.inl (kept.skip (skips connection other))
        · exact Or.inr ⟨gone.skip (skips connection other), notHeld,
            invalid⟩

theorem handleEvent
    {past history : List TimelineEvent} {inherited : Option String}
    {start : RunState} {startNs now : Nat} {event : TimelineEvent}
    (sound : RunSound past inherited start startNs history now left)
    (ordered : now ≤ event.atNs)
    (agrees : Agrees boundaryNs (event :: future) left right) :
    Agrees boundaryNs future (left.handleEvent event)
      (right.handleEvent event) := by
  cases event with
  | row row => exact agrees.handleRow sound ordered
  | gap event =>
      cases kind : event.state with
      | opened => exact agrees.handleOpening kind
      | closed => exact agrees.handleClosing kind

/-- Agreement lasts to the end of every ordered timeline. -/
theorem foldl
    {past history : List TimelineEvent} {inherited : Option String}
    {start : RunState} {startNs now : Nat}
    (sound : RunSound past inherited start startNs history now left)
    (ordered : future.Pairwise fun left right => left.atNs ≤ right.atNs)
    (following : ∀ event ∈ future, now ≤ event.atNs)
    (named : ∀ row ∈ rowsOf future, row.connectionId ≠ "")
    (agrees : Agrees boundaryNs future left right) :
    (∃ final, RunSound past inherited start startNs (history ++ future)
        final (future.foldl RunState.handleEvent left)) ∧
      Agrees boundaryNs [] (future.foldl RunState.handleEvent left)
        (future.foldl RunState.handleEvent right) := by
  induction future generalizing history now left right with
  | nil =>
      rw [List.append_nil]
      exact ⟨⟨now, sound⟩, agrees⟩
  | cons event rest induction =>
      rcases List.pairwise_cons.mp ordered with ⟨first, restOrdered⟩
      have isNext := following event List.mem_cons_self
      have next := sound.handleEvent isNext (by
        rintro row rfl
        exact named row (mem_rowsOf_iff.mpr List.mem_cons_self))
      have namedRest : ∀ row ∈ rowsOf rest, row.connectionId ≠ "" := by
        intro row member
        exact named row (mem_rowsOf_iff.mpr
          (List.mem_cons_of_mem _ (mem_rowsOf_iff.mp member)))
      have final := induction next restOrdered first namedRest
        (agrees.handleEvent sound isNext)
      rwa [List.append_assoc, List.singleton_append] at final

end Agrees

/-! ## What agreeing reconstructions write -/

/-- What a checkpoint records of an authoritative book. -/
structure BookContent where
  connectionId : String
  bids : BookSide
  asks : BookSide
  previousUpdateId : Option Int
deriving DecidableEq

def ConnectionBook.content (book : ConnectionBook) : BookContent :=
  ⟨book.connectionId, book.bids, book.asks, book.previousUpdateId⟩

theorem ConnectionBook.SameBook.content
    {left right : ConnectionBook} (same : SameBook left right) :
    left.content = right.content := by
  rw [same.equal]
  rfl

/-- The instants a finished reconstruction calls valid. -/
theorem RunState.validInstants_finish (state : RunState) (endNs : Nat) :
    validInstants (state.finish endNs).intervals =
      validInstants (state.endInterval endNs "utc_day_end") := by
  have filtered := instants_filter_nonempty
    ((state.endInterval endNs "utc_day_end").map ValidityInterval.span)
  rw [List.filter_map] at filtered
  exact filtered

variable {past history : List TimelineEvent} {inherited : Option String}
variable {start left right : RunState} {startNs boundaryNs now : Nat}

/-- The authority of agreeing states has the same book content. -/
theorem Agrees.finalBook
    (sound : RunSound past inherited start startNs history now left)
    (agrees : Agrees boundaryNs [] left right) (endNs : Nat) :
    (left.finish endNs).finalBook.map ConnectionBook.content =
      (right.finish endNs).finalBook.map ConnectionBook.content := by
  simp only [RunState.finish, ← agrees.control.authority,
    ← agrees.control.gaps]
  cases authority : left.authority with
  | none => rfl
  | some connection =>
      by_cases noGap : left.activeGaps = ∅
      · simp only [if_pos noGap]
        have begun : left.validFrom ≠ none := by
          intro absent
          simp [sound.paired.mpr absent] at authority
        rcases Option.ne_none_iff_exists'.mp begun with ⟨validFrom, since⟩
        rcases sound.running connection validFrom authority since with
          ⟨_, _, holds, _⟩
        have valid := RunState.bookOf_valid_iff.mpr holds
        rcases agrees.books connection with tracks | ⟨_, notHeld, _⟩
        · cases tracks with
          | buffering old sameConnection leftUnanchored rightUnanchored
              pending superseded =>
              exact (leftUnanchored.1 valid).elim
          | matched same =>
              have valid' := same.valid.mp valid
              rcases RunState.bookOf_valid_iff.mp valid with
                ⟨leftBook, leftFound, _⟩
              rcases RunState.bookOf_valid_iff.mp valid' with
                ⟨rightBook, rightFound, _⟩
              have content := same.content
              simp only [RunState.bookOf, leftFound, rightFound,
                Option.getD_some] at content
              rw [leftFound, rightFound, Option.map_some, Option.map_some,
                content]
        · exact (notHeld authority).elim
      · simp only [if_neg noGap]

/-- Agreeing states finish alike from the boundary on. -/
theorem Agrees.finish
    (sound : RunSound past inherited start startNs history now left)
    (agrees : Agrees boundaryNs [] left right) (endNs : Nat) :
    (∀ instant, boundaryNs ≤ instant →
      (instant ∈ validInstants (left.finish endNs).intervals ↔
        instant ∈ validInstants (right.finish endNs).intervals)) ∧
      (left.finish endNs).finalBook.map ConnectionBook.content =
        (right.finish endNs).finalBook.map ConnectionBook.content := by
  constructor
  · rw [RunState.validInstants_finish, RunState.validInstants_finish]
    exact agrees.control.endInterval endNs "utc_day_end"
  · exact agrees.finalBook sound endNs

end ShadowDataPlane.Central
