import Mathlib.Data.Finset.Lattice.Lemmas
import ShadowDataPlane.Central.Timeline
import ShadowDataPlane.Central.BookEvidence
import ShadowDataPlane.Foundation.StableSort

/-!
# Two books of one connection

A book restored from a checkpoint has not seen the diffs of the day before
and may call a state other than `VALID` by another name.  `SameBook` relates
two books up to these two parts; the operations respect it, and report the
same state changes, on every row which neither book has seen.

The other relations are about books a checkpoint does not carry.  They say
what the rows up to the next gap opening must not ask of such a book.
-/

namespace ShadowDataPlane.Central

open ShadowDataPlane.Foundation
open ShadowDataPlane.Contracts

/-! ## Looking ahead -/

namespace DepthRow

/-- The identity by which a diff is recognised; snapshots have none. -/
def identity? : DepthRow → Option DiffIdentity
  | .depth diff => some diff.identity
  | .depthSnapshot _ => none

def snapshot? : DepthRow → Option DepthSnapshot
  | .depth _ => none
  | .depthSnapshot snapshot => some snapshot

end DepthRow

/-- The rows before the next gap opening. -/
def untilOpening (events : List TimelineEvent) : List DepthRow :=
  rowsOf (events.takeWhile fun event => ¬ event.Opens)

@[simp]
theorem untilOpening_row (row : DepthRow) (rest : List TimelineEvent) :
    untilOpening (.row row :: rest) = row :: untilOpening rest := rfl

theorem untilOpening_closed
    {event : GapEventV1} (closed : event.state = .closed)
    (rest : List TimelineEvent) :
    untilOpening (.gap event :: rest) = untilOpening rest := by
  have notOpening : ¬ (TimelineEvent.gap event).Opens := by
    simp [TimelineEvent.Opens, closed]
  rw [untilOpening, List.takeWhile_cons_of_pos (by simpa using notOpening)]
  rfl

/-- The next snapshot of a connection. -/
def nextSnapshot (connection : String) (rows : List DepthRow) :
    Option DepthSnapshot :=
  rows.findSome? fun row =>
    if row.connectionId = connection then row.snapshot? else none

/-- No row of the connection comes before the next gap opening. -/
def NoRows (connection : String) (future : List TimelineEvent) : Prop :=
  ∀ row ∈ untilOpening future, row.connectionId ≠ connection

/-- No snapshot of the connection comes before the next gap opening. -/
def NoSnapshot (connection : String) (future : List TimelineEvent) : Prop :=
  nextSnapshot connection (untilOpening future) = none

/-- The next snapshot of the connection already contains these diffs. -/
def Supersedes (connection : String) (diffs : List DepthDiff)
    (future : List TimelineEvent) : Prop :=
  ∀ snapshot ∈ nextSnapshot connection (untilOpening future),
    ∀ diff ∈ diffs, diff.finalUpdateId < snapshot.lastUpdateId

/-- No coming diff of the connection is among those identities. -/
def Unrepeated (connection : String) (seen : Finset DiffIdentity)
    (future : List TimelineEvent) : Prop :=
  ∀ row ∈ rowsOf future, row.connectionId = connection →
    ∀ identity ∈ row.identity?, identity ∉ seen

section Decidable

variable (connection : String) (diffs : List DepthDiff)
variable (seen : Finset DiffIdentity) (future : List TimelineEvent)

instance : Decidable (NoRows connection future) :=
  inferInstanceAs (Decidable (∀ row ∈ _, _))

instance : Decidable (NoSnapshot connection future) :=
  inferInstanceAs (Decidable (_ = _))

instance : Decidable (Supersedes connection diffs future) :=
  inferInstanceAs (Decidable (∀ snapshot ∈ _, _))

instance : Decidable (Unrepeated connection seen future) :=
  inferInstanceAs (Decidable (∀ row ∈ _, _))

end Decidable

theorem Unrepeated.tail
    {connection : String} {seen : Finset DiffIdentity}
    {event : TimelineEvent} {future : List TimelineEvent}
    (unrepeated : Unrepeated connection seen (event :: future)) :
    Unrepeated connection seen future := by
  intro row member
  apply unrepeated row
  rw [mem_rowsOf_iff] at member ⊢
  exact List.mem_cons_of_mem _ member

/-! ## Books which differ in their tags -/

namespace ConnectionBook

/-- The book under another state name, buffer and memory of diffs. -/
def retag (book : ConnectionBook) (state : L2State) (pending : List DepthDiff)
    (seen : Finset DiffIdentity) : ConnectionBook :=
  { book with state := state, pending := pending, seenDiffs := seen }

theorem applyBuffered_retag
    (book : ConnectionBook) (state : L2State) (pending : List DepthDiff)
    (seen : Finset DiffIdentity) (diffs : List DepthDiff) :
    (book.retag state pending seen).applyBuffered diffs =
      ((book.applyBuffered diffs).1.retag state pending seen,
        (book.applyBuffered diffs).2) := by
  induction diffs generalizing book with
  | nil => rfl
  | cons diff rest induction =>
      simp only [applyBuffered]
      have sameUpdateId :
          (book.retag state pending seen).previousUpdateId =
            book.previousUpdateId := rfl
      rw [sameUpdateId]
      split
      · rfl
      · exact induction (book.apply diff)

/--
Two books alike but for the diffs they have seen and for how a state other
than `VALID` is called.
-/
structure SameBook (left right : ConnectionBook) : Prop where
  equal : right = left.retag right.state left.pending right.seenDiffs
  valid : left.state = .valid ↔ right.state = .valid

theorem SameBook.connectionId
    {left right : ConnectionBook} (same : SameBook left right) :
    left.connectionId = right.connectionId := by
  rw [same.equal]
  rfl

/--
Anchored books alike but for state name, memory and the part of the buffer
which the anchor makes irrelevant bridge alike.
-/
theorem tryBridge_same
    {left : ConnectionBook} {state : L2State} {pending : List DepthDiff}
    (seen : Finset DiffIdentity) {anchor : Int} {received : Nat}
    (anchored : left.anchorLastUpdateId = some anchor)
    (receivedAt : left.anchorReceivedNs = some received)
    (sameCandidates :
      candidates left.pending anchor = candidates pending anchor)
    (valid : left.state = .valid ↔ state = .valid) :
    SameBook left.tryBridge.1
        (left.retag state pending seen).tryBridge.1 ∧
      left.tryBridge.2 = (left.retag state pending seen).tryBridge.2 ∧
      left.tryBridge.1.seenDiffs = left.seenDiffs ∧
      (left.retag state pending seen).tryBridge.1.seenDiffs = seen := by
  have anchored' :
      (left.retag state pending seen).anchorLastUpdateId = some anchor :=
    anchored
  have receivedAt' :
      (left.retag state pending seen).anchorReceivedNs = some received :=
    receivedAt
  have pending' : (left.retag state pending seen).pending = pending := rfl
  simp only [tryBridge, anchored, receivedAt, anchored', receivedAt',
    pending', ← sameCandidates]
  split
  next =>
    exact ⟨⟨rfl, valid⟩, rfl, rfl, rfl⟩
  next bridge rest _ =>
    have applied : (left.retag state pending seen).apply bridge =
        (left.apply bridge).retag state pending seen := rfl
    rw [applied, applyBuffered_retag]
    have memory := applyBuffered_seenDiffs (left.apply bridge) rest
    revert memory
    rcases (left.apply bridge).applyBuffered rest with ⟨book, stopped⟩
    intro memory
    cases stopped with
    | none => exact ⟨⟨rfl, Iff.rfl⟩, rfl, memory, rfl⟩
    | some diff => exact ⟨⟨rfl, Iff.rfl⟩, rfl, memory, rfl⟩

theorem tryBridge_unanchored
    {book : ConnectionBook} (unanchored : book.anchorLastUpdateId = none) :
    book.tryBridge = (book, none) := by
  simp [tryBridge, unanchored]

/-- What a step of two related books has to establish. -/
structure SameStep (left right : ConnectionBook × Option StateChange)
    (leftSeen rightSeen : Finset DiffIdentity) : Prop where
  books : SameBook left.1 right.1
  changes : left.2 = right.2
  leftSeen : left.1.seenDiffs = leftSeen
  rightSeen : right.1.seenDiffs = rightSeen

theorem SameBook.tryBridge
    {left right : ConnectionBook} (same : SameBook left right) :
    SameStep left.tryBridge right.tryBridge left.seenDiffs
      right.seenDiffs := by
  rcases same with ⟨equal, valid⟩
  generalize right.state = state at equal valid
  generalize right.seenDiffs = seen at equal
  subst equal
  cases anchored : left.anchorLastUpdateId with
  | none =>
      have anchored' : (left.retag state left.pending
          seen).anchorLastUpdateId = none := anchored
      rw [tryBridge_unanchored anchored, tryBridge_unanchored anchored']
      exact ⟨⟨rfl, valid⟩, rfl, rfl, rfl⟩
  | some anchor =>
      cases receivedAt : left.anchorReceivedNs with
      | none =>
          have receivedAt' : (left.retag state left.pending
              seen).anchorReceivedNs = none := receivedAt
          have stays : left.tryBridge = (left, none) := by
            simp [ConnectionBook.tryBridge, receivedAt]
          have stays' : (left.retag state left.pending seen).tryBridge =
              (left.retag state left.pending seen, none) := by
            simp [ConnectionBook.tryBridge, receivedAt']
          rw [stays, stays']
          exact ⟨⟨rfl, valid⟩, rfl, rfl, rfl⟩
      | some received =>
          rcases tryBridge_same seen anchored receivedAt rfl valid with
            ⟨books, changes, leftSeen, rightSeen⟩
          exact ⟨books, changes, leftSeen, rightSeen⟩

/-- A diff which neither book or both have seen. -/
theorem SameBook.onDiff
    {left right : ConnectionBook} (same : SameBook left right)
    (diff : DepthDiff)
    (seen : diff.identity ∈ left.seenDiffs ↔
      diff.identity ∈ right.seenDiffs) :
    SameStep (left.onDiff diff) (right.onDiff diff)
      (insert diff.identity left.seenDiffs)
      (insert diff.identity right.seenDiffs) := by
  by_cases repeated : diff.identity ∈ left.seenDiffs
  · have repeated' := seen.mp repeated
    simp only [ConnectionBook.onDiff, if_pos repeated, if_pos repeated']
    exact ⟨same, rfl, (Finset.insert_eq_of_mem repeated).symm,
      (Finset.insert_eq_of_mem repeated').symm⟩
  · have repeated' := mt seen.mpr repeated
    rcases same with ⟨equal, valid⟩
    have sameUpdateId : right.previousUpdateId = left.previousUpdateId := by
      rw [equal]
      rfl
    simp only [ConnectionBook.onDiff, if_neg repeated, if_neg repeated',
      ne_eq, sameUpdateId, ← valid]
    split
    · apply SameBook.tryBridge
      constructor
      · rw [equal]
        rfl
      · exact valid
    · split
      · exact {
          books := ⟨by rw [equal]; rfl, Iff.rfl⟩
          changes := by rw [equal]; rfl
          leftSeen := rfl
          rightSeen := rfl }
      · exact {
          books := ⟨by rw [equal]; rfl, valid⟩
          changes := rfl
          leftSeen := rfl
          rightSeen := rfl }

theorem SameBook.onSnapshot
    {left right : ConnectionBook} (same : SameBook left right)
    (snapshot : DepthSnapshot) :
    SameStep (left.onSnapshot snapshot) (right.onSnapshot snapshot)
      left.seenDiffs right.seenDiffs := by
  apply SameBook.tryBridge
  constructor
  · rw [same.equal]
    rfl
  · exact same.valid

/-! ## Sorting the buffer -/

instance : Std.Total fun left right : DepthDiff =>
    left.receiveSeq ≤ right.receiveSeq :=
  ⟨fun left right => le_total left.receiveSeq right.receiveSeq⟩

instance : IsTrans DepthDiff
    fun left right => left.receiveSeq ≤ right.receiveSeq :=
  ⟨fun _ _ _ first second => le_trans first second⟩

/-! ## Books which lag behind -/

/-- The diffs a book has seen beyond another's do not come again. -/
def Remembers (connection : String) (future : List TimelineEvent)
    (left right : ConnectionBook) : Prop :=
  ∃ older, left.seenDiffs = older ∪ right.seenDiffs ∧
    Unrepeated connection older future

/-- A book without a snapshot, whatever it has buffered. -/
def Unanchored (book : ConnectionBook) : Prop :=
  book.state ≠ .valid ∧ book.anchorLastUpdateId = none

/--
Two books which report the same changes: alike, or both without a snapshot,
the next snapshot containing every diff only the left one has buffered.
-/
inductive Tracks (connection : String) (future : List TimelineEvent) :
    ConnectionBook → ConnectionBook → Prop where
  | matched {left right : ConnectionBook} (same : SameBook left right) :
      Tracks connection future left right
  | buffering {left right : ConnectionBook} (old : List DepthDiff)
      (sameConnection : left.connectionId = right.connectionId)
      (leftUnanchored : left.Unanchored) (rightUnanchored : right.Unanchored)
      (pending : left.pending = old ++ right.pending)
      (superseded : Supersedes connection old future) :
      Tracks connection future left right

/--
Two books of which the left one was lost: the right one buffers without a
snapshot, and nothing comes before the next gap opening which could tell.
-/
inductive Adrift (connection : String) (future : List TimelineEvent) :
    ConnectionBook → ConnectionBook → Prop where
  | stranded {left right : ConnectionBook}
      (rightUnanchored : right.Unanchored)
      (leftPassive : left.state = .valid ∨ left.Unanchored)
      (unsnapshotted : NoSnapshot connection future) :
      Adrift connection future left right
  | silent {left right : ConnectionBook}
      (rightInvalid : right.state ≠ .valid)
      (noRows : NoRows connection future) :
      Adrift connection future left right

section Ahead

variable {connection : String} {future : List TimelineEvent}
variable {left right : ConnectionBook}

theorem nextSnapshot_cons_of_ne
    {row : DepthRow} (other : row.connectionId ≠ connection)
    (rows : List DepthRow) :
    nextSnapshot connection (row :: rows) = nextSnapshot connection rows := by
  simp [nextSnapshot, other]

theorem nextSnapshot_cons_depth
    (diff : DepthDiff) (rows : List DepthRow) :
    nextSnapshot connection (.depth diff :: rows) =
      nextSnapshot connection rows := by
  simp [nextSnapshot, DepthRow.snapshot?]

theorem nextSnapshot_cons_snapshot
    (snapshot : DepthSnapshot) (same : snapshot.connectionId = connection)
    (rows : List DepthRow) :
    nextSnapshot connection (.depthSnapshot snapshot :: rows) =
      some snapshot := by
  simp [nextSnapshot, DepthRow.connectionId, DepthRow.snapshot?, same]

/-- An event which is no gap opening and no row of the connection. -/
def Foreign (connection : String) : TimelineEvent → Prop
  | .gap event => event.state = .closed
  | .row row => row.connectionId ≠ connection

theorem Foreign.noRows
    {event : TimelineEvent} (foreign : Foreign connection event)
    (noRows : NoRows connection (event :: future)) :
    NoRows connection future := by
  cases event with
  | gap event =>
      rwa [NoRows, untilOpening_closed foreign] at noRows
  | row row =>
      exact fun other member =>
        noRows other (List.mem_cons_of_mem _ member)

theorem Foreign.nextSnapshot
    {event : TimelineEvent} (foreign : Foreign connection event) :
    nextSnapshot connection (untilOpening (event :: future)) =
      nextSnapshot connection (untilOpening future) := by
  cases event with
  | gap event => rw [untilOpening_closed foreign]
  | row row => rw [untilOpening_row, nextSnapshot_cons_of_ne foreign]

theorem Tracks.skip
    {event : TimelineEvent} (foreign : Foreign connection event)
    (tracks : Tracks connection (event :: future) left right) :
    Tracks connection future left right := by
  cases tracks with
  | matched same => exact .matched same
  | buffering old sameConnection leftUnanchored rightUnanchored pending
      superseded =>
      apply Tracks.buffering old sameConnection leftUnanchored
        rightUnanchored pending
      rwa [Supersedes, foreign.nextSnapshot] at superseded

theorem Adrift.skip
    {event : TimelineEvent} (foreign : Foreign connection event)
    (adrift : Adrift connection (event :: future) left right) :
    Adrift connection future left right := by
  cases adrift with
  | stranded rightUnanchored leftPassive unsnapshotted =>
      apply Adrift.stranded rightUnanchored leftPassive
      rwa [NoSnapshot, foreign.nextSnapshot] at unsnapshotted
  | silent rightInvalid noRows =>
      exact .silent rightInvalid (foreign.noRows noRows)

theorem Remembers.skip
    {event : TimelineEvent}
    (remembers : Remembers connection (event :: future) left right) :
    Remembers connection future left right := by
  rcases remembers with ⟨older, seen, unrepeated⟩
  exact ⟨older, seen, unrepeated.tail⟩

theorem Remembers.of_insert
    {left' right' : ConnectionBook} {event : TimelineEvent}
    {identity : DiffIdentity}
    (remembers : Remembers connection (event :: future) left right)
    (leftSeen : left'.seenDiffs = insert identity left.seenDiffs)
    (rightSeen : right'.seenDiffs = insert identity right.seenDiffs) :
    Remembers connection future left' right' := by
  rcases remembers with ⟨older, seen, unrepeated⟩
  refine ⟨older, ?_, unrepeated.tail⟩
  rw [leftSeen, rightSeen, seen, Finset.union_insert]

theorem Remembers.of_same
    {left' right' : ConnectionBook} {event : TimelineEvent}
    (remembers : Remembers connection (event :: future) left right)
    (leftSeen : left'.seenDiffs = left.seenDiffs)
    (rightSeen : right'.seenDiffs = right.seenDiffs) :
    Remembers connection future left' right' := by
  rcases remembers with ⟨older, seen, unrepeated⟩
  refine ⟨older, ?_, unrepeated.tail⟩
  rw [leftSeen, rightSeen, seen]

/-- On the next diff the two memories agree. -/
theorem Remembers.mem_iff
    {diff : DepthDiff}
    (remembers :
      Remembers connection (.row (.depth diff) :: future) left right)
    (same : diff.connectionId = connection) :
    diff.identity ∈ left.seenDiffs ↔ diff.identity ∈ right.seenDiffs := by
  rcases remembers with ⟨older, seen, unrepeated⟩
  have fresh : diff.identity ∉ older :=
    unrepeated (.depth diff) (mem_rowsOf_iff.mpr List.mem_cons_self) same
      diff.identity rfl
  rw [seen, Finset.mem_union]
  constructor
  · rintro (old | new)
    · exact (fresh old).elim
    · exact new
  · exact Or.inr

/-- A book without a snapshot buffers a diff or ignores it. -/
theorem Unanchored.onDiff
    {book : ConnectionBook} (unanchored : book.Unanchored)
    (diff : DepthDiff) :
    (book.onDiff diff).2 = none ∧ (book.onDiff diff).1.Unanchored ∧
      (book.onDiff diff).1.connectionId = book.connectionId ∧
      (book.onDiff diff).1.seenDiffs =
        insert diff.identity book.seenDiffs ∧
      (book.onDiff diff).1.pending =
        if diff.identity ∈ book.seenDiffs then book.pending
        else book.pending ++ [diff] := by
  by_cases repeated : diff.identity ∈ book.seenDiffs
  · have ignored : book.onDiff diff = (book, none) := by
      rw [ConnectionBook.onDiff, if_pos repeated]
    rw [ignored, if_pos repeated]
    exact ⟨rfl, unanchored, rfl, (Finset.insert_eq_of_mem repeated).symm,
      rfl⟩
  · have buffered : book.onDiff diff =
        ({ book with
            pending := book.pending ++ [diff]
            seenDiffs := insert diff.identity book.seenDiffs }, none) := by
      rw [ConnectionBook.onDiff, if_neg repeated]
      dsimp only
      rw [if_pos unanchored.1]
      exact tryBridge_unanchored unanchored.2
    rw [buffered, if_neg repeated]
    exact ⟨rfl, unanchored, rfl, rfl, rfl⟩

/-- Diffs which the anchor contains are no candidates. -/
theorem candidates_append_of_superseded
    {old new : List DepthDiff} {anchor : Int}
    (superseded : ∀ diff ∈ old, diff.finalUpdateId < anchor) :
    candidates (old ++ new) anchor = candidates new anchor := by
  have sorted (diffs : List DepthDiff) :
      candidates diffs anchor =
        sortBySequence
          (diffs.filter fun diff => anchor ≤ diff.finalUpdateId) :=
    filter_insertionSort _ _ diffs
  rw [sorted, sorted, List.filter_append]
  have none : old.filter (fun diff => decide (anchor ≤ diff.finalUpdateId)) =
      [] := by
    apply List.filter_eq_nil_iff.mpr
    intro diff member
    simpa using superseded diff member
  rw [none, List.nil_append]

/-- A `VALID` book applies a diff, ignores it, or is left without anchor. -/
theorem onDiff_of_valid
    {book : ConnectionBook} (valid : book.state = .valid)
    (diff : DepthDiff) :
    (∀ change, (book.onDiff diff).2 = some change →
      change.state ≠ .valid) ∧
      ((book.onDiff diff).1.state = .valid ∨
        (book.onDiff diff).1.Unanchored) ∧
      (book.onDiff diff).1.seenDiffs =
        insert diff.identity book.seenDiffs := by
  by_cases repeated : diff.identity ∈ book.seenDiffs
  · rw [ConnectionBook.onDiff, if_pos repeated]
    exact ⟨by simp, Or.inl valid, (Finset.insert_eq_of_mem repeated).symm⟩
  · rw [ConnectionBook.onDiff, if_neg repeated]
    simp only [ne_eq, valid, not_true_eq_false, if_false]
    split
    · refine ⟨?_, Or.inr ⟨by simp [invalidate], rfl⟩, rfl⟩
      intro change produced
      rw [← Option.some.inj produced]
      simp
    · exact ⟨by simp, Or.inl rfl, rfl⟩

/-- Books which track each other keep doing so, and report the same change. -/
theorem Tracks.onRow
    {row : DepthRow} (same : row.connectionId = connection)
    (tracks : Tracks connection (.row row :: future) left right)
    (remembers : Remembers connection (.row row :: future) left right) :
    (left.onRow row).2 = (right.onRow row).2 ∧
      Tracks connection future (left.onRow row).1 (right.onRow row).1 ∧
      Remembers connection future (left.onRow row).1
        (right.onRow row).1 := by
  cases tracks with
  | matched sameBook =>
      cases row with
      | depth diff =>
          have step := sameBook.onDiff diff (remembers.mem_iff same)
          exact ⟨step.changes, .matched step.books,
            remembers.of_insert step.leftSeen step.rightSeen⟩
      | depthSnapshot snapshot =>
          have step := sameBook.onSnapshot snapshot
          exact ⟨step.changes, .matched step.books,
            remembers.of_same step.leftSeen step.rightSeen⟩
  | buffering old sameConnection leftUnanchored rightUnanchored pending
      superseded =>
      cases row with
      | depth diff =>
          rcases leftUnanchored.onDiff diff with
            ⟨leftSilent, leftKept, leftConnection, leftSeen, leftPending⟩
          rcases rightUnanchored.onDiff diff with
            ⟨rightSilent, rightKept, rightConnection, rightSeen,
              rightPending⟩
          refine ⟨leftSilent.trans rightSilent.symm, ?_,
            remembers.of_insert leftSeen rightSeen⟩
          apply Tracks.buffering old
            (leftConnection.trans (sameConnection.trans
              rightConnection.symm))
            leftKept rightKept
          · show (left.onDiff diff).1.pending =
              old ++ (right.onDiff diff).1.pending
            rw [leftPending, rightPending,
              if_congr (remembers.mem_iff same) rfl rfl, pending]
            split
            · rfl
            · exact List.append_assoc _ _ _
          · rwa [Supersedes, untilOpening_row,
              nextSnapshot_cons_depth] at superseded
      | depthSnapshot snapshot =>
          have outdated : ∀ diff ∈ old,
              diff.finalUpdateId < snapshot.lastUpdateId := by
            apply superseded snapshot
            rw [untilOpening_row, nextSnapshot_cons_snapshot _ same]
            exact rfl
          let anchored (book : ConnectionBook) : ConnectionBook :=
            { book with
              bids := bookSide snapshot.bids
              asks := bookSide snapshot.asks
              previousUpdateId := some snapshot.lastUpdateId
              anchorLastUpdateId := some snapshot.lastUpdateId
              anchorReceivedNs := some snapshot.receivedNs }
          have rightIs : anchored right =
              (anchored left).retag right.state right.pending
                right.seenDiffs := by
            simp only [anchored, retag, sameConnection]
          have relevant : candidates (anchored left).pending
              snapshot.lastUpdateId =
                candidates right.pending snapshot.lastUpdateId := by
            show candidates left.pending _ = _
            rw [pending]
            exact candidates_append_of_superseded outdated
          have invalid : (anchored left).state = .valid ↔
              right.state = .valid :=
            iff_of_false leftUnanchored.1 rightUnanchored.1
          have step := tryBridge_same right.seenDiffs rfl rfl relevant invalid
          rw [← rightIs] at step
          rcases step with ⟨books, changes, leftSeen, rightSeen⟩
          exact ⟨changes, .matched books,
            remembers.of_same leftSeen rightSeen⟩

/-- A lost book stays lost, and no row validates it on either side. -/
theorem Adrift.onRow
    {row : DepthRow} (same : row.connectionId = connection)
    (adrift : Adrift connection (.row row :: future) left right)
    (remembers : Remembers connection (.row row :: future) left right) :
    (right.onRow row).2 = none ∧
      (∀ change, (left.onRow row).2 = some change →
        change.state ≠ .valid) ∧
      Adrift connection future (left.onRow row).1 (right.onRow row).1 ∧
      Remembers connection future (left.onRow row).1 (right.onRow row).1 ∧
      (left.state ≠ .valid → (left.onRow row).1.state ≠ .valid) := by
  cases adrift with
  | silent rightInvalid noRows =>
      exact (noRows row List.mem_cons_self same).elim
  | stranded rightUnanchored leftPassive unsnapshotted =>
      cases row with
      | depthSnapshot snapshot =>
          rw [NoSnapshot, untilOpening_row,
            nextSnapshot_cons_snapshot _ same] at unsnapshotted
          simp at unsnapshotted
      | depth diff =>
          rw [NoSnapshot, untilOpening_row,
            nextSnapshot_cons_depth] at unsnapshotted
          rcases rightUnanchored.onDiff diff with
            ⟨rightSilent, rightKept, _, rightSeen, _⟩
          rcases leftPassive with valid | leftUnanchored
          · rcases onDiff_of_valid valid diff with
              ⟨notValidating, leftKept, leftSeen⟩
            exact ⟨rightSilent, notValidating,
              .stranded rightKept leftKept unsnapshotted,
              remembers.of_insert leftSeen rightSeen,
              fun invalid => (invalid valid).elim⟩
          · rcases leftUnanchored.onDiff diff with
              ⟨leftSilent, leftKept, _, leftSeen, _⟩
            have notValidating : ∀ change,
                (left.onDiff diff).2 = some change →
                  change.state ≠ .valid := by
              intro change produced
              rw [leftSilent] at produced
              simp at produced
            exact ⟨rightSilent, notValidating,
              .stranded rightKept (Or.inr leftKept) unsnapshotted,
              remembers.of_insert leftSeen rightSeen,
              fun _ => leftKept.1⟩

end Ahead

end ConnectionBook

end ShadowDataPlane.Central
