import ShadowDataPlane.Central.BufferedBreak
import ShadowDataPlane.Central.RedundantSnapshot

/-!
# A book whose rows come in sequence

The rows of one connection are numbered as they are recorded.  The buffer of
its book is in order, and no diff in it contains the update ID of the snapshot
which the book waits on (`InSequence`).  So a diff which bridges is the last
one, and `onDiff` either waits, bridges with the new diff, or finds a
discontinuity in a `VALID` book (`DiffOutcome`); only a snapshot can find a
discontinuity in the buffer (`SnapshotOutcome`).
-/

namespace ShadowDataPlane.Central

open ShadowDataPlane.Foundation

/-! ## Bridging -/

namespace ConnectionBook

/-- What a book makes of a buffer in order, when it is anchored at an ID. -/
inductive BufferOutcome (book : ConnectionBook) (anchor : Int) :
    ConnectionBook × Option StateChange → Prop where
  | waits (apart : applicable anchor book.pending = []) :
      BufferOutcome book anchor
        ({ book with pending := newerThan anchor book.pending }, none)
  | bridges {bridge : DepthDiff} {rest : List DepthDiff}
      {change : StateChange}
      (isApplicable : applicable anchor book.pending = bridge :: rest)
      (linked : PuLinked (bridge :: rest))
      (isValid : change.state = .valid) :
      BufferOutcome book anchor
        ((book.replay (bridge :: rest)).settle, some change)
  | breaks {bridge broken : DepthDiff} {rest : List DepthDiff}
      {change : StateChange}
      (isApplicable : applicable anchor book.pending = bridge :: rest)
      (unlinked : ¬ PuLinked (bridge :: rest)) (member : broken ∈ rest)
      (isGapped : change.state = .gapped) :
      BufferOutcome book anchor
        ({ book.invalidate with pending := [broken] }, some change)

theorem tryBridge_of_sequenced
    {book : ConnectionBook} {anchor : Int} {received : Nat}
    (anchored : book.anchorLastUpdateId = some anchor)
    (receivedAt : book.anchorReceivedNs = some received)
    (sequenced : Sequenced book.pending) :
    BufferOutcome book anchor book.tryBridge := by
  have remaining : (candidates book.pending anchor).dropWhile
      (fun diff => ¬ diff.Bridges anchor) =
        applicable anchor book.pending := by
    rw [candidates_of_sequenced sequenced]
    rfl
  cases isApplicable : applicable anchor book.pending with
  | nil =>
      rw [isApplicable] at remaining
      have waiting : book.tryBridge =
          ({ book with pending := newerThan anchor book.pending }, none) := by
        simp only [tryBridge, anchored, receivedAt, remaining]
        rw [candidates_of_sequenced sequenced]
        rfl
      rw [waiting]
      exact .waits isApplicable
  | cons bridge rest =>
      rw [isApplicable] at remaining
      have reached : (book.apply bridge).previousUpdateId =
          some bridge.finalUpdateId := rfl
      have completes : ((book.apply bridge).applyBuffered rest).2 = none ↔
          PuLinked (bridge :: rest) := applyBuffered_completes_iff reached
      by_cases linked : PuLinked (bridge :: rest)
      · have applied := applyBuffered_of_linked linked reached
        simp only [tryBridge, anchored, receivedAt, remaining, applied]
        exact .bridges isApplicable linked rfl
      · cases stopped : ((book.apply bridge).applyBuffered rest).2 with
        | none => exact absurd (completes.mp stopped) linked
        | some broken =>
            rcases applyBuffered_stops reached stopped with
              ⟨before, behind, isRest, _⟩
            have sameConnection := applyBuffered_connectionId
              (book.apply bridge) rest
            have sameSeen := applyBuffered_seenDiffs (book.apply bridge) rest
            have member : broken ∈ rest := by
              rw [isRest]
              exact List.mem_append_right _ List.mem_cons_self
            revert sameConnection sameSeen stopped
            generalize isResult :
              (book.apply bridge).applyBuffered rest = result
            rcases result with ⟨left, stop⟩
            intro stopped sameConnection sameSeen
            dsimp only at stopped sameConnection sameSeen
            cases stopped
            have emptied : { left.invalidate with pending := [broken] } =
                { book.invalidate with pending := [broken] } := by
              simp only [invalidate, sameConnection, sameSeen]
              rfl
            simp only [tryBridge, anchored, receivedAt, remaining, isResult]
            rw [emptied]
            exact .breaks isApplicable linked member rfl

end ConnectionBook

/-! ## Books in sequence -/

/-- The buffer is in order, and nothing in it contains the anchor's ID. -/
structure InSequence (sequence : Nat) (book : ConnectionBook) : Prop where
  settled : book.state = .valid → book.pending = []
  sequenced : ConnectionBook.Sequenced book.pending
  bounded : ∀ diff ∈ book.pending, diff.receiveSeq ≤ sequence
  apart : ∀ anchor, book.anchorLastUpdateId = some anchor →
    ∀ diff ∈ book.pending, ¬ diff.Bridges anchor
  dated : ∀ anchor, book.anchorLastUpdateId = some anchor →
    book.anchorReceivedNs.isSome

/-- What a diff with the next number does to a book. -/
inductive DiffOutcome (book : ConnectionBook) (diff : DepthDiff) :
    ConnectionBook × Option StateChange → Prop where
  | repeated (seen : diff.identity ∈ book.seenDiffs) :
      DiffOutcome book diff (book, none)
  | applied {after : ConnectionBook} (new : diff.identity ∉ book.seenDiffs)
      (valid : book.state = .valid)
      (linked : book.previousUpdateId = some diff.previousFinalUpdateId)
      (stillValid : after.state = .valid)
      (atDiff : after.previousUpdateId = some diff.finalUpdateId) :
      DiffOutcome book diff (after, none)
  | discontinuous {after : ConnectionBook} {change : StateChange}
      (valid : book.state = .valid)
      (unlinked : book.previousUpdateId ≠ some diff.previousFinalUpdateId)
      (invalid : after.state ≠ .valid) :
      DiffOutcome book diff (after, some change)
  | waits {after : ConnectionBook} (invalid : book.state ≠ .valid)
      (stillInvalid : after.state ≠ .valid) :
      DiffOutcome book diff (after, none)
  | bridges {after : ConnectionBook} {change : StateChange}
      (invalid : book.state ≠ .valid) (isValid : after.state = .valid)
      (changes : change.state = .valid)
      (atDiff : after.previousUpdateId = some diff.finalUpdateId) :
      DiffOutcome book diff (after, some change)

/-- What a snapshot does to a book. -/
inductive SnapshotOutcome (book : ConnectionBook) (snapshot : DepthSnapshot) :
    ConnectionBook × Option StateChange → Prop where
  | waits {after : ConnectionBook}
      (apart : applicable snapshot.lastUpdateId book.pending = [])
      (sameState : after.state = book.state)
      (atSnapshot : after.previousUpdateId = some snapshot.lastUpdateId) :
      SnapshotOutcome book snapshot (after, none)
  | bridges {after : ConnectionBook} {change : StateChange}
      {bridge : DepthDiff} {rest : List DepthDiff}
      (isApplicable : applicable snapshot.lastUpdateId book.pending =
        bridge :: rest)
      (linked : PuLinked (bridge :: rest)) (isValid : after.state = .valid)
      (changes : change.state = .valid)
      (atLast : after.previousUpdateId = lastFinal none (bridge :: rest)) :
      SnapshotOutcome book snapshot (after, some change)
  | breaks {after : ConnectionBook} {change : StateChange}
      {bridge : DepthDiff} {rest : List DepthDiff}
      (isApplicable : applicable snapshot.lastUpdateId book.pending =
        bridge :: rest)
      (unlinked : ¬ PuLinked (bridge :: rest))
      (invalid : after.state ≠ .valid) :
      SnapshotOutcome book snapshot (after, some change)

namespace InSequence

variable {sequence : Nat} {book : ConnectionBook}

theorem fresh (connectionId : String) :
    InSequence 0 { connectionId } where
  settled _ := rfl
  sequenced := List.Pairwise.nil
  bounded diff member := by cases member
  apart anchor anchored := by cases anchored
  dated anchor anchored := by cases anchored

/-- Later numbers do not matter to a book. -/
theorem mono (inSequence : InSequence sequence book) {later : Nat}
    (le : sequence ≤ later) : InSequence later book where
  settled := inSequence.settled
  sequenced := inSequence.sequenced
  bounded diff member := (inSequence.bounded diff member).trans le
  apart := inSequence.apart
  dated := inSequence.dated

/-- A book which has just lost its levels. -/
theorem emptied {diff : DepthDiff} (bounded : diff.receiveSeq ≤ sequence) :
    InSequence sequence { book.invalidate with pending := [diff] } where
  settled valid := by cases valid
  sequenced := List.pairwise_singleton _ _
  bounded other member := by
    rw [List.mem_singleton.mp member]
    exact bounded
  apart anchor anchored := by cases anchored
  dated anchor anchored := by cases anchored

/-- A book which is bridged. -/
theorem bridged (diffs : List DepthDiff) :
    InSequence sequence (book.replay diffs).settle where
  settled _ := rfl
  sequenced := List.Pairwise.nil
  bounded diff member := by cases member
  apart anchor anchored := by cases anchored
  dated anchor anchored := by cases anchored

end InSequence

/-- No diff contains the ID exactly if nothing is applicable. -/
theorem applicable_eq_nil_iff {anchor : Int} {diffs : List DepthDiff} :
    applicable anchor diffs = [] ↔ ∀ diff ∈ diffs, ¬ diff.Bridges anchor := by
  rw [applicable, fromBridge, List.dropWhile_eq_nil_iff]
  constructor
  · intro apart diff member bridges
    have isNewer : diff ∈ newerThan anchor diffs :=
      List.mem_filter.mpr ⟨member, decide_eq_true bridges.2⟩
    exact of_decide_eq_true (apart diff isNewer) bridges
  · intro apart diff member
    exact decide_eq_true (apart diff (List.mem_filter.mp member).1)

theorem lastFinal_eq_of_replay
    (book : ConnectionBook) (bridge : DepthDiff) (rest : List DepthDiff) :
    (book.replay (bridge :: rest)).settle.previousUpdateId =
      lastFinal none (bridge :: rest) := by
  rw [ConnectionBook.replay_eq]
  simp only [ConnectionBook.settle]
  rw [lastFinal_cons, lastFinal_cons]

section Steps

variable {sequence : Nat} {book : ConnectionBook}

/-- A buffer which the new diff was put into, on an anchored book. -/
theorem applicable_concat
    {anchor : Int} {diffs : List DepthDiff} {diff : DepthDiff}
    (apart : ∀ other ∈ diffs, ¬ other.Bridges anchor) :
    applicable anchor (diffs ++ [diff]) =
      if diff.Bridges anchor then [diff] else [] := by
  split
  next bridges =>
    have isNewer : newerThan anchor [diff] = [diff] := by
      rw [newerThan, List.filter_singleton, decide_eq_true bridges.2]
      rfl
    have none := applicable_eq_nil_iff.mpr apart
    rw [applicable, fromBridge] at none
    rw [applicable, newerThan, List.filter_append, ← newerThan, ← newerThan,
      isNewer, fromBridge, List.dropWhile_append, none]
    simp [bridges]
  next apartToo =>
    apply applicable_eq_nil_iff.mpr
    intro other member
    rcases List.mem_append.mp member with old | new
    · exact apart other old
    · rw [List.mem_singleton.mp new]
      exact apartToo

theorem sequenced_concat
    (inSequence : InSequence sequence book) {diff : DepthDiff}
    (isNext : sequence < diff.receiveSeq) :
    ConnectionBook.Sequenced (book.pending ++ [diff]) := by
  apply List.pairwise_append.mpr
  refine ⟨inSequence.sequenced, List.pairwise_singleton _ _, ?_⟩
  intro other member new isNew
  rw [List.mem_singleton.mp isNew]
  exact (inSequence.bounded other member).trans_lt isNext

/-- A book with a new diff in its buffer. -/
def buffered (book : ConnectionBook) (diff : DepthDiff) : ConnectionBook :=
  { book with
    seenDiffs := insert diff.identity book.seenDiffs
    pending := book.pending ++ [diff] }

/-- A book which is not `VALID` takes a new diff. -/
theorem tryBridge_buffered
    (inSequence : InSequence sequence book) {diff : DepthDiff}
    (isNext : diff.receiveSeq = sequence + 1) (invalid : book.state ≠ .valid) :
    DiffOutcome book diff (buffered book diff).tryBridge ∧
      InSequence (sequence + 1) (buffered book diff).tryBridge.1 := by
  have sequenced : ConnectionBook.Sequenced (buffered book diff).pending :=
    sequenced_concat inSequence
      (Nat.lt_of_lt_of_eq (Nat.lt_succ_self sequence) isNext.symm)
  have bounded : ∀ other ∈ (buffered book diff).pending,
      other.receiveSeq ≤ sequence + 1 := by
    intro other member
    rcases List.mem_append.mp member with old | isNew
    · exact (inSequence.bounded other old).trans (Nat.le_succ _)
    · rw [List.mem_singleton.mp isNew, isNext]
  cases anchored : book.anchorLastUpdateId with
  | none =>
      have waiting : (buffered book diff).tryBridge =
          (buffered book diff, none) :=
        ConnectionBook.tryBridge_unanchored anchored
      rw [waiting]
      refine ⟨.waits invalid invalid, ?_⟩
      exact {
        settled := fun valid => absurd valid invalid
        sequenced
        bounded
        apart := fun anchor isAnchor => by
          cases anchored.symm.trans isAnchor
        dated := inSequence.dated }
  | some anchor =>
      rcases Option.isSome_iff_exists.mp (inSequence.dated anchor anchored) with
        ⟨received, receivedAt⟩
      have found : applicable anchor (buffered book diff).pending =
          if diff.Bridges anchor then [diff] else [] :=
        applicable_concat (inSequence.apart anchor anchored)
      have outcome := ConnectionBook.tryBridge_of_sequenced
        (show (buffered book diff).anchorLastUpdateId = some anchor
          from anchored) receivedAt sequenced
      generalize (buffered book diff).tryBridge = result at outcome
      cases outcome with
      | waits apart =>
          refine ⟨.waits invalid invalid, ?_⟩
          have apartAll := applicable_eq_nil_iff.mp apart
          exact {
            settled := fun valid => absurd valid invalid
            sequenced := sequenced.filter _
            bounded := fun other member =>
              bounded other (List.mem_filter.mp member).1
            apart := fun other isAnchor member inBuffer => by
              cases anchored.symm.trans isAnchor
              exact apartAll member (List.mem_filter.mp inBuffer).1
            dated := inSequence.dated }
      | @bridges bridge rest change isApplicable linked isValid =>
          rw [found] at isApplicable
          split at isApplicable
          next =>
            cases isApplicable
            refine ⟨.bridges invalid rfl isValid ?_, InSequence.bridged _⟩
            exact lastFinal_eq_of_replay _ _ _
          next => cases isApplicable
      | @breaks bridge broken rest change isApplicable unlinked member =>
          rw [found] at isApplicable
          split at isApplicable
          next =>
            cases isApplicable
            cases member
          next => cases isApplicable

/-- A diff with the next number. -/
theorem onDiff_outcome
    (inSequence : InSequence sequence book) {diff : DepthDiff}
    (isNext : diff.receiveSeq = sequence + 1) :
    DiffOutcome book diff (book.onDiff diff) ∧
      InSequence (sequence + 1) (book.onDiff diff).1 := by
  by_cases seen : diff.identity ∈ book.seenDiffs
  · rw [ConnectionBook.onDiff, if_pos seen]
    exact ⟨.repeated seen, inSequence.mono (Nat.le_succ _)⟩
  · by_cases valid : book.state = .valid
    · by_cases linked : book.previousUpdateId =
          some diff.previousFinalUpdateId
      · rw [ConnectionBook.onDiff_of_linked seen valid linked]
        refine ⟨.applied seen valid linked valid rfl, ?_⟩
        exact {
          settled := inSequence.settled
          sequenced := inSequence.sequenced
          bounded := fun other member =>
            (inSequence.bounded other member).trans (Nat.le_succ _)
          apart := inSequence.apart
          dated := inSequence.dated }
      · have result : ∃ change, book.onDiff diff =
            ({ ({ book with seenDiffs := insert diff.identity book.seenDiffs
                  } : ConnectionBook).invalidate with pending := [diff] },
              some change) := by
          rw [ConnectionBook.onDiff, if_neg seen]
          simp [valid, Ne.symm linked]
        rcases result with ⟨change, result⟩
        rw [result]
        refine ⟨.discontinuous valid linked (by rintro ⟨⟩), ?_⟩
        exact InSequence.emptied isNext.le
    · rw [ConnectionBook.onDiff_of_invalid seen valid]
      exact tryBridge_buffered inSequence isNext valid

/-- A snapshot, whatever the state of the book. -/
theorem onSnapshot_outcome
    (inSequence : InSequence sequence book) (snapshot : DepthSnapshot) :
    SnapshotOutcome book snapshot (book.onSnapshot snapshot) ∧
      InSequence sequence (book.onSnapshot snapshot).1 := by
  have sequenced : ConnectionBook.Sequenced
      (book.anchoredBy snapshot).pending := inSequence.sequenced
  have outcome := ConnectionBook.tryBridge_of_sequenced
    (show (book.anchoredBy snapshot).anchorLastUpdateId =
      some snapshot.lastUpdateId from rfl)
    (show (book.anchoredBy snapshot).anchorReceivedNs =
      some snapshot.receivedNs from rfl) sequenced
  show SnapshotOutcome book snapshot (book.anchoredBy snapshot).tryBridge ∧
    InSequence sequence (book.anchoredBy snapshot).tryBridge.1
  generalize (book.anchoredBy snapshot).tryBridge = result at outcome
  cases outcome with
  | waits apart =>
      refine ⟨.waits apart rfl rfl, ?_⟩
      have apartAll := applicable_eq_nil_iff.mp apart
      exact {
        settled := fun valid => by
          show newerThan _ book.pending = []
          rw [inSequence.settled valid]
          rfl
        sequenced := sequenced.filter _
        bounded := fun other member =>
          inSequence.bounded other (List.mem_filter.mp member).1
        apart := fun anchor isAnchor other inBuffer => by
          cases isAnchor
          exact apartAll other (List.mem_filter.mp inBuffer).1
        dated := fun _ _ => rfl }
  | bridges isApplicable linked isValid =>
      refine ⟨.bridges isApplicable linked rfl isValid ?_,
        InSequence.bridged _⟩
      exact lastFinal_eq_of_replay _ _ _
  | @breaks bridge broken rest change isApplicable unlinked member =>
      refine ⟨.breaks isApplicable unlinked (by rintro ⟨⟩), ?_⟩
      apply InSequence.emptied
      have inBuffer : broken ∈ book.pending := by
        have inSuffix : broken ∈ applicable snapshot.lastUpdateId
            book.pending :=
          isApplicable ▸ List.mem_cons_of_mem bridge member
        exact (List.mem_filter.mp
          ((fromBridge_suffix _ _).subset inSuffix)).1
      exact inSequence.bounded broken inBuffer

end Steps

end ShadowDataPlane.Central
