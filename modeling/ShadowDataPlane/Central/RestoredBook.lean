import ShadowDataPlane.Central.MidnightHandover
import ShadowDataPlane.Central.SnapshotBridge
import ShadowDataPlane.Foundation.Transition

/-!
# A book restored from a checkpoint

A checkpoint drops the diffs a book has seen, the order of its levels and the
buffered diffs its anchor contains.  A book which the code can reach buffers
no such diff, so what is read back is the book without its memory
(`Restores.forgets`).  On rows the original has not seen the two books then
report the same changes and show the same levels for ever.

`Lagging` is the simulation relation: alike up to the name of a state other
than `VALID`, with memories which agree on everything still to come.
-/

namespace ShadowDataPlane.Central

open ShadowDataPlane.Foundation

namespace ConnectionBook

/-! ## Books which the code can write -/

/--
What every operation preserves: no level is empty, a `VALID` book buffers
nothing, an anchor has its time, and the anchor contains no buffered diff.
-/
structure Compact (book : ConnectionBook) : Prop where
  bids : Tradable book.bids
  asks : Tradable book.asks
  settled : book.state = .valid → book.pending = []
  untimed : book.anchorLastUpdateId = none → book.anchorReceivedNs = none
  timed : book.anchorReceivedNs = none → book.anchorLastUpdateId = none
  relevant : ∀ anchor, book.anchorLastUpdateId = some anchor →
    ∀ diff ∈ book.pending, anchor ≤ diff.finalUpdateId

theorem compact_fresh (connection : String) :
    Compact { connectionId := connection } := by
  constructor <;> simp [tradable_empty]

theorem compact_invalidate
    (book : ConnectionBook) (pending : List DepthDiff) :
    Compact { book.invalidate with pending := pending } := by
  constructor <;> simp [invalidate, tradable_empty]

/-- An attempt to bridge also drops the diffs which the anchor contains. -/
theorem compact_tryBridge
    {book : ConnectionBook}
    (bids : Tradable book.bids) (asks : Tradable book.asks)
    (settled : book.state = .valid → book.pending = [])
    (untimed : book.anchorLastUpdateId = none → book.anchorReceivedNs = none)
    (timed : book.anchorReceivedNs = none → book.anchorLastUpdateId = none) :
    book.tryBridge.1.Compact := by
  have outcome := tryBridge_outcome book
  generalize book.tryBridge = result at outcome
  cases outcome with
  | unanchored absent =>
      have unanchored : book.anchorLastUpdateId = none := absent.elim id timed
      refine ⟨bids, asks, settled, untimed, timed, ?_⟩
      intro anchor anchored
      simp [unanchored] at anchored
  | waiting anchor received anchored receivedAt apart =>
      refine ⟨bids, asks, ?_, untimed, timed, ?_⟩
      · intro valid
        simp [candidates, sortBySequence, settled valid]
      · intro other otherAnchored diff member
        have same : anchor = other :=
          Option.some.inj (anchored.symm.trans otherAnchored)
        rw [← same]
        exact (mem_candidates_iff.mp member).2
  | bridged anchor received bridge applied anchored receivedAt member bridges
      sameConnection sameSeen linked tradable =>
      rcases tradable bids asks with ⟨bidsApplied, asksApplied⟩
      exact ⟨bidsApplied, asksApplied, fun _ => rfl, fun _ => rfl,
        fun _ => rfl, by simp⟩
  | discontinuous diff member => exact compact_invalidate book [diff]

theorem Compact.onRow
    {book : ConnectionBook} (compact : book.Compact) (row : DepthRow) :
    (book.onRow row).1.Compact := by
  cases row with
  | depthSnapshot snapshot =>
      apply compact_tryBridge
      · exact bookSide_tradable _
      · exact bookSide_tradable _
      · exact compact.settled
      · simp
      · simp
  | depth diff =>
      show (book.onDiff diff).1.Compact
      unfold onDiff
      split
      next => exact compact
      next =>
        dsimp only
        split
        next invalid =>
          apply compact_tryBridge
          · exact compact.bids
          · exact compact.asks
          · exact fun valid => absurd valid invalid
          · exact compact.untimed
          · exact compact.timed
        next valid =>
          rw [ne_eq, not_not] at valid
          split
          next => exact compact_invalidate _ [diff]
          next =>
            exact {
              bids := applyLevels_tradable compact.bids _
              asks := applyLevels_tradable compact.asks _
              settled := compact.settled
              untimed := compact.untimed
              timed := compact.timed
              relevant := compact.relevant }

/--
`restored` is read back from a checkpoint which carries `book` as its `VALID`
authority or as one of its anchored books.
-/
inductive Restores (book restored : ConnectionBook) : Prop where
  | authority {day : L2DayReconstructor} {validThroughNs : Nat}
      {books : Dict String ConnectionBook} {checkpoint : L2CheckpointV1}
      (held : book ∈ books.values)
      (written :
        buildCheckpoint day validThroughNs (some book) books = .ok checkpoint)
      (read : fromCheckpoint checkpoint = .ok restored)
  | anchored {checkpoint : AnchoredBookCheckpointV1}
      (written : anchorCheckpoint book = .ok checkpoint)
      (read : fromAnchorCheckpoint checkpoint = restored)

/-- A book after any rows, gap openings and restarts from its checkpoints. -/
inductive Genuine : ConnectionBook → Prop where
  | fresh (connection : String) : Genuine { connectionId := connection }
  | row {book : ConnectionBook} (genuine : Genuine book) (row : DepthRow) :
      Genuine (book.onRow row).1
  | gap {book : ConnectionBook} (genuine : Genuine book) :
      Genuine book.invalidate
  | restored {book restored : ConnectionBook} (genuine : Genuine book)
      (restores : Restores book restored) : Genuine restored

/-! ## What a checkpoint keeps -/

theorem Compact.fromAnchorCheckpoint
    {book : ConnectionBook} (compact : book.Compact)
    {checkpoint : AnchoredBookCheckpointV1}
    (written : anchorCheckpoint book = .ok checkpoint) :
    ConnectionBook.fromAnchorCheckpoint checkpoint = book.forgetDiffs := by
  unfold anchorCheckpoint at written
  split at written
  next updateId anchor received isUpdateId isAnchor isReceived =>
    split at written
    next unbridged =>
      have pending : (book.pending.filter fun diff =>
          decide (anchor ≤ diff.finalUpdateId)) = book.pending := by
        apply List.filter_eq_self.mpr
        intro diff member
        simpa using compact.relevant anchor isAnchor diff member
      rw [← Except.ok.inj written]
      simp only [ConnectionBook.fromAnchorCheckpoint, forgetDiffs, pending,
        bookSide_checkpointLevels compact.bids,
        bookSide_checkpointLevels compact.asks,
        ← isUpdateId, ← isAnchor, ← isReceived]
    next => simp at written
  next => simp at written

/-- No checkpoint is built from books of which a `VALID` one has an anchor. -/
theorem unanchored_of_buildCheckpoint
    {day : L2DayReconstructor} {validThroughNs : Nat}
    {authority : Option ConnectionBook} {books : Dict String ConnectionBook}
    {checkpoint : L2CheckpointV1} {book : ConnectionBook}
    (held : book ∈ books.values) (valid : book.state = .valid)
    (written :
      buildCheckpoint day validThroughNs authority books = .ok checkpoint) :
    ¬ book.CarriesAnchor := by
  intro carries
  rw [buildCheckpoint, bind_eq_ok_iff] at written
  rcases written with ⟨anchored, mapped, _⟩
  have isCandidate : book ∈ books.values.filter fun candidate =>
      candidate.CarriesAnchor :=
    List.mem_filter.mpr ⟨held, by simpa using carries⟩
  rcases exists_result_of_mem_mapM mapped isCandidate with ⟨converted, isConverted⟩
  unfold anchorCheckpoint at isConverted
  split at isConverted
  · rw [dif_neg (fun unbridged => unbridged.1 valid)] at isConverted
    simp at isConverted
  · simp at isConverted

/-- A book comes back from its checkpoint without its memory. -/
theorem Restores.forgets
    {book restored : ConnectionBook} (compact : book.Compact)
    (restores : Restores book restored) : restored = book.forgetDiffs := by
  cases restores with
  | anchored written read =>
      rw [← read]
      exact compact.fromAnchorCheckpoint written
  | @authority day validThroughNs books checkpoint held written read =>
      have refused := fun valid =>
        unanchored_of_buildCheckpoint held valid written
      rw [buildCheckpoint, bind_eq_ok_iff] at written
      rcases written with ⟨anchored, _, finished⟩
      dsimp only at finished
      split at finished
      next carried =>
        have isCheckpoint := Except.ok.inj finished
        rw [← isCheckpoint] at read
        have isRestored := Except.ok.inj read
        have unanchored : book.anchorLastUpdateId = none := by
          by_contra anchored
          exact refused carried.1 ⟨anchored,
            fun received => anchored (compact.timed received),
            carried.2.2.1, carried.2.2.2⟩
        rw [← isRestored]
        simp only [validCheckpoint, forgetDiffs,
          bookSide_checkpointLevels compact.bids,
          bookSide_checkpointLevels compact.asks, carried.1,
          compact.settled carried.1, unanchored, compact.untimed unanchored]
      next =>
        rw [← Except.ok.inj finished] at read
        simp [fromCheckpoint, unanchoredCheckpoint] at read

theorem Genuine.compact
    {book : ConnectionBook} (genuine : Genuine book) : book.Compact := by
  induction genuine with
  | fresh connection => exact compact_fresh connection
  | row genuine row induction => exact induction.onRow row
  | gap genuine induction => exact compact_invalidate _ []
  | restored genuine restores induction =>
      rw [restores.forgets induction]
      exact {
        bids := induction.bids
        asks := induction.asks
        settled := induction.settled
        untimed := induction.untimed
        timed := induction.timed
        relevant := induction.relevant }

/-! ## The simulation -/

/-- What a delivery shows of a book. -/
structure BookView where
  change : Option StateChange
  bids : Levels
  asks : Levels
  previousUpdateId : Option Int
deriving DecidableEq

/-- Deliver one row and look at the book after it. -/
def observe (book : ConnectionBook) (row : DepthRow) :
    ConnectionBook × BookView :=
  let delivered := book.onRow row
  (delivered.1,
    { change := delivered.2
      bids := checkpointLevels delivered.1.bids
      asks := checkpointLevels delivered.1.asks
      previousUpdateId := delivered.1.previousUpdateId })

/-- No row is a diff which the book has seen. -/
def Unseen (seen : Finset DiffIdentity) (rows : List DepthRow) : Prop :=
  ∀ row ∈ rows, ∀ identity ∈ row.identity?, identity ∉ seen

instance (seen : Finset DiffIdentity) (rows : List DepthRow) :
    Decidable (Unseen seen rows) :=
  inferInstanceAs (Decidable (∀ row ∈ _, _))

/--
The right book is like the left one, and has seen the same diffs but for some
which do not come again.
-/
structure Lagging (rows : List DepthRow) (left right : ConnectionBook) :
    Prop where
  same : SameBook left right
  memory : ∃ older,
    left.seenDiffs = older ∪ right.seenDiffs ∧ Unseen older rows

theorem Lagging.mem_iff
    {left right : ConnectionBook} {diff : DepthDiff} {rows : List DepthRow}
    (lagging : Lagging (.depth diff :: rows) left right) :
    diff.identity ∈ left.seenDiffs ↔ diff.identity ∈ right.seenDiffs := by
  rcases lagging.memory with ⟨older, seen, unseen⟩
  have fresh : diff.identity ∉ older :=
    unseen (.depth diff) List.mem_cons_self diff.identity rfl
  rw [seen, Finset.mem_union]
  exact or_iff_right fresh

theorem SameBook.view
    {left right : ConnectionBook} {row : DepthRow}
    (same : SameBook (left.onRow row).1 (right.onRow row).1)
    (changes : (left.onRow row).2 = (right.onRow row).2) :
    (left.observe row).2 = (right.observe row).2 := by
  simp only [observe, changes]
  rw [same.equal]
  rfl

theorem Lagging.observe
    {left right : ConnectionBook} {row : DepthRow} {rows : List DepthRow}
    (lagging : Lagging (row :: rows) left right) :
    (left.observe row).2 = (right.observe row).2 ∧
      Lagging rows (left.observe row).1 (right.observe row).1 := by
  rcases lagging.memory with ⟨older, seen, unseen⟩
  have unseenLater : Unseen older rows :=
    fun other member => unseen other (List.mem_cons_of_mem _ member)
  cases row with
  | depth diff =>
      have step := lagging.same.onDiff diff lagging.mem_iff
      refine ⟨SameBook.view step.books step.changes, step.books, older, ?_,
        unseenLater⟩
      show (left.onDiff diff).1.seenDiffs =
        older ∪ (right.onDiff diff).1.seenDiffs
      rw [step.leftSeen, step.rightSeen, seen, Finset.union_insert]
  | depthSnapshot snapshot =>
      have step := lagging.same.onSnapshot snapshot
      refine ⟨SameBook.view step.books step.changes, step.books, older, ?_,
        unseenLater⟩
      show (left.onSnapshot snapshot).1.seenDiffs =
        older ∪ (right.onSnapshot snapshot).1.seenDiffs
      rw [step.leftSeen, step.rightSeen, seen]

theorem lagging_forgetDiffs
    {book : ConnectionBook} {rows : List DepthRow}
    (unseen : Unseen book.seenDiffs rows) :
    Lagging rows book book.forgetDiffs := by
  constructor
  · exact ⟨rfl, Iff.rfl⟩
  · exact ⟨book.seenDiffs, (Finset.union_empty _).symm, unseen⟩

/-- A restored book and its original cannot be told apart by unseen rows. -/
theorem restored_outputs_eq
    {book restored : ConnectionBook} (genuine : Genuine book)
    (restores : Restores book restored) {rows : List DepthRow}
    (unseen : Unseen book.seenDiffs rows) :
    outputs observe book rows = outputs observe restored rows := by
  rw [restores.forgets genuine.compact]
  exact outputs_eq_of_simulation
    (fun _ _ _ _ lagging => lagging.observe) (lagging_forgetDiffs unseen)

/-! ## A book which waits for its bridge over midnight -/

/-- The book has dropped the diff of 98 and still waits for one of 100. -/
def waitingRows : List DepthRow :=
  [.depth (sampleDiff 1 97 98 96 [(99, 2)]),
    .depthSnapshot
      { connectionId := "a"
        receiveSeq := 2
        receivedNs := 200
        lastUpdateId := 100
        bids := [(99, 1), (98, 0)]
        asks := [(102, 1), (101, 4)] }]

def waitingBook : ConnectionBook :=
  (({ connectionId := "a" } : ConnectionBook).deliver waitingRows).1

/-- The diff which bridges, its successor, and one which names another. -/
def unseenRows : List DepthRow :=
  [.depth (sampleDiff 3 99 101 98 [(99, 3)]),
    .depth (sampleDiff 4 102 103 101 [(97, 1)]),
    .depth (sampleDiff 5 106 107 105 [])]

theorem waitingBook_genuine : Genuine waitingBook :=
  ((Genuine.fresh "a").row _).row _

theorem restored_outputs_eq_waiting :
    ∃ checkpoint, anchorCheckpoint waitingBook = .ok checkpoint ∧
      (outputs observe waitingBook unseenRows).map
          (fun view => view.change.map StateChange.state) =
        [some .valid, none, some .gapped] ∧
      outputs observe waitingBook unseenRows =
        outputs observe (fromAnchorCheckpoint checkpoint) unseenRows := by
  cases written : anchorCheckpoint waitingBook with
  | error problem =>
      have succeeds : (anchorCheckpoint waitingBook).isOk := by
        decide +kernel
      simp [written, Except.isOk, Except.toBool] at succeeds
  | ok checkpoint =>
      refine ⟨checkpoint, rfl, by decide +kernel, ?_⟩
      exact restored_outputs_eq waitingBook_genuine (.anchored written rfl)
        (by decide +kernel)

end ConnectionBook

end ShadowDataPlane.Central
