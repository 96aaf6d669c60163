import ShadowDataPlane.Central.L2Checkpoint
import ShadowDataPlane.Central.SnapshotBridge

/-!
# A snapshot which a `VALID` book does not need

A snapshot replaces the levels and the update ID of a book, also of one which
is `VALID` and stays so.  Such a book checks that a diff names its predecessor
and knows nothing of a bridge, so the next diff of the chain fits only if the
snapshot is of the very update ID which the book had reached.

`ChainBook` is the book of a chain as of every update ID.  A diff is truthful
about it when it leads from every ID in its range to its final one, and a
snapshot when it shows the book as of its own.
-/

namespace ShadowDataPlane.Central

open ShadowDataPlane.Foundation

/-! ## The chain's book -/

/-- The two sides as of every update ID. -/
structure ChainBook where
  bids : Int → BookSide
  asks : Int → BookSide

/-- The levels of a diff lead from inside its range to its end. -/
structure ChainBook.Tells (chain : ChainBook) (diff : DepthDiff) : Prop where
  bids : ∀ id, diff.previousFinalUpdateId ≤ id → id < diff.finalUpdateId →
    applyLevels (chain.bids id) diff.bids = chain.bids diff.finalUpdateId
  asks : ∀ id, diff.previousFinalUpdateId ≤ id → id < diff.finalUpdateId →
    applyLevels (chain.asks id) diff.asks = chain.asks diff.finalUpdateId

/-- A truthful snapshot. -/
structure ChainBook.Shows (chain : ChainBook) (snapshot : DepthSnapshot) :
    Prop where
  bids : bookSide snapshot.bids = chain.bids snapshot.lastUpdateId
  asks : bookSide snapshot.asks = chain.asks snapshot.lastUpdateId

/-- Diffs which name their predecessor, from an update ID on. -/
def LinkedFrom : Int → List DepthDiff → Prop
  | _, [] => True
  | previous, diff :: rest =>
      diff.previousFinalUpdateId = previous ∧ previous < diff.finalUpdateId ∧
        LinkedFrom diff.finalUpdateId rest

instance decidableLinkedFrom :
    (previous : Int) → (diffs : List DepthDiff) →
      Decidable (LinkedFrom previous diffs)
  | _, [] => inferInstanceAs (Decidable True)
  | _, diff :: rest =>
      have := decidableLinkedFrom diff.finalUpdateId rest
      inferInstanceAs (Decidable (_ ∧ _ ∧ _))

/-- The update ID which diffs lead to. -/
def lastId : Int → List DepthDiff → Int
  | previous, [] => previous
  | _, diff :: rest => lastId diff.finalUpdateId rest

theorem LinkedFrom.lt_final
    {previous : Int} {diffs : List DepthDiff}
    (linked : LinkedFrom previous diffs) :
    ∀ diff ∈ diffs, previous < diff.finalUpdateId := by
  induction diffs generalizing previous with
  | nil => exact fun diff member => absurd member List.not_mem_nil
  | cons head rest induction =>
      rcases linked with ⟨-, grows, restLinked⟩
      intro diff member
      rcases List.mem_cons.mp member with rfl | inRest
      · exact grows
      · exact grows.trans (induction restLinked diff inRest)

theorem LinkedFrom.le_previous
    {previous : Int} {diffs : List DepthDiff}
    (linked : LinkedFrom previous diffs) :
    ∀ diff ∈ diffs, previous ≤ diff.previousFinalUpdateId := by
  induction diffs generalizing previous with
  | nil => exact fun diff member => absurd member List.not_mem_nil
  | cons head rest induction =>
      rcases linked with ⟨link, grows, restLinked⟩
      intro diff member
      rcases List.mem_cons.mp member with rfl | inRest
      · exact link.ge
      · exact grows.le.trans (induction restLinked diff inRest)

/-- Levels on top of others, all diffs up to an update ID applied. -/
def ChainBook.ofDiffs (bids asks : BookSide) (diffs : List DepthDiff) :
    ChainBook where
  bids id := applyLevels bids
    ((diffs.filter fun diff => diff.finalUpdateId ≤ id).flatMap DepthDiff.bids)
  asks id := applyLevels asks
    ((diffs.filter fun diff => diff.finalUpdateId ≤ id).flatMap DepthDiff.asks)

theorem filter_final_of_lt
    {previous id : Int} {diffs : List DepthDiff}
    (linked : LinkedFrom previous diffs) (early : id ≤ previous) :
    diffs.filter (fun diff => diff.finalUpdateId ≤ id) = [] := by
  apply List.filter_eq_nil_iff.mpr
  intro diff member
  have grows := linked.lt_final diff member
  simp only [decide_eq_true_eq, not_le]
  exact early.trans_lt grows

/-- A linked diff is the only one between an ID in its range and its end. -/
theorem filter_final_step
    {previous id : Int} {diffs : List DepthDiff} {diff : DepthDiff}
    (linked : LinkedFrom previous diffs) (member : diff ∈ diffs)
    (atLeast : diff.previousFinalUpdateId ≤ id) (below : id < diff.finalUpdateId) :
    diffs.filter (fun other => other.finalUpdateId ≤ diff.finalUpdateId) =
      diffs.filter (fun other => other.finalUpdateId ≤ id) ++ [diff] := by
  induction diffs generalizing previous with
  | nil => exact absurd member List.not_mem_nil
  | cons head rest induction =>
      rcases linked with ⟨link, grows, restLinked⟩
      rcases List.mem_cons.mp member with rfl | inRest
      · have late : ¬ diff.finalUpdateId ≤ id := not_le.mpr below
        rw [List.filter_cons_of_pos (by simp),
          filter_final_of_lt restLinked le_rfl,
          List.filter_cons_of_neg (by simpa using late),
          filter_final_of_lt restLinked below.le]
        rfl
      · have passed : head.finalUpdateId ≤ id :=
          (restLinked.le_previous diff inRest).trans atLeast
        rw [List.filter_cons_of_pos (by simpa using passed.trans below.le),
          List.filter_cons_of_pos (by simpa using passed),
          induction restLinked inRest]
        rfl

/-- The diffs of a chain tell the truth about its own book. -/
theorem ChainBook.tells_ofDiffs
    {previous : Int} {diffs : List DepthDiff} (bids asks : BookSide)
    (linked : LinkedFrom previous diffs) :
    ∀ diff ∈ diffs, (ChainBook.ofDiffs bids asks diffs).Tells diff := by
  intro diff member
  constructor
  · intro id atLeast below
    simp only [ChainBook.ofDiffs,
      filter_final_step linked member atLeast below]
    simp [applyLevels, List.flatMap_append, List.foldl_append]
  · intro id atLeast below
    simp only [ChainBook.ofDiffs,
      filter_final_step linked member atLeast below]
    simp [applyLevels, List.flatMap_append, List.foldl_append]

/-! ## Books which the code can reach -/

/-- A book which starts fresh or from a checkpoint, after any rows and gaps. -/
inductive Reached : ConnectionBook → Prop where
  | fresh (connection : String) : Reached { connectionId := connection }
  | restored {checkpoint : L2CheckpointV1} {book : ConnectionBook}
      (read : ConnectionBook.fromCheckpoint checkpoint = .ok book) :
      Reached book
  | anchored (checkpoint : AnchoredBookCheckpointV1) :
      Reached (ConnectionBook.fromAnchorCheckpoint checkpoint)
  | row {book : ConnectionBook} (reached : Reached book) (row : DepthRow) :
      Reached (book.onRow row).1
  | gap {book : ConnectionBook} (reached : Reached book) :
      Reached book.invalidate

theorem Reached.deliver
    {book : ConnectionBook} (reached : Reached book) (rows : List DepthRow) :
    Reached (book.deliver rows).1 := by
  induction rows generalizing book with
  | nil => exact reached
  | cons row rest induction => exact induction (reached.row row)

theorem tryBridge_pending_of_valid
    {book : ConnectionBook}
    (settled : book.state = .valid → book.pending = [])
    (valid : book.tryBridge.1.state = .valid) :
    book.tryBridge.1.pending = [] := by
  have outcome := ConnectionBook.tryBridge_outcome book
  generalize book.tryBridge = result at outcome valid
  cases outcome with
  | unanchored absent => exact settled valid
  | waiting anchor received anchored receivedAt apart =>
      simp [ConnectionBook.candidates, ConnectionBook.sortBySequence,
        settled valid]
  | bridged => rfl
  | discontinuous diff member =>
      simp [ConnectionBook.invalidate] at valid

/-- A `VALID` book buffers nothing. -/
theorem Reached.settled
    {book : ConnectionBook} (reached : Reached book) :
    book.state = .valid → book.pending = [] := by
  induction reached with
  | fresh connection => exact fun _ => rfl
  | restored read =>
      intro valid
      simp only [ConnectionBook.fromCheckpoint] at read
      split at read
      · cases read
        rfl
      · cases read
  | anchored checkpoint =>
      exact fun valid => absurd valid checkpoint.unbridged.1
  | gap reached induction => exact fun _ => rfl
  | @row book reached row induction =>
      cases row with
      | depthSnapshot snapshot => exact tryBridge_pending_of_valid induction
      | depth diff =>
          rw [ConnectionBook.onRow]
          by_cases repeated : diff.identity ∈ book.seenDiffs
          · rw [ConnectionBook.onDiff, if_pos repeated]
            exact induction
          · by_cases valid : book.state = .valid
            · rw [ConnectionBook.onDiff, if_neg repeated]
              simp only [ne_eq, valid, not_true_eq_false, if_false]
              split
              · simp [ConnectionBook.invalidate]
              · exact fun _ => induction valid
            · rw [ConnectionBook.onDiff_of_invalid repeated valid]
              exact tryBridge_pending_of_valid fun isValid =>
                absurd isValid valid

/-! ## The rest of the chain -/

/-- A `VALID` book which shows its chain's book, with the rest of the chain. -/
structure ValidOn (chain : ChainBook) (previous : Int)
    (remaining : List DepthDiff) (book : ConnectionBook) : Prop where
  valid : book.state = .valid
  updated : book.previousUpdateId = some previous
  bids : book.bids = chain.bids previous
  asks : book.asks = chain.asks previous
  linked : LinkedFrom previous remaining
  tells : ∀ diff ∈ remaining, chain.Tells diff
  unseen : ∀ diff ∈ remaining, diff.identity ∉ book.seenDiffs

/-- A `VALID` book with the chain's levels, and no gap on the way to it. -/
structure Unharmed (chain : ChainBook) (last : Int)
    (result : ConnectionBook × List StateChange) : Prop where
  valid : result.1.state = .valid
  quiet : ∀ change ∈ result.2, change.state ≠ .gapped
  bids : result.1.bids = chain.bids last
  asks : result.1.asks = chain.asks last

/-- The next diff of the chain leads to its book. -/
theorem ValidOn.next
    {chain : ChainBook} {previous : Int} {diff : DepthDiff}
    {rest : List DepthDiff} {book : ConnectionBook}
    (validOn : ValidOn chain previous (diff :: rest) book) :
    (book.onDiff diff).2 = none ∧
      ValidOn chain diff.finalUpdateId rest (book.onDiff diff).1 := by
  rcases validOn.linked with ⟨link, grows, restLinked⟩
  have tells := validOn.tells diff List.mem_cons_self
  have applied := ConnectionBook.onDiff_of_linked
    (validOn.unseen diff List.mem_cons_self) validOn.valid
    (by rw [validOn.updated, link])
  rw [applied]
  refine ⟨rfl, ?_⟩
  constructor
  · exact validOn.valid
  · rfl
  · show applyLevels book.bids diff.bids = _
    rw [validOn.bids]
    exact tells.bids previous link.le grows
  · show applyLevels book.asks diff.asks = _
    rw [validOn.asks]
    exact tells.asks previous link.le grows
  · exact restLinked
  · exact fun other inRest => validOn.tells other (List.mem_cons_of_mem _ inRest)
  · intro other inRest
    have later := restLinked.lt_final other inRest
    simp only [ConnectionBook.apply, Finset.mem_insert, not_or]
    constructor
    · intro same
      have sameFinal := congrArg DiffIdentity.finalUpdateId same
      exact absurd sameFinal later.ne'
    · exact validOn.unseen other (List.mem_cons_of_mem _ inRest)

/-- A book on its chain stays there. -/
theorem ValidOn.unharmed
    {chain : ChainBook} {previous : Int} {remaining : List DepthDiff}
    {book : ConnectionBook}
    (validOn : ValidOn chain previous remaining book) :
    Unharmed chain (lastId previous remaining)
      (book.deliver (remaining.map DepthRow.depth)) := by
  induction remaining generalizing book previous with
  | nil =>
      exact ⟨validOn.valid, fun _ member => absurd member List.not_mem_nil,
        validOn.bids, validOn.asks⟩
  | cons diff rest induction =>
      rcases validOn.next with ⟨quiet, next⟩
      have rest := induction next
      rw [List.map_cons, ConnectionBook.deliver, ConnectionBook.onRow, quiet]
      exact rest

/-! ## The property -/

/-- The book with what a snapshot replaces in it. -/
def snapshotBook (book : ConnectionBook) (snapshot : DepthSnapshot) :
    ConnectionBook :=
  { book with
    bids := bookSide snapshot.bids
    asks := bookSide snapshot.asks
    previousUpdateId := some snapshot.lastUpdateId
    anchorLastUpdateId := some snapshot.lastUpdateId
    anchorReceivedNs := some snapshot.receivedNs }

/-- A snapshot bridges to nothing when nothing is buffered. -/
theorem onSnapshot_of_settled
    {book : ConnectionBook} (settled : book.pending = [])
    (snapshot : DepthSnapshot) :
    book.onSnapshot snapshot = (snapshotBook book snapshot, none) := by
  simp [ConnectionBook.onSnapshot, ConnectionBook.tryBridge, snapshotBook,
    settled, ConnectionBook.candidates, ConnectionBook.sortBySequence]

/--
A truthful snapshot does a `VALID` book no harm exactly if it is of the update
ID which the book had reached, or if no diff comes after it and the chain's book
is the same as of both.
-/
theorem redundant_snapshot_harmless_iff
    {chain : ChainBook} {previous : Int} {remaining : List DepthDiff}
    {book : ConnectionBook} {snapshot : DepthSnapshot}
    (reached : Reached book) (validOn : ValidOn chain previous remaining book)
    (shows : chain.Shows snapshot) :
    Unharmed chain (lastId previous remaining)
        (book.deliver
          (.depthSnapshot snapshot :: remaining.map DepthRow.depth)) ↔
      snapshot.lastUpdateId = previous ∨
        (remaining = [] ∧
          chain.bids snapshot.lastUpdateId = chain.bids previous ∧
            chain.asks snapshot.lastUpdateId = chain.asks previous) := by
  have replaced :=
    onSnapshot_of_settled (reached.settled validOn.valid) snapshot
  rw [ConnectionBook.deliver, ConnectionBook.onRow, replaced]
  constructor
  · intro unharmed
    cases remaining with
    | nil =>
        right
        refine ⟨rfl, ?_, ?_⟩
        · exact (shows.bids.symm.trans unharmed.bids)
        · exact (shows.asks.symm.trans unharmed.asks)
    | cons diff rest =>
        left
        -- Any other update ID breaks the link of the very next diff.
        by_contra apart
        have unlinked : some snapshot.lastUpdateId ≠
            some diff.previousFinalUpdateId := by
          rw [validOn.linked.1]
          exact fun same => apart (Option.some.inj same)
        have unseen : diff.identity ∉ (snapshotBook book snapshot).seenDiffs :=
          validOn.unseen diff List.mem_cons_self
        have valid : (snapshotBook book snapshot).state = .valid :=
          validOn.valid
        have gapped :=
          ConnectionBook.onDiff_of_unlinked unseen valid unlinked
        rcases gapped with ⟨change, produced, isGapped⟩
        apply unharmed.quiet change _ isGapped
        simp [ConnectionBook.deliver, ConnectionBook.onRow, produced]
  · rintro (same | ⟨rfl, sameBids, sameAsks⟩)
    · have stillOn : ValidOn chain previous remaining
          (snapshotBook book snapshot) := by
        constructor
        · exact validOn.valid
        · exact congrArg some same
        · exact shows.bids.trans (congrArg chain.bids same)
        · exact shows.asks.trans (congrArg chain.asks same)
        · exact validOn.linked
        · exact validOn.tells
        · exact validOn.unseen
      exact stillOn.unharmed
    · exact ⟨validOn.valid, fun _ member => absurd member List.not_mem_nil,
        shows.bids.trans sameBids, shows.asks.trans sameAsks⟩

/-! ## A snapshot of the ID before, and one of the ID itself -/

def firstSnapshot : DepthSnapshot where
  connectionId := "a"
  receiveSeq := 1
  receivedNs := 100
  lastUpdateId := 100
  bids := [(99, 1)]
  asks := [(102, 1)]

def laterDiff : DepthDiff := sampleDiff 4 102 103 101 [(98, 2)]

def linkedDiffs : List DepthDiff := [sampleDiff 2 100 101 99 [(99, 3)], laterDiff]

/-- The book is `VALID` at 101. -/
def validBook : ConnectionBook :=
  (({ connectionId := "a" } : ConnectionBook).deliver
    [.depthSnapshot firstSnapshot,
      .depth (sampleDiff 2 100 101 99 [(99, 3)])]).1

def linkedBook : ChainBook :=
  .ofDiffs (bookSide firstSnapshot.bids) (bookSide firstSnapshot.asks)
    linkedDiffs

theorem validBook_reached : Reached validBook :=
  (Reached.fresh "a").deliver _

theorem validBook_validOn : ValidOn linkedBook 101 [laterDiff] validBook where
  valid := by decide +kernel
  updated := by decide +kernel
  bids := by decide +kernel
  asks := by decide +kernel
  linked := by decide
  tells diff member := by
    have linked : LinkedFrom 99 linkedDiffs := by decide
    exact ChainBook.tells_ofDiffs _ _ linked diff
      (List.mem_cons_of_mem _ member)
  unseen := by decide +kernel

/-- The same update ID again, with the levels which the book has then. -/
def equalSnapshot : DepthSnapshot where
  connectionId := "a"
  receiveSeq := 3
  receivedNs := 300
  lastUpdateId := 101
  bids := [(99, 3)]
  asks := [(101, 1), (102, 1)]

theorem redundant_snapshot_harmless_equal :
    Unharmed linkedBook (lastId 101 [laterDiff])
      (validBook.deliver
        (.depthSnapshot equalSnapshot :: [laterDiff].map DepthRow.depth)) := by
  have shows : linkedBook.Shows equalSnapshot :=
    ⟨by decide +kernel, by decide +kernel⟩
  exact (redundant_snapshot_harmless_iff validBook_reached validBook_validOn
    shows).mpr (Or.inl rfl)

/-- The snapshot of 100, delivered again at 101, unlinks the diff after it. -/
theorem redundant_snapshot_gaps :
    ¬ ∀ (chain : ChainBook) (previous : Int) (remaining : List DepthDiff)
        (book : ConnectionBook) (snapshot : DepthSnapshot),
      Reached book → ValidOn chain previous remaining book →
        chain.Shows snapshot →
          Unharmed chain (lastId previous remaining)
            (book.deliver
              (.depthSnapshot snapshot :: remaining.map DepthRow.depth)) := by
  intro harmless
  have shows : linkedBook.Shows firstSnapshot :=
    ⟨by decide +kernel, by decide +kernel⟩
  have unharmed := harmless linkedBook 101 [laterDiff] validBook firstSnapshot
    validBook_reached validBook_validOn shows
  have gapped : (validBook.deliver
      (.depthSnapshot firstSnapshot ::
        [laterDiff].map DepthRow.depth)).1.state = .gapped := by
    decide +kernel
  rw [unharmed.valid] at gapped
  cases gapped

end ShadowDataPlane.Central
