import Mathlib.Data.List.Chain
import ShadowDataPlane.Central.BookSimulation

/-!
# A snapshot bridges wherever it arrives

A fresh book buffers its diffs until a snapshot and the diff which contains the
snapshot's update ID are both there.  The snapshot may come before, among or
after the diffs, and diffs may be delivered again: `bridgedBook` gives the book
as a function of the diffs delivered so far and of the snapshot, and every row
leads from one such book to the next.

Of the diffs only the sequence, the links and the growth of the final update
IDs matter; the first update IDs decide which diff bridges and nothing else.
-/

namespace ShadowDataPlane.Central

open ShadowDataPlane.Foundation

/-! ## Quantities -/

/-- The quantity which the levels name last for a price. -/
def lastQuantity (levels : Levels) (price : Decimal) : Option Decimal :=
  (levels.reverse.find? fun level => level.1 = price).map Prod.snd

/-- A quantity, or nothing where it is zero. -/
def tradableQuantity (quantity : Decimal) : Option Decimal :=
  if quantity = 0 then none else some quantity

theorem lastQuantity_concat
    (levels : Levels) (level : Decimal × Decimal) (price : Decimal) :
    lastQuantity (levels ++ [level]) price =
      if level.1 = price then some level.2 else lastQuantity levels price := by
  rw [lastQuantity, List.reverse_concat, List.find?_cons]
  by_cases same : level.1 = price
  · simp [same]
  · simp [same, lastQuantity]

theorem applyLevels_concat
    (side : BookSide) (levels : Levels) (level : Decimal × Decimal) :
    applyLevels side (levels ++ [level]) =
      applyLevel (applyLevels side levels) level :=
  List.foldl_concat applyLevel side level levels

theorem bookSide_concat (levels : Levels) (level : Decimal × Decimal) :
    bookSide (levels ++ [level]) =
      (bookSide levels).insertIf (fun level => level.2 ≠ 0) level :=
  List.foldl_concat _ _ level levels

/-- The last update of a price wins, and a zero quantity deletes it. -/
theorem get?_applyLevels
    (side : BookSide) (levels : Levels) (price : Decimal) :
    (applyLevels side levels).get? price =
      match lastQuantity levels price with
      | some quantity => tradableQuantity quantity
      | none => side.get? price := by
  induction levels using List.reverseRecOn with
  | nil => rfl
  | append_singleton earlier level induction =>
      rw [applyLevels_concat, lastQuantity_concat, applyLevel]
      by_cases zero : level.2 = 0
      · rw [if_pos zero, OrderedMap.get?_erase]
        by_cases same : level.1 = price
        · simp [same, zero, tradableQuantity]
        · simpa [same] using induction
      · rw [if_neg zero, OrderedMap.get?_insert]
        by_cases same : level.1 = price
        · simp [same, zero, tradableQuantity]
        · simpa [same] using induction

/-- A full list of levels names the quantity of a price last, zeros aside. -/
theorem get?_bookSide (levels : Levels) (price : Decimal) :
    (bookSide levels).get? price =
      lastQuantity (levels.filter fun level => level.2 ≠ 0) price := by
  induction levels using List.reverseRecOn with
  | nil => rfl
  | append_singleton earlier level induction =>
      rw [bookSide_concat, OrderedMap.insertIf, List.filter_append]
      by_cases zero : level.2 = 0
      · simpa [zero] using induction
      · rw [if_pos (by simpa using zero), OrderedMap.get?_insert]
        simp only [ne_eq, zero, not_false_eq_true, decide_true,
          List.filter_cons_of_pos, List.filter_nil]
        rw [lastQuantity_concat, induction]

/-- The quantity of a price: its last update, or what the full list says. -/
def quantityAfter (levels updates : Levels) (price : Decimal) :
    Option Decimal :=
  match lastQuantity updates price with
  | some quantity => tradableQuantity quantity
  | none => lastQuantity (levels.filter fun level => level.2 ≠ 0) price

theorem get?_applyLevels_bookSide
    (levels updates : Levels) (price : Decimal) :
    (applyLevels (bookSide levels) updates).get? price =
      quantityAfter levels updates price := by
  rw [get?_applyLevels, get?_bookSide]
  rfl

/-! ## Deliveries -/

/-- Deliver rows one after another, and collect the changes. -/
def ConnectionBook.deliver (book : ConnectionBook) :
    List DepthRow → ConnectionBook × List StateChange
  | [] => (book, [])
  | row :: rest =>
      let delivered := (book.onRow row).1.deliver rest
      (delivered.1, (book.onRow row).2.toList ++ delivered.2)

/-- The diffs of the rows, each where it is delivered for the first time. -/
def firstDeliveries : Finset DiffIdentity → List DepthRow → List DepthDiff
  | _, [] => []
  | seen, .depth diff :: rest =>
      if diff.identity ∈ seen then firstDeliveries seen rest
      else diff :: firstDeliveries (insert diff.identity seen) rest
  | seen, .depthSnapshot _ :: rest => firstDeliveries seen rest

/-- The snapshots among the rows. -/
def snapshotsOf (rows : List DepthRow) : List DepthSnapshot :=
  rows.filterMap DepthRow.snapshot?

/-- Diffs in sequence whose update IDs grow and which name their predecessor. -/
structure DiffChain (diffs : List DepthDiff) : Prop where
  sequenced : diffs.Pairwise fun left right =>
    left.receiveSeq < right.receiveSeq
  increasing : diffs.Pairwise fun left right =>
    left.finalUpdateId < right.finalUpdateId
  linked : diffs.IsChain fun left right =>
    right.previousFinalUpdateId = left.finalUpdateId

/-- The diffs from the first one on which contains an update ID. -/
def fromBridge (diffs : List DepthDiff) (lastUpdateId : Int) :
    List DepthDiff :=
  diffs.dropWhile fun diff => ¬ diff.Bridges lastUpdateId

def identities (diffs : List DepthDiff) : Finset DiffIdentity :=
  (diffs.map DepthDiff.identity).toFinset

theorem identities_concat (diffs : List DepthDiff) (diff : DepthDiff) :
    identities (diffs ++ [diff]) = insert diff.identity (identities diffs) := by
  ext identity
  simp [identities]

/-! ## Replay -/

/-- The final update ID of the last diff, if there is one. -/
def lastFinal (previous : Option Int) (diffs : List DepthDiff) : Option Int :=
  match diffs.getLast? with
  | some last => some last.finalUpdateId
  | none => previous

namespace ConnectionBook

/-- Apply diffs without looking at what they are linked to. -/
def replay (book : ConnectionBook) (diffs : List DepthDiff) :
    ConnectionBook :=
  diffs.foldl apply book

/-- What a bridged book forgets of its anchor and its buffer. -/
def settle (book : ConnectionBook) : ConnectionBook :=
  { book with
    pending := []
    state := .valid
    anchorLastUpdateId := none
    anchorReceivedNs := none }

theorem replay_eq (book : ConnectionBook) (diffs : List DepthDiff) :
    book.replay diffs =
      { book with
        bids := applyLevels book.bids (diffs.flatMap DepthDiff.bids)
        asks := applyLevels book.asks (diffs.flatMap DepthDiff.asks)
        previousUpdateId := lastFinal book.previousUpdateId diffs } := by
  induction diffs using List.reverseRecOn with
  | nil => rfl
  | append_singleton earlier diff induction =>
      rw [replay, List.foldl_concat, ← replay, induction]
      simp [apply, lastFinal, applyLevels, List.flatMap_append]

/-- Linked diffs are all applied. -/
theorem applyBuffered_of_linked
    {diffs : List DepthDiff} {previous : DepthDiff} {book : ConnectionBook}
    (linked : (previous :: diffs).IsChain fun left right =>
      right.previousFinalUpdateId = left.finalUpdateId)
    (reached : book.previousUpdateId = some previous.finalUpdateId) :
    book.applyBuffered diffs = (book.replay diffs, none) := by
  induction diffs generalizing book previous with
  | nil => rfl
  | cons diff rest induction =>
      rcases List.isChain_cons_cons.mp linked with ⟨link, restLinked⟩
      rw [applyBuffered, if_neg (by rw [reached, link]; exact not_not.mpr rfl),
        induction restLinked rfl]
      rfl

end ConnectionBook

/-! ## What a diff does to a book -/

namespace ConnectionBook

variable {book : ConnectionBook} {diff : DepthDiff}

/-- A book which is not `VALID` buffers a new diff. -/
theorem onDiff_of_invalid
    (new : diff.identity ∉ book.seenDiffs) (invalid : book.state ≠ .valid) :
    book.onDiff diff =
      { book with
        seenDiffs := insert diff.identity book.seenDiffs
        pending := book.pending ++ [diff] }.tryBridge := by
  rw [onDiff, if_neg new]
  exact if_pos invalid

/-- A `VALID` book applies a new diff which names its predecessor. -/
theorem onDiff_of_linked
    (new : diff.identity ∉ book.seenDiffs) (valid : book.state = .valid)
    (linked : book.previousUpdateId = some diff.previousFinalUpdateId) :
    book.onDiff diff =
      ({ book with
        seenDiffs := insert diff.identity book.seenDiffs }.apply diff, none) := by
  rw [onDiff, if_neg new]
  simp [valid, linked]

/-- A `VALID` book is left without levels by a new diff which does not. -/
theorem onDiff_of_unlinked
    (new : diff.identity ∉ book.seenDiffs) (valid : book.state = .valid)
    (unlinked : book.previousUpdateId ≠ some diff.previousFinalUpdateId) :
    ∃ change, (book.onDiff diff).2 = some change ∧ change.state = .gapped := by
  rw [onDiff, if_neg new]
  simp [valid, Ne.symm unlinked]

end ConnectionBook

/-! ## Bridging a chain -/

theorem sortBySequence_of_sequenced
    {diffs : List DepthDiff}
    (sequenced : diffs.Pairwise fun left right =>
      left.receiveSeq < right.receiveSeq) :
    ConnectionBook.sortBySequence diffs = diffs :=
  List.Pairwise.insertionSort_eq (sequenced.imp fun before => before.le)

/-- Dropping up to a bridge commutes with leaving out what cannot bridge. -/
theorem fromBridge_filter (diffs : List DepthDiff) (lastUpdateId : Int) :
    fromBridge (diffs.filter fun diff => lastUpdateId ≤ diff.finalUpdateId)
        lastUpdateId =
      (fromBridge diffs lastUpdateId).filter fun diff =>
        lastUpdateId ≤ diff.finalUpdateId := by
  induction diffs with
  | nil => rfl
  | cons diff rest induction =>
      by_cases bridges : diff.Bridges lastUpdateId
      · have kept : lastUpdateId ≤ diff.finalUpdateId := bridges.2
        simp [fromBridge, kept, bridges]
      · by_cases kept : lastUpdateId ≤ diff.finalUpdateId
        · simpa [fromBridge, List.dropWhile_cons, kept, bridges] using induction
        · simpa [fromBridge, List.dropWhile_cons, kept, bridges] using induction

theorem fromBridge_suffix (diffs : List DepthDiff) (lastUpdateId : Int) :
    fromBridge diffs lastUpdateId <:+ diffs :=
  List.dropWhile_suffix _

/-- What is left starts with a diff which contains the update ID. -/
theorem bridges_of_fromBridge
    {diffs rest : List DepthDiff} {lastUpdateId : Int} {bridge : DepthDiff}
    (isFrom : fromBridge diffs lastUpdateId = bridge :: rest) :
    bridge.Bridges lastUpdateId := by
  have head := List.head?_dropWhile_not
    (fun diff : DepthDiff => decide ¬ diff.Bridges lastUpdateId) diffs
  rw [← fromBridge, isFrom] at head
  simpa using head

/-- From the bridge on, no diff is older than the snapshot. -/
theorem filter_fromBridge
    {diffs : List DepthDiff} (chain : DiffChain diffs) (lastUpdateId : Int) :
    (fromBridge diffs lastUpdateId).filter
        (fun diff => lastUpdateId ≤ diff.finalUpdateId) =
      fromBridge diffs lastUpdateId := by
  apply List.filter_eq_self.mpr
  intro diff member
  apply decide_eq_true
  have increasing := chain.increasing.sublist
    (fromBridge_suffix diffs lastUpdateId).sublist
  cases isFrom : fromBridge diffs lastUpdateId with
  | nil =>
      rw [isFrom] at member
      exact absurd member List.not_mem_nil
  | cons bridge rest =>
      have bridges := bridges_of_fromBridge isFrom
      rw [isFrom] at member increasing
      rcases List.mem_cons.mp member with rfl | inRest
      · exact bridges.2
      · exact bridges.2.trans
          ((List.pairwise_cons.mp increasing).1 diff inRest).le

/-- What bridging does to a book whose buffer is what a chain left of it. -/
theorem tryBridge_of_chain
    {book : ConnectionBook} {delivered : List DepthDiff} {anchor : Int}
    {received : Nat} (chain : DiffChain delivered)
    (anchored : book.anchorLastUpdateId = some anchor)
    (receivedAt : book.anchorReceivedNs = some received)
    (buffered : ConnectionBook.candidates book.pending anchor =
      delivered.filter fun diff => anchor ≤ diff.finalUpdateId) :
    book.tryBridge.1 =
      match fromBridge delivered anchor with
      | [] =>
          { book with
            pending := delivered.filter fun diff =>
              anchor ≤ diff.finalUpdateId }
      | bridge :: rest => (book.replay (bridge :: rest)).settle := by
  have remaining : (ConnectionBook.candidates book.pending anchor).dropWhile
      (fun diff => ¬ diff.Bridges anchor) = fromBridge delivered anchor := by
    rw [buffered, ← fromBridge, fromBridge_filter, filter_fromBridge chain]
  simp only [ConnectionBook.tryBridge, anchored, receivedAt, remaining]
  cases isFrom : fromBridge delivered anchor with
  | nil => rw [buffered]
  | cons bridge rest =>
      have linked : (bridge :: rest).IsChain fun left right =>
          right.previousFinalUpdateId = left.finalUpdateId := by
        rw [← isFrom]
        exact chain.linked.suffix (fromBridge_suffix delivered anchor)
      have applied : (book.apply bridge).applyBuffered rest =
          ((book.apply bridge).replay rest, none) :=
        ConnectionBook.applyBuffered_of_linked linked rfl
      simp only [applied]
      rfl

/-! ## The book as a function of what was delivered -/

/-- A book which waits for the diff that contains its snapshot. -/
def anchoredBook (connection : String) (snapshot : DepthSnapshot)
    (delivered : List DepthDiff) : ConnectionBook where
  connectionId := connection
  bids := bookSide snapshot.bids
  asks := bookSide snapshot.asks
  previousUpdateId := some snapshot.lastUpdateId
  pending := delivered.filter fun diff =>
    snapshot.lastUpdateId ≤ diff.finalUpdateId
  seenDiffs := identities delivered
  anchorLastUpdateId := some snapshot.lastUpdateId
  anchorReceivedNs := some snapshot.receivedNs

/-- The book after some diffs and at most one snapshot, in whatever order. -/
def bridgedBook (connection : String) (delivered : List DepthDiff) :
    Option DepthSnapshot → ConnectionBook
  | none =>
      { connectionId := connection
        pending := delivered
        seenDiffs := identities delivered }
  | some snapshot =>
      let book := anchoredBook connection snapshot delivered
      match fromBridge delivered snapshot.lastUpdateId with
      | [] => book
      | bridge :: rest => (book.replay (bridge :: rest)).settle

theorem DiffChain.of_append
    {earlier later : List DepthDiff} (chain : DiffChain (earlier ++ later)) :
    DiffChain earlier where
  sequenced := (List.pairwise_append.mp chain.sequenced).1
  increasing := (List.pairwise_append.mp chain.increasing).1
  linked := (List.isChain_append.mp chain.linked).1

/-- A sequenced list of diffs is its own list of candidates, up to the filter. -/
theorem candidates_of_sequenced
    {diffs : List DepthDiff}
    (sequenced : diffs.Pairwise fun left right =>
      left.receiveSeq < right.receiveSeq) (lastUpdateId : Int) :
    ConnectionBook.candidates diffs lastUpdateId =
      diffs.filter fun diff => lastUpdateId ≤ diff.finalUpdateId := by
  rw [ConnectionBook.candidates, sortBySequence_of_sequenced sequenced]

theorem fromBridge_concat
    {delivered : List DepthDiff} {lastUpdateId : Int} {bridge : DepthDiff}
    {rest : List DepthDiff}
    (bridged : fromBridge delivered lastUpdateId = bridge :: rest)
    (diff : DepthDiff) :
    fromBridge (delivered ++ [diff]) lastUpdateId =
      bridge :: (rest ++ [diff]) := by
  have nonempty : (fromBridge delivered lastUpdateId).isEmpty = false := by
    rw [bridged]
    rfl
  rw [fromBridge, List.dropWhile_append, ← fromBridge, nonempty, bridged]
  rfl

/-- The diff after a bridged chain names the last update ID of the book. -/
theorem previous_eq_lastFinal
    {delivered : List DepthDiff} {lastUpdateId : Int} {bridge diff : DepthDiff}
    {rest : List DepthDiff} (previous : Option Int)
    (chain : DiffChain (delivered ++ [diff]))
    (bridged : fromBridge delivered lastUpdateId = bridge :: rest) :
    some diff.previousFinalUpdateId = lastFinal previous (bridge :: rest) := by
  have suffix := fromBridge_suffix delivered lastUpdateId
  rw [bridged] at suffix
  rcases suffix with ⟨dropped, rfl⟩
  have link := (List.isChain_append.mp chain.linked).2.2
  rcases List.eq_nil_or_concat (bridge :: rest) with
    empty | ⟨others, last, isLast⟩
  · cases empty
  · rw [List.concat_eq_append] at isLast
    rw [isLast, lastFinal, List.getLast?_concat]
    rw [isLast, ← List.append_assoc] at link
    exact congrArg some (link last (by simp) diff (by simp))

@[simp]
theorem bridgedBook_seenDiffs
    (connection : String) (delivered : List DepthDiff)
    (snapshot : Option DepthSnapshot) :
    (bridgedBook connection delivered snapshot).seenDiffs =
      identities delivered := by
  cases snapshot with
  | none => rfl
  | some snapshot =>
      simp only [bridgedBook]
      split
      · rfl
      · rw [ConnectionBook.replay_eq]
        rfl

theorem onDiff_bridgedBook_repeated
    {connection : String} {delivered : List DepthDiff}
    {snapshot : Option DepthSnapshot} {diff : DepthDiff}
    (repeated : diff.identity ∈ identities delivered) :
    (bridgedBook connection delivered snapshot).onDiff diff =
      (bridgedBook connection delivered snapshot, none) := by
  rw [ConnectionBook.onDiff, if_pos (by simpa using repeated)]

/-- A diff which the snapshot waits for bridges, and another is buffered. -/
theorem onDiff_anchoredBook
    {connection : String} {delivered : List DepthDiff}
    {snapshot : DepthSnapshot} {diff : DepthDiff}
    (chain : DiffChain (delivered ++ [diff]))
    (new : diff.identity ∉ identities delivered) :
    ((anchoredBook connection snapshot delivered).onDiff diff).1 =
      bridgedBook connection (delivered ++ [diff]) (some snapshot) := by
  have sequenced : ((anchoredBook connection snapshot delivered).pending ++
      [diff]).Pairwise fun left right =>
        left.receiveSeq < right.receiveSeq :=
    List.Pairwise.sublist
      (List.Sublist.append List.filter_sublist (List.Sublist.refl _))
      chain.sequenced
  have buffered : ConnectionBook.candidates
      ((anchoredBook connection snapshot delivered).pending ++ [diff])
        snapshot.lastUpdateId =
      (delivered ++ [diff]).filter fun diff =>
        snapshot.lastUpdateId ≤ diff.finalUpdateId := by
    rw [candidates_of_sequenced sequenced]
    simp [anchoredBook, List.filter_append, List.filter_filter]
  rw [ConnectionBook.onDiff_of_invalid new (by simp [anchoredBook]),
    tryBridge_of_chain chain rfl rfl buffered]
  simp only [bridgedBook]
  split
  · simp [anchoredBook, identities_concat]
  · simp [anchoredBook, identities_concat, ConnectionBook.replay_eq,
      ConnectionBook.settle]

/-- A new diff of the chain leads to the book of the longer chain. -/
theorem onDiff_bridgedBook
    {connection : String} {delivered : List DepthDiff}
    {snapshot : Option DepthSnapshot} {diff : DepthDiff}
    (chain : DiffChain (delivered ++ [diff]))
    (new : diff.identity ∉ identities delivered) :
    ((bridgedBook connection delivered snapshot).onDiff diff).1 =
      bridgedBook connection (delivered ++ [diff]) snapshot := by
  cases snapshot with
  | none =>
      rw [ConnectionBook.onDiff_of_invalid (by simpa using new)
        (by simp [bridgedBook]), ConnectionBook.tryBridge_unanchored rfl]
      simp [bridgedBook, identities_concat]
  | some snapshot =>
      cases bridged : fromBridge delivered snapshot.lastUpdateId with
      | nil =>
          have isBook : bridgedBook connection delivered (some snapshot) =
              anchoredBook connection snapshot delivered := by
            simp only [bridgedBook, bridged]
          rw [isBook]
          exact onDiff_anchoredBook chain new
      | cons bridge rest =>
          have isBook : bridgedBook connection delivered (some snapshot) =
              ((anchoredBook connection snapshot delivered).replay
                (bridge :: rest)).settle := by
            simp only [bridgedBook, bridged]
          have link := previous_eq_lastFinal (some snapshot.lastUpdateId) chain
            bridged
          have linked : (bridgedBook connection delivered
              (some snapshot)).previousUpdateId =
                some diff.previousFinalUpdateId := by
            rw [isBook, ConnectionBook.replay_eq, link]
            rfl
          have valid : (bridgedBook connection delivered
              (some snapshot)).state = .valid := by
            rw [isBook]
            rfl
          rw [ConnectionBook.onDiff_of_linked (by simpa using new) valid linked,
            isBook]
          simp only [bridgedBook, fromBridge_concat bridged]
          rw [← List.cons_append, ConnectionBook.replay, ConnectionBook.replay,
            List.foldl_concat, ← ConnectionBook.replay, ← ConnectionBook.replay,
            ConnectionBook.replay_eq, ConnectionBook.replay_eq]
          simp [anchoredBook, ConnectionBook.settle, ConnectionBook.apply,
            identities_concat]

/-- The snapshot leads to the book it would have led to at any other time. -/
theorem onSnapshot_bridgedBook
    {connection : String} {delivered : List DepthDiff}
    (chain : DiffChain delivered) (snapshot : DepthSnapshot) :
    ((bridgedBook connection delivered none).onSnapshot snapshot).1 =
      bridgedBook connection delivered (some snapshot) := by
  rw [ConnectionBook.onSnapshot, tryBridge_of_chain chain rfl rfl
    (candidates_of_sequenced chain.sequenced _)]
  simp only [bridgedBook]
  split
  · rfl
  · simp [anchoredBook, ConnectionBook.replay_eq, ConnectionBook.settle]

/-- Rows of a chain and at most one snapshot lead to the book of what they hold. -/
theorem deliver_bridgedBook
    {connection : String} {rows : List DepthRow} {delivered : List DepthDiff}
    {snapshot : Option DepthSnapshot}
    (chain : DiffChain
      (delivered ++ firstDeliveries (identities delivered) rows))
    (single : (snapshot.toList ++ snapshotsOf rows).length ≤ 1) :
    ((bridgedBook connection delivered snapshot).deliver rows).1 =
      bridgedBook connection
        (delivered ++ firstDeliveries (identities delivered) rows)
        (snapshot.toList ++ snapshotsOf rows).head? := by
  induction rows generalizing delivered snapshot with
  | nil => cases snapshot <;> simp [ConnectionBook.deliver, firstDeliveries,
      snapshotsOf]
  | cons row rest induction =>
      rw [ConnectionBook.deliver]
      cases row with
      | depth diff =>
          have sameSnapshots : snapshotsOf (.depth diff :: rest) =
              snapshotsOf rest := rfl
          rw [sameSnapshots] at single ⊢
          rw [firstDeliveries] at chain ⊢
          rw [ConnectionBook.onRow]
          by_cases repeated : diff.identity ∈ identities delivered
          · rw [if_pos repeated] at chain ⊢
            rw [onDiff_bridgedBook_repeated repeated]
            exact induction chain single
          · rw [if_neg repeated, ← identities_concat, List.append_cons]
              at chain ⊢
            rw [onDiff_bridgedBook chain.of_append repeated]
            exact induction chain single
      | depthSnapshot received =>
          have nextSnapshots : snapshotsOf (.depthSnapshot received :: rest) =
              received :: snapshotsOf rest := rfl
          rw [nextSnapshots] at single ⊢
          rw [firstDeliveries] at chain ⊢
          rw [ConnectionBook.onRow]
          cases snapshot with
          | some earlier => simp at single
          | none =>
              rw [onSnapshot_bridgedBook chain.of_append]
              exact induction chain single

/-! ## The property -/

/-- A `VALID` book at the end of a chain which a snapshot has bridged. -/
structure BridgedFrom (snapshot : DepthSnapshot) (diffs : List DepthDiff)
    (book : ConnectionBook) : Prop where
  valid : book.state = .valid
  previous : book.previousUpdateId =
    diffs.getLast?.map DepthDiff.finalUpdateId
  bids : book.bids = applyLevels (bookSide snapshot.bids)
    ((fromBridge diffs snapshot.lastUpdateId).flatMap DepthDiff.bids)
  asks : book.asks = applyLevels (bookSide snapshot.asks)
    ((fromBridge diffs snapshot.lastUpdateId).flatMap DepthDiff.asks)
  bidQuantity : ∀ price, book.bids.get? price = quantityAfter snapshot.bids
    ((fromBridge diffs snapshot.lastUpdateId).flatMap DepthDiff.bids) price
  askQuantity : ∀ price, book.asks.get? price = quantityAfter snapshot.asks
    ((fromBridge diffs snapshot.lastUpdateId).flatMap DepthDiff.asks) price

theorem fromBridge_ne_nil
    {diffs : List DepthDiff} {lastUpdateId : Int}
    (contained : ∃ diff ∈ diffs, diff.Bridges lastUpdateId) :
    fromBridge diffs lastUpdateId ≠ [] := by
  rcases contained with ⟨diff, member, bridges⟩
  intro isNil
  have dropped := List.dropWhile_eq_nil_iff.mp isNil diff member
  simp [bridges] at dropped

theorem bridgedBook_bridgedFrom
    (connection : String) {diffs : List DepthDiff} {snapshot : DepthSnapshot}
    (contained : ∃ diff ∈ diffs, diff.Bridges snapshot.lastUpdateId) :
    BridgedFrom snapshot diffs
      (bridgedBook connection diffs (some snapshot)) := by
  simp only [bridgedBook]
  split
  next isNil => exact absurd isNil (fromBridge_ne_nil contained)
  next bridge rest isFrom =>
    rw [ConnectionBook.replay_eq]
    constructor
    · rfl
    · have suffix := fromBridge_suffix diffs snapshot.lastUpdateId
      rw [isFrom] at suffix
      rcases suffix with ⟨dropped, rfl⟩
      rw [List.getLast?_append_of_ne_nil _ (List.cons_ne_nil _ _)]
      cases last : (bridge :: rest).getLast? with
      | none => simp at last
      | some diff => simp [ConnectionBook.settle, lastFinal, last]
    · rw [isFrom]
      rfl
    · rw [isFrom]
      rfl
    · rw [isFrom]
      exact get?_applyLevels_bookSide _ _
    · rw [isFrom]
      exact get?_applyLevels_bookSide _ _

/--
Wherever the snapshot is delivered among the diffs of a chain, and whichever
diffs are delivered again, a fresh book ends `VALID` at the last diff, with the
snapshot's levels and every diff from the first one on which contains the
snapshot.
-/
theorem snapshot_bridge_any_order
    (connection : String) {diffs : List DepthDiff} {snapshot : DepthSnapshot}
    {rows : List DepthRow} (chain : DiffChain diffs)
    (contained : ∃ diff ∈ diffs, diff.Bridges snapshot.lastUpdateId)
    (delivered : firstDeliveries ∅ rows = diffs)
    (single : snapshotsOf rows = [snapshot]) :
    BridgedFrom snapshot diffs
      (({ connectionId := connection } : ConnectionBook).deliver rows).1 := by
  have noIdentities : identities [] = ∅ := rfl
  have isBook : ((bridgedBook connection [] none).deliver rows).1 =
      bridgedBook connection diffs (some snapshot) := by
    rw [deliver_bridgedBook]
    · simp [noIdentities, delivered, single]
    · simpa [noIdentities, delivered] using chain
    · simp [single]
  have fresh : bridgedBook connection [] none =
      { connectionId := connection } := by
    simp [bridgedBook, noIdentities]
  rw [fresh] at isBook
  rw [isBook]
  exact bridgedBook_bridgedFrom connection contained

/-! ## A snapshot between two deliveries of a diff -/

def sampleDiff (sequence : Nat) (first final previous : Int)
    (bids : Levels) : DepthDiff where
  connectionId := "a"
  receiveSeq := sequence
  receivedNs := 100 * sequence
  firstUpdateId := first
  finalUpdateId := final
  previousFinalUpdateId := previous
  payloadHash := [sequence.toUInt8]
  bids := bids
  asks := [(101, 1)]

def bridgeSnapshot : DepthSnapshot where
  connectionId := "a"
  receiveSeq := 2
  receivedNs := 200
  lastUpdateId := 102
  bids := [(99, 1), (98, 0)]
  asks := [(102, 1)]

/-- Diffs up to 100, 103 and 104; the second one contains the snapshot. -/
def chainDiffs : List DepthDiff :=
  [sampleDiff 1 99 100 98 [(97, 3)], sampleDiff 3 101 103 100 [(99, 0)],
    sampleDiff 4 104 104 103 [(98, 2)]]

def bridgedRows : List DepthRow :=
  [.depth (sampleDiff 1 99 100 98 [(97, 3)]),
    .depthSnapshot bridgeSnapshot,
    .depth (sampleDiff 1 99 100 98 [(97, 3)]),
    .depth (sampleDiff 3 101 103 100 [(99, 0)]),
    .depth (sampleDiff 4 104 104 103 [(98, 2)]),
    .depth (sampleDiff 3 101 103 100 [(99, 0)])]

theorem snapshot_bridge_any_order_bridgedRows :
    BridgedFrom bridgeSnapshot chainDiffs
      (({ connectionId := "a" } : ConnectionBook).deliver bridgedRows).1 := by
  apply snapshot_bridge_any_order "a"
  · constructor
    · decide
    · decide
    · simp [chainDiffs, sampleDiff]
  · decide
  · decide +kernel
  · rfl

end ShadowDataPlane.Central
