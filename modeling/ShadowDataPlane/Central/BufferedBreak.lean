import ShadowDataPlane.Central.BookSimulation
import ShadowDataPlane.Central.SnapshotBridge

/-!
# A break among the buffered diffs

A snapshot which finds its bridge applies the buffered diffs after it until
one does not name its predecessor.  The book is then invalidated and buffers
the breaking diff alone: the diffs which had been buffered behind it are gone,
whereas a break met by a diff on arrival loses nothing.

`BreaksAt` describes the break in terms of the buffer, and
`reports_discontinuity_iff` says that it is the one the code reports.  The
main theorem asks when the next snapshot recovers the book in full.
-/

namespace ShadowDataPlane.Central

open ShadowDataPlane.Foundation

/-! ## Linked diffs -/

/-- Every diff names the one before it. -/
def PuLinked (diffs : List DepthDiff) : Prop :=
  diffs.IsChain fun left right =>
    right.previousFinalUpdateId = left.finalUpdateId

instance (diffs : List DepthDiff) : Decidable (PuLinked diffs) :=
  inferInstanceAs (Decidable (List.IsChain _ _))

/-- The diffs which a snapshot of that update ID does not contain. -/
def newerThan (lastUpdateId : Int) (diffs : List DepthDiff) :
    List DepthDiff :=
  diffs.filter fun diff => lastUpdateId ≤ diff.finalUpdateId

/-- What is left of them from the bridge on. -/
def applicable (lastUpdateId : Int) (diffs : List DepthDiff) :
    List DepthDiff :=
  fromBridge (newerThan lastUpdateId diffs) lastUpdateId

theorem lastFinal_concat
    (previous : Option Int) (diffs : List DepthDiff) (diff : DepthDiff) :
    lastFinal previous (diffs ++ [diff]) = some diff.finalUpdateId := by
  simp [lastFinal]

theorem lastFinal_cons
    (previous : Option Int) (head : DepthDiff) (rest : List DepthDiff) :
    lastFinal previous (head :: rest) =
      lastFinal (some head.finalUpdateId) rest := by
  cases rest with
  | nil => rfl
  | cons next others =>
      simp only [lastFinal, List.getLast?_cons_cons]
      rw [List.getLast?_cons]

/-- A diff may follow linked ones if it names the last of them. -/
theorem puLinked_concat_iff
    {head : DepthDiff} {rest : List DepthDiff} {diff : DepthDiff} :
    PuLinked (head :: rest ++ [diff]) ↔
      PuLinked (head :: rest) ∧
        lastFinal none (head :: rest) =
          some diff.previousFinalUpdateId := by
  rw [PuLinked, List.isChain_append]
  constructor
  · rintro ⟨linked, _, link⟩
    refine ⟨linked, ?_⟩
    cases last : (head :: rest).getLast? with
    | none => simp at last
    | some final =>
        rw [lastFinal, last]
        exact congrArg some (link final last diff rfl).symm
  · rintro ⟨linked, names⟩
    refine ⟨linked, List.isChain_singleton diff, ?_⟩
    rintro final last other ⟨⟩
    rw [lastFinal, last] at names
    exact (Option.some.inj names).symm

namespace ConnectionBook

/-- The buffered diffs are all applied exactly if they are linked. -/
theorem applyBuffered_completes_iff
    {diffs : List DepthDiff} {previous : DepthDiff} {book : ConnectionBook}
    (reached : book.previousUpdateId = some previous.finalUpdateId) :
    (book.applyBuffered diffs).2 = none ↔ PuLinked (previous :: diffs) := by
  induction diffs generalizing book previous with
  | nil => simp [applyBuffered, PuLinked]
  | cons diff rest induction =>
      rw [PuLinked, List.isChain_cons_cons, applyBuffered, reached]
      by_cases link : diff.previousFinalUpdateId = previous.finalUpdateId
      · have next : (book.apply diff).previousUpdateId =
            some diff.finalUpdateId := rfl
        rw [if_neg (by simp [link]), induction next]
        exact (and_iff_right link).symm
      · rw [if_pos (by simpa using link)]
        simp [link]

/-- Linked diffs are applied before the others are looked at. -/
theorem applyBuffered_append
    {linked : List DepthDiff} {previous : DepthDiff} {book : ConnectionBook}
    (isLinked : PuLinked (previous :: linked))
    (reached : book.previousUpdateId = some previous.finalUpdateId)
    (rest : List DepthDiff) :
    book.applyBuffered (linked ++ rest) =
      (book.replay linked).applyBuffered rest := by
  induction linked generalizing book previous with
  | nil => rfl
  | cons diff others induction =>
      rcases List.isChain_cons_cons.mp isLinked with ⟨link, othersLinked⟩
      rw [List.cons_append, applyBuffered,
        if_neg (by rw [reached, link]; exact not_not.mpr rfl),
        induction othersLinked rfl]
      rfl

/-- Where the diffs stop being linked. -/
theorem applyBuffered_stops
    {diffs : List DepthDiff} {previous broken : DepthDiff}
    {book : ConnectionBook}
    (reached : book.previousUpdateId = some previous.finalUpdateId)
    (stopped : (book.applyBuffered diffs).2 = some broken) :
    ∃ linked behind, diffs = linked ++ broken :: behind ∧
      PuLinked (previous :: linked) ∧
      lastFinal none (previous :: linked) ≠
        some broken.previousFinalUpdateId := by
  induction diffs generalizing book previous with
  | nil => simp [applyBuffered] at stopped
  | cons diff rest induction =>
      rw [applyBuffered, reached] at stopped
      by_cases link : diff.previousFinalUpdateId = previous.finalUpdateId
      · rw [if_neg (by simp [link])] at stopped
        have next : (book.apply diff).previousUpdateId =
            some diff.finalUpdateId := rfl
        rcases induction next stopped with ⟨linked, behind, rfl, isLinked, unlinked⟩
        refine ⟨diff :: linked, behind, rfl, ?_, ?_⟩
        · exact List.isChain_cons_cons.mpr ⟨link, isLinked⟩
        · rwa [lastFinal_cons, lastFinal_cons, ← lastFinal_cons none]
      · rw [if_pos (by simpa using link)] at stopped
        rw [← Option.some.inj stopped]
        refine ⟨[], rest, rfl, List.isChain_singleton previous, ?_⟩
        rw [lastFinal_cons]
        simpa [lastFinal] using Ne.symm link

/-! ## What a snapshot finds in the buffer -/

section Snapshot

variable {book : ConnectionBook} {snapshot : DepthSnapshot}
variable {bridge : DepthDiff} {rest : List DepthDiff}

/-- Diffs received one after another. -/
def Sequenced (diffs : List DepthDiff) : Prop :=
  diffs.Pairwise fun left right => left.receiveSeq < right.receiveSeq

instance (diffs : List DepthDiff) : Decidable (Sequenced diffs) :=
  inferInstanceAs (Decidable (List.Pairwise _ _))

/-- The book a snapshot is bridged on. -/
def anchoredBy (book : ConnectionBook) (snapshot : DepthSnapshot) :
    ConnectionBook :=
  { book with
    bids := bookSide snapshot.bids
    asks := bookSide snapshot.asks
    previousUpdateId := some snapshot.lastUpdateId
    anchorLastUpdateId := some snapshot.lastUpdateId
    anchorReceivedNs := some snapshot.receivedNs }

/-- A snapshot applies the applicable diffs, or breaks at one of them. -/
theorem onSnapshot_of_applicable
    (sequenced : Sequenced book.pending)
    (isApplicable :
      applicable snapshot.lastUpdateId book.pending = bridge :: rest) :
    match (((book.anchoredBy snapshot).apply bridge).applyBuffered rest).2 with
    | some broken =>
        (book.onSnapshot snapshot).1 =
            { book.invalidate with pending := [broken] } ∧
          (book.onSnapshot snapshot).2 =
            some
              { connectionId := book.connectionId
                atNs := broken.receivedNs
                state := .gapped
                updateId := some broken.finalUpdateId
                reason := "buffered_pu_discontinuity" }
    | none =>
        (book.onSnapshot snapshot).1 =
            ((book.anchoredBy snapshot).replay (bridge :: rest)).settle ∧
          ∃ change, (book.onSnapshot snapshot).2 = some change ∧
            change.reason = "snapshot_bridge" := by
  have remaining : (candidates book.pending snapshot.lastUpdateId).dropWhile
      (fun diff => ¬ diff.Bridges snapshot.lastUpdateId) = bridge :: rest := by
    rw [candidates_of_sequenced sequenced]
    exact isApplicable
  have isBridge : book.onSnapshot snapshot =
      (book.anchoredBy snapshot).tryBridge := rfl
  have pending : (book.anchoredBy snapshot).pending = book.pending := rfl
  have anchored : (book.anchoredBy snapshot).anchorLastUpdateId =
      some snapshot.lastUpdateId := rfl
  have receivedAt : (book.anchoredBy snapshot).anchorReceivedNs =
      some snapshot.receivedNs := rfl
  rw [isBridge]
  simp only [tryBridge, anchored, receivedAt, pending, remaining]
  have sameConnection := applyBuffered_connectionId
    ((book.anchoredBy snapshot).apply bridge) rest
  have sameSeen := applyBuffered_seenDiffs
    ((book.anchoredBy snapshot).apply bridge) rest
  have reached : ((book.anchoredBy snapshot).apply bridge).previousUpdateId =
      some bridge.finalUpdateId := rfl
  have completes : _ ↔ PuLinked (bridge :: rest) :=
    applyBuffered_completes_iff reached
  have linkedResult : PuLinked (bridge :: rest) →
      ((book.anchoredBy snapshot).apply bridge).applyBuffered rest =
        (((book.anchoredBy snapshot).apply bridge).replay rest, none) :=
    fun linked => applyBuffered_of_linked linked rfl
  revert sameConnection sameSeen completes linkedResult
  generalize
    ((book.anchoredBy snapshot).apply bridge).applyBuffered rest = result
  rcases result with ⟨applied, stopped⟩
  intro sameConnection sameSeen completes linkedResult
  cases stopped with
  | some broken =>
      dsimp only at sameConnection sameSeen ⊢
      constructor
      · simp only [invalidate, sameConnection, sameSeen]
        rfl
      · rw [sameConnection]
        rfl
  | none =>
      dsimp only at completes linkedResult ⊢
      have isApplied := congrArg Prod.fst (linkedResult (completes.mp rfl))
      dsimp only at isApplied
      rw [isApplied]
      exact ⟨rfl, _, rfl, rfl⟩

/-- Nothing buffered contains the snapshot's ID, so the book waits. -/
theorem onSnapshot_of_not_applicable
    (sequenced : Sequenced book.pending)
    (isApplicable : applicable snapshot.lastUpdateId book.pending = []) :
    book.onSnapshot snapshot =
      ({ book.anchoredBy snapshot with
          pending := newerThan snapshot.lastUpdateId book.pending }, none) := by
  have isBridge : book.onSnapshot snapshot =
      (book.anchoredBy snapshot).tryBridge := rfl
  have pending : (book.anchoredBy snapshot).pending = book.pending := rfl
  have anchored : (book.anchoredBy snapshot).anchorLastUpdateId =
      some snapshot.lastUpdateId := rfl
  have receivedAt : (book.anchoredBy snapshot).anchorReceivedNs =
      some snapshot.receivedNs := rfl
  have remaining : (candidates book.pending snapshot.lastUpdateId).dropWhile
      (fun diff => ¬ diff.Bridges snapshot.lastUpdateId) = [] := by
    rw [candidates_of_sequenced sequenced]
    exact isApplicable
  rw [isBridge]
  simp only [tryBridge, anchored, receivedAt, pending, remaining]
  rw [candidates_of_sequenced sequenced]
  rfl

end Snapshot

end ConnectionBook

/-! ## Where the buffer breaks -/

theorem applicable_append
    {lastUpdateId : Int} {earlier rest : List DepthDiff} {bridge : DepthDiff}
    (isApplicable : applicable lastUpdateId earlier = bridge :: rest)
    (later : List DepthDiff) :
    applicable lastUpdateId (earlier ++ later) =
      bridge :: (rest ++ newerThan lastUpdateId later) := by
  have nonempty : (applicable lastUpdateId earlier).isEmpty = false := by
    rw [isApplicable]
    rfl
  rw [applicable, newerThan, List.filter_append, fromBridge,
    List.dropWhile_append, ← fromBridge, ← newerThan, ← applicable, nonempty,
    isApplicable]
  rfl

/--
`broken` is the first diff behind the bridge of a snapshot, given the diffs
buffered before it, which does not name its predecessor.
-/
structure BreaksAt (snapshot : DepthSnapshot) (earlier : List DepthDiff)
    (broken : DepthDiff) : Prop where
  bridged : applicable snapshot.lastUpdateId earlier ≠ []
  linked : PuLinked (applicable snapshot.lastUpdateId earlier)
  unlinked : lastFinal none (applicable snapshot.lastUpdateId earlier) ≠
    some broken.previousFinalUpdateId
  newer : snapshot.lastUpdateId ≤ broken.finalUpdateId

section Break

variable {book : ConnectionBook} {snapshot : DepthSnapshot}
variable {earlier behind : List DepthDiff} {broken : DepthDiff}

/-- At a break only the breaking diff stays buffered. -/
theorem onSnapshot_of_breaksAt
    (pending : book.pending = earlier ++ broken :: behind)
    (sequenced : ConnectionBook.Sequenced book.pending)
    (breaks : BreaksAt snapshot earlier broken) :
    (book.onSnapshot snapshot).1 =
        { book.invalidate with pending := [broken] } ∧
      (book.onSnapshot snapshot).2 =
        some
          { connectionId := book.connectionId
            atNs := broken.receivedNs
            state := .gapped
            updateId := some broken.finalUpdateId
            reason := "buffered_pu_discontinuity" } := by
  rcases breaks with ⟨bridged, linked, unlinked, newer⟩
  cases isApplicable : applicable snapshot.lastUpdateId earlier with
  | nil => exact absurd isApplicable bridged
  | cons bridge rest =>
      rw [isApplicable] at linked unlinked
      have whole : applicable snapshot.lastUpdateId book.pending =
          bridge :: (rest ++
            broken :: newerThan snapshot.lastUpdateId behind) := by
        have kept : newerThan snapshot.lastUpdateId (broken :: behind) =
            broken :: newerThan snapshot.lastUpdateId behind :=
          List.filter_cons_of_pos (by simpa using newer)
        rw [pending, applicable_append isApplicable, kept]
      have outcome :=
        ConnectionBook.onSnapshot_of_applicable sequenced whole
      have stops : (((book.anchoredBy snapshot).apply bridge).applyBuffered
          (rest ++ broken :: newerThan snapshot.lastUpdateId behind)).2 =
            some broken := by
        rw [ConnectionBook.applyBuffered_append linked rfl,
          ConnectionBook.replay_eq, ConnectionBook.applyBuffered, if_pos]
        show some broken.previousFinalUpdateId ≠
          lastFinal (some bridge.finalUpdateId) rest
        rw [← lastFinal_cons none]
        exact unlinked.symm
      rw [stops] at outcome
      exact outcome

/-- A break among the applicable diffs is one in the buffer. -/
theorem exists_breaksAt
    {diffs linked : List DepthDiff} {bridge : DepthDiff}
    (isApplicable : applicable snapshot.lastUpdateId diffs =
      bridge :: (linked ++ broken :: behind))
    (isLinked : PuLinked (bridge :: linked))
    (unlinked : lastFinal none (bridge :: linked) ≠
      some broken.previousFinalUpdateId) :
    ∃ earlier dropped, diffs = earlier ++ broken :: dropped ∧
      BreaksAt snapshot earlier broken := by
  -- Split the buffer where its filtered image breaks.
  have split : newerThan snapshot.lastUpdateId diffs =
      ((newerThan snapshot.lastUpdateId diffs).takeWhile
          (fun diff => ¬ diff.Bridges snapshot.lastUpdateId) ++
        bridge :: linked) ++ broken :: behind := by
    rw [List.append_assoc, List.cons_append, ← isApplicable]
    exact (List.takeWhile_append_dropWhile).symm
  rcases List.filter_eq_append_iff.mp split with
    ⟨before, after, rfl, isBefore, isAfter⟩
  rcases List.filter_eq_cons_iff.mp isAfter with
    ⟨stale, dropped, rfl, allStale, newer, _⟩
  have noneNewer : newerThan snapshot.lastUpdateId stale = [] :=
    List.filter_eq_nil_iff.mpr allStale
  have isEarlier : applicable snapshot.lastUpdateId (before ++ stale) =
      bridge :: linked := by
    have bridges := bridges_of_fromBridge isApplicable
    rw [applicable, newerThan, List.filter_append, ← newerThan, ← newerThan,
      noneNewer, List.append_nil]
    show fromBridge (List.filter _ before) _ = _
    rw [isBefore, fromBridge, List.dropWhile_append_of_pos,
      List.dropWhile_cons_of_neg (by simpa using bridges)]
    intro diff member
    exact List.mem_takeWhile_imp
      (p := fun diff : DepthDiff =>
        decide ¬ diff.Bridges snapshot.lastUpdateId) member
  refine ⟨before ++ stale, dropped, by simp, ?_⟩
  constructor
  · rw [isEarlier]
    exact List.cons_ne_nil _ _
  · rwa [isEarlier]
  · rwa [isEarlier]
  · simpa using newer

/-- The code reports the break which `BreaksAt` describes. -/
theorem reports_discontinuity_iff
    (sequenced : ConnectionBook.Sequenced book.pending) :
    (∃ change, (book.onSnapshot snapshot).2 = some change ∧
        change.reason = "buffered_pu_discontinuity") ↔
      ∃ earlier broken behind, book.pending = earlier ++ broken :: behind ∧
        BreaksAt snapshot earlier broken := by
  constructor
  · rintro ⟨change, reported, isBreak⟩
    cases isApplicable : applicable snapshot.lastUpdateId book.pending with
    | nil =>
        rw [ConnectionBook.onSnapshot_of_not_applicable sequenced
          isApplicable] at reported
        simp at reported
    | cons bridge rest =>
        have outcome :=
          ConnectionBook.onSnapshot_of_applicable sequenced isApplicable
        split at outcome
        next broken stopped =>
          have reached : ((book.anchoredBy snapshot).apply
              bridge).previousUpdateId = some bridge.finalUpdateId := rfl
          rcases ConnectionBook.applyBuffered_stops reached stopped with
            ⟨linked, behind, rfl, isLinked, unlinked⟩
          rcases exists_breaksAt isApplicable isLinked unlinked with
            ⟨earlier, dropped, isPending, breaks⟩
          exact ⟨earlier, broken, dropped, isPending, breaks⟩
        next =>
          rcases outcome.2 with ⟨other, isOther, bridges⟩
          rw [isOther] at reported
          rw [← Option.some.inj reported, bridges] at isBreak
          simp at isBreak
  · rintro ⟨earlier, broken, behind, pending, breaks⟩
    exact ⟨_, (onSnapshot_of_breaksAt pending sequenced breaks).2, rfl⟩

end Break

/-! ## Up to the next snapshot -/

/-- Without a snapshot every new diff is buffered. -/
theorem ConnectionBook.Unanchored.deliver
    {book : ConnectionBook} (unanchored : book.Unanchored)
    (diffs : List DepthDiff) :
    (book.deliver (diffs.map .depth)).1.pending =
        book.pending ++
          firstDeliveries book.seenDiffs (diffs.map .depth) := by
  induction diffs generalizing book with
  | nil => simp [ConnectionBook.deliver, firstDeliveries]
  | cons diff rest induction =>
      rcases unanchored.onDiff diff with
        ⟨_, stillUnanchored, _, seen, pending⟩
      rw [List.map_cons, ConnectionBook.deliver, firstDeliveries]
      show ((book.onDiff diff).1.deliver _).1.pending = _
      rw [induction stillUnanchored, seen, pending]
      split
      next repeated => rw [Finset.insert_eq_of_mem repeated]
      next => rw [List.append_assoc, List.singleton_append]

theorem le_lastFinal
    {lastUpdateId : Int} {diffs : List DepthDiff}
    (newer : ∀ diff ∈ diffs, lastUpdateId ≤ diff.finalUpdateId)
    {final : Int} (isFinal : lastFinal none diffs = some final) :
    lastUpdateId ≤ final := by
  cases last : diffs.getLast? with
  | none => simp [lastFinal, last] at isFinal
  | some diff =>
      rw [lastFinal, last] at isFinal
      rw [← Option.some.inj isFinal]
      exact newer diff (List.mem_of_getLast? last)

theorem newer_of_mem_newerThan
    {lastUpdateId : Int} {diffs : List DepthDiff} :
    ∀ diff ∈ newerThan lastUpdateId diffs,
      lastUpdateId ≤ diff.finalUpdateId := by
  intro diff member
  simpa using List.of_mem_filter member

/--
If linked diffs are still linked without those a snapshot contains, and end at
the same ID, there is none of them.
-/
theorem newerThan_eq_self
    {lastUpdateId : Int} {bridge : DepthDiff} {post : List DepthDiff}
    (contained : lastUpdateId ≤ bridge.finalUpdateId)
    (linked : PuLinked (bridge :: post))
    (kept : PuLinked (bridge :: newerThan lastUpdateId post))
    (same : lastFinal none (bridge :: newerThan lastUpdateId post) =
      lastFinal none (bridge :: post)) :
    newerThan lastUpdateId post = post := by
  induction post using List.reverseRecOn with
  | nil => rfl
  | append_singleton init last induction =>
      have isAppend : newerThan lastUpdateId (init ++ [last]) =
          newerThan lastUpdateId init ++ newerThan lastUpdateId [last] :=
        List.filter_append init [last]
      rw [← List.cons_append] at linked same
      rcases puLinked_concat_iff.mp linked with ⟨initLinked, names⟩
      rw [lastFinal_concat] at same
      by_cases newer : lastUpdateId ≤ last.finalUpdateId
      · have isLast : newerThan lastUpdateId [last] = [last] := by
          simp [newerThan, newer]
        rw [isAppend, isLast] at kept ⊢
        rw [← List.cons_append] at kept
        rcases puLinked_concat_iff.mp kept with ⟨initKept, keptNames⟩
        rw [induction initLinked initKept (keptNames.trans names.symm)]
      · have isLast : newerThan lastUpdateId [last] = [] := by
          simp [newerThan, newer]
        rw [isAppend, isLast, List.append_nil] at same
        -- The last diff kept is newer than the snapshot, this one is not.
        have outdated := le_lastFinal (fun diff member => by
          rcases List.mem_cons.mp member with rfl | inInit
          · exact contained
          · exact newer_of_mem_newerThan diff inInit) same
        exact absurd outdated newer

/-! ## The property -/

/--
The book has buffered all of `received`, and is `VALID` at the end of `applied`
after the snapshot.
-/
structure Recovered (snapshot : DepthSnapshot)
    (received applied : List DepthDiff) (before : ConnectionBook) : Prop where
  kept : before.pending = received
  valid : (before.onSnapshot snapshot).1.state = .valid
  previous : (before.onSnapshot snapshot).1.previousUpdateId =
    lastFinal none applied
  bids : (before.onSnapshot snapshot).1.bids =
    applyLevels (bookSide snapshot.bids) (applied.flatMap DepthDiff.bids)
  asks : (before.onSnapshot snapshot).1.asks =
    applyLevels (bookSide snapshot.asks) (applied.flatMap DepthDiff.asks)

/--
The snapshot's ID lies in no diff before the bridge, and no diff after it is
contained in the snapshot.
-/
structure OnlyBridge (lastUpdateId : Int) (skipped post : List DepthDiff) :
    Prop where
  apart : ∀ diff ∈ skipped, ¬ diff.Bridges lastUpdateId
  newer : ∀ diff ∈ post, lastUpdateId ≤ diff.finalUpdateId

section Recovery

variable {before : ConnectionBook} {snapshot : DepthSnapshot}
variable {skipped post : List DepthDiff} {bridge : DepthDiff}

/-- Dropping the diffs before the first one which contains the ID. -/
theorem fromBridge_of_apart
    (contains : bridge.Bridges snapshot.lastUpdateId)
    (apart : ∀ diff ∈ skipped, ¬ diff.Bridges snapshot.lastUpdateId) :
    fromBridge (skipped ++ bridge :: post) snapshot.lastUpdateId =
      bridge :: post := by
  rw [fromBridge, List.dropWhile_append_of_pos
    (fun diff member => by simpa using apart diff member),
    List.dropWhile_cons_of_neg (by simpa using contains)]

theorem applicable_of_onlyBridge
    (contains : bridge.Bridges snapshot.lastUpdateId)
    (only : OnlyBridge snapshot.lastUpdateId skipped post) :
    applicable snapshot.lastUpdateId (skipped ++ bridge :: post) =
      bridge :: post := by
  rw [applicable, newerThan, fromBridge_filter,
    fromBridge_of_apart contains only.apart]
  apply List.filter_eq_self.mpr
  intro diff member
  rcases List.mem_cons.mp member with rfl | inPost
  · simpa using contains.2
  · simpa using only.newer diff inPost

theorem recovered_of_onlyBridge
    (pending : before.pending = skipped ++ bridge :: post)
    (sequenced : ConnectionBook.Sequenced before.pending)
    (contains : bridge.Bridges snapshot.lastUpdateId)
    (linked : PuLinked (bridge :: post))
    (only : OnlyBridge snapshot.lastUpdateId skipped post) :
    Recovered snapshot (skipped ++ bridge :: post) (bridge :: post)
      before := by
  have isApplicable := applicable_of_onlyBridge contains only
  rw [← pending] at isApplicable
  have outcome :=
    ConnectionBook.onSnapshot_of_applicable sequenced isApplicable
  have reached : ((before.anchoredBy snapshot).apply
      bridge).previousUpdateId = some bridge.finalUpdateId := rfl
  rw [(ConnectionBook.applyBuffered_completes_iff reached).mpr linked]
    at outcome
  have isAfter := outcome.1
  rw [ConnectionBook.replay_eq] at isAfter
  constructor
  · exact pending
  · rw [isAfter]
    rfl
  · rw [isAfter]
    show lastFinal (some snapshot.lastUpdateId) (bridge :: post) = _
    rw [lastFinal_cons, ← lastFinal_cons none]
  · rw [isAfter]
    rfl
  · rw [isAfter]
    rfl

/-- What a snapshot makes `VALID` is linked, and the book is at its end. -/
theorem linked_of_valid
    (sequenced : ConnectionBook.Sequenced before.pending)
    (present : applicable snapshot.lastUpdateId before.pending ≠ [])
    (valid : (before.onSnapshot snapshot).1.state = .valid) :
    PuLinked (applicable snapshot.lastUpdateId before.pending) ∧
      (before.onSnapshot snapshot).1.previousUpdateId =
        lastFinal none
          (applicable snapshot.lastUpdateId before.pending) := by
  cases isApplicable : applicable snapshot.lastUpdateId before.pending with
  | nil => exact absurd isApplicable present
  | cons head rest =>
      have outcome :=
        ConnectionBook.onSnapshot_of_applicable sequenced isApplicable
      have reached : ((before.anchoredBy snapshot).apply
          head).previousUpdateId = some head.finalUpdateId := rfl
      split at outcome
      next broken stopped =>
        rw [outcome.1] at valid
        simp [ConnectionBook.invalidate] at valid
      next completed =>
        refine ⟨(ConnectionBook.applyBuffered_completes_iff reached).mp
          completed, ?_⟩
        rw [outcome.1, ConnectionBook.replay_eq]
        show lastFinal (some snapshot.lastUpdateId) (head :: rest) = _
        rw [lastFinal_cons, ← lastFinal_cons none]

theorem onlyBridge_of_recovered
    (sequenced : ConnectionBook.Sequenced before.pending)
    (contains : bridge.Bridges snapshot.lastUpdateId)
    (linked : PuLinked (bridge :: post))
    (ascending : bridge.previousFinalUpdateId < bridge.firstUpdateId)
    (recovered : Recovered snapshot (skipped ++ bridge :: post)
      (bridge :: post) before) :
    OnlyBridge snapshot.lastUpdateId skipped post := by
  rcases recovered with ⟨pending, valid, previous, -, -⟩
  have whole : applicable snapshot.lastUpdateId before.pending =
      newerThan snapshot.lastUpdateId
        (fromBridge before.pending snapshot.lastUpdateId) :=
    fromBridge_filter _ _
  have keepsBridge : newerThan snapshot.lastUpdateId (bridge :: post) =
      bridge :: newerThan snapshot.lastUpdateId post :=
    List.filter_cons_of_pos (by simpa using contains.2)
  have apart : ∀ diff ∈ skipped, ¬ diff.Bridges snapshot.lastUpdateId := by
    by_contra overlapping
    push Not at overlapping
    cases isEarly : fromBridge skipped snapshot.lastUpdateId with
    | nil => exact fromBridge_ne_nil overlapping isEarly
    | cons head tail =>
        have nonempty : (fromBridge skipped
            snapshot.lastUpdateId).isEmpty = false := by
          rw [isEarly]
          rfl
        have isFrom : fromBridge before.pending snapshot.lastUpdateId =
            (head :: tail) ++ bridge :: post := by
          rw [pending, fromBridge, List.dropWhile_append, ← fromBridge,
            nonempty, ← isEarly]
          rfl
        have headNewer := (bridges_of_fromBridge isEarly).2
        have isWhole : applicable snapshot.lastUpdateId before.pending =
            (head :: newerThan snapshot.lastUpdateId tail ++ [bridge]) ++
              newerThan snapshot.lastUpdateId post := by
          rw [whole, isFrom, newerThan, List.filter_append, ← newerThan,
            ← newerThan, keepsBridge, newerThan,
            List.filter_cons_of_pos (by simpa using headNewer)]
          simp [newerThan]
        have isLinked := (linked_of_valid sequenced
          (by simp [isWhole]) valid).1
        rw [isWhole] at isLinked
        -- The bridge would name a diff which is newer than the snapshot.
        have names := (puLinked_concat_iff.mp
          (List.isChain_append.mp isLinked).1).2
        have reaches := le_lastFinal (fun diff member => by
          rcases List.mem_cons.mp member with rfl | inTail
          · exact headNewer
          · exact newer_of_mem_newerThan diff inTail) names
        have starts := contains.1
        omega
  refine ⟨apart, ?_⟩
  have isFrom : fromBridge (skipped ++ bridge :: post)
      snapshot.lastUpdateId = bridge :: post :=
    fromBridge_of_apart contains apart
  rw [← pending] at isFrom
  rw [isFrom, keepsBridge] at whole
  rcases linked_of_valid sequenced (by simp [whole]) valid with
    ⟨isLinked, isPrevious⟩
  rw [whole] at isLinked isPrevious
  have keepsAll := newerThan_eq_self contains.2 linked isLinked
    (isPrevious.symm.trans previous)
  rw [← keepsAll]
  exact newer_of_mem_newerThan

/--
A break among buffered diffs, the diffs which arrive after it, and a snapshot
whose ID lies in a received diff from which on everything is linked.  The book
recovers if the breaking diff was the last buffered one, no earlier diff
contains the snapshot and the snapshot contains no later one.  It loses diffs
unless the breaking diff was the last buffered one; and as long as the bridge
names an ID before its own range, the three conditions are necessary.
-/
theorem recovered_after_break_iff
    {book : ConnectionBook} {first second : DepthSnapshot}
    {earlier behind between skipped post : List DepthDiff}
    {broken bridge : DepthDiff}
    (pending : book.pending = earlier ++ broken :: behind)
    (breaks : BreaksAt first earlier broken)
    (sequenced : ConnectionBook.Sequenced (book.pending ++
      firstDeliveries book.seenDiffs (between.map .depth)))
    (received : broken :: behind ++
        firstDeliveries book.seenDiffs (between.map .depth) =
      skipped ++ bridge :: post)
    (contains : bridge.Bridges second.lastUpdateId)
    (linked : PuLinked (bridge :: post)) :
    let before :=
      ((book.onSnapshot first).1.deliver (between.map .depth)).1
    let recovers :=
      Recovered second (skipped ++ bridge :: post) (bridge :: post) before
    (behind = [] ∧ OnlyBridge second.lastUpdateId skipped post → recovers) ∧
      (recovers → behind = []) ∧
      (bridge.previousFinalUpdateId < bridge.firstUpdateId →
        (recovers ↔
          behind = [] ∧ OnlyBridge second.lastUpdateId skipped post)) := by
  intro before recovers
  have broke := onSnapshot_of_breaksAt pending
    (sequenced.sublist (List.sublist_append_left _ _)) breaks
  have isBefore : before.pending = broken ::
      firstDeliveries book.seenDiffs (between.map .depth) := by
    have unanchored : (book.onSnapshot first).1.Unanchored := by
      rw [broke.1]
      exact ⟨by simp [ConnectionBook.invalidate], rfl⟩
    rw [unanchored.deliver between, broke.1]
    rfl
  have whole : behind = [] → before.pending = skipped ++ bridge :: post := by
    rintro rfl
    exact isBefore.trans received
  have ordered : ConnectionBook.Sequenced before.pending := by
    rw [isBefore]
    apply List.Pairwise.sublist _ sequenced
    rw [pending, List.append_assoc]
    apply List.Sublist.trans _ (List.sublist_append_right earlier _)
    exact List.Sublist.cons_cons broken (List.sublist_append_right behind _)
  have lossless : recovers → behind = [] := by
    rintro ⟨kept, -, -, -, -⟩
    rw [isBefore, ← received] at kept
    have sameLength := congrArg List.length kept
    simpa using sameLength
  have enough : behind = [] ∧
      OnlyBridge second.lastUpdateId skipped post → recovers := by
    rintro ⟨nothingBehind, only⟩
    exact recovered_of_onlyBridge (whole nothingBehind) ordered contains
      linked only
  refine ⟨enough, lossless, fun ascending => ⟨fun recovered => ?_, enough⟩⟩
  exact ⟨lossless recovered, onlyBridge_of_recovered ordered contains linked
    ascending recovered⟩

end Recovery

/-! ## A diff behind the break -/

/-- The diff which bridges 102. -/
def bridgingDiff : DepthDiff := sampleDiff 1 101 103 100 [(97, 3)]

/-- The diff which names 106, and the one after it. -/
def brokenDiff : DepthDiff := sampleDiff 3 107 108 106 [(99, 0)]

def behindDiff : DepthDiff := sampleDiff 4 109 110 108 [(98, 2)]

def afterBreak : DepthSnapshot where
  connectionId := "a"
  receiveSeq := 5
  receivedNs := 500
  lastUpdateId := 107
  bids := [(97, 3)]
  asks := [(102, 1)]

def bufferingBook (diffs : List DepthDiff) : ConnectionBook :=
  (({ connectionId := "a" } : ConnectionBook).deliver
    (diffs.map .depth)).1

/-- The diff behind the break arrives after the snapshot, and nothing is lost. -/
theorem recovered_after_break_arriving :
    Recovered afterBreak ([] ++ brokenDiff :: [behindDiff])
      (brokenDiff :: [behindDiff])
      (((bufferingBook [bridgingDiff, brokenDiff]).onSnapshot
        bridgeSnapshot).1.deliver ([behindDiff].map .depth)).1 := by
  have pending : (bufferingBook [bridgingDiff, brokenDiff]).pending =
      [bridgingDiff] ++ brokenDiff :: [] := by decide +kernel
  have breaks : BreaksAt bridgeSnapshot [bridgingDiff] brokenDiff := by
    constructor <;> decide +kernel
  have only : OnlyBridge afterBreak.lastUpdateId [] [behindDiff] := by
    constructor <;> decide
  exact (recovered_after_break_iff pending breaks (by decide +kernel)
    (by decide +kernel) (by decide) (by decide)).1 ⟨rfl, only⟩

/-- Buffered before the snapshot it is lost, and the book is `VALID` without. -/
theorem buffered_break_loses_diff :
    ¬ ∀ (book : ConnectionBook) (first second : DepthSnapshot)
        (earlier behind between skipped post : List DepthDiff)
        (broken bridge : DepthDiff),
      book.pending = earlier ++ broken :: behind →
        BreaksAt first earlier broken →
        ConnectionBook.Sequenced (book.pending ++
          firstDeliveries book.seenDiffs (between.map .depth)) →
        broken :: behind ++
            firstDeliveries book.seenDiffs (between.map .depth) =
          skipped ++ bridge :: post →
        bridge.Bridges second.lastUpdateId →
        PuLinked (bridge :: post) →
          Recovered second (skipped ++ bridge :: post) (bridge :: post)
            ((book.onSnapshot first).1.deliver
              (between.map .depth)).1 := by
  intro claimed
  have recovered := claimed
    (bufferingBook [bridgingDiff, brokenDiff, behindDiff]) bridgeSnapshot
    afterBreak [bridgingDiff] [behindDiff] [] [] [behindDiff] brokenDiff
    brokenDiff (by decide +kernel) (by constructor <;> decide +kernel)
    (by decide +kernel) (by decide +kernel) (by decide) (by decide)
  have ends := recovered.previous
  revert ends
  decide +kernel

end ShadowDataPlane.Central
