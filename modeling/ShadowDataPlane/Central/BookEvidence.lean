import Mathlib.Data.List.TakeWhile
import ShadowDataPlane.Central.ConnectionBook

/-!
# What a connection book rests on

A book holds no more than the rows it was given justify.  `Supported` records
that justification: every buffered diff and the anchoring snapshot are rows
of the connection, a buffered diff never bridges the anchor of a book which is
not `VALID`, and a `VALID` book is inherited or has seen a snapshot and a diff
which bridge.

`BridgeOutcome` says once what an attempt to bridge can do; the delivery
lemmas below are read off from it and the rest of the development cites them
instead of unfolding the book.
-/

namespace ShadowDataPlane.Central

open ShadowDataPlane.Foundation

namespace ConnectionBook

theorem mem_candidates_iff
    {diffs : List DepthDiff} {lastUpdateId : Int} {diff : DepthDiff} :
    diff ∈ candidates diffs lastUpdateId ↔
      diff ∈ diffs ∧ lastUpdateId ≤ diff.finalUpdateId := by
  simp [candidates, sortBySequence,
    (List.perm_insertionSort _ diffs).mem_iff]

/-! ## Applying buffered diffs -/

@[simp]
theorem applyBuffered_connectionId
    (book : ConnectionBook) (diffs : List DepthDiff) :
    (book.applyBuffered diffs).1.connectionId = book.connectionId := by
  induction diffs generalizing book with
  | nil => rfl
  | cons diff rest induction =>
      simp only [applyBuffered]
      split
      · rfl
      · exact induction _

@[simp]
theorem applyBuffered_seenDiffs
    (book : ConnectionBook) (diffs : List DepthDiff) :
    (book.applyBuffered diffs).1.seenDiffs = book.seenDiffs := by
  induction diffs generalizing book with
  | nil => rfl
  | cons diff rest induction =>
      simp only [applyBuffered]
      split
      · rfl
      · exact induction _

theorem applyBuffered_linked
    (book : ConnectionBook) (diffs : List DepthDiff)
    (linked : book.previousUpdateId.isSome) :
    (book.applyBuffered diffs).1.previousUpdateId.isSome := by
  induction diffs generalizing book with
  | nil => exact linked
  | cons diff rest induction =>
      simp only [applyBuffered]
      split
      · exact linked
      · exact induction _ rfl

theorem applyBuffered_tradable
    (book : ConnectionBook) (diffs : List DepthDiff)
    (bids : Tradable book.bids) (asks : Tradable book.asks) :
    Tradable (book.applyBuffered diffs).1.bids ∧
      Tradable (book.applyBuffered diffs).1.asks := by
  induction diffs generalizing book with
  | nil => exact ⟨bids, asks⟩
  | cons diff rest induction =>
      simp only [applyBuffered]
      split
      · exact ⟨bids, asks⟩
      · exact induction _ (applyLevels_tradable bids _)
          (applyLevels_tradable asks _)

theorem applyBuffered_discontinuity_mem
    (book : ConnectionBook) {diffs : List DepthDiff} {diff : DepthDiff}
    (stopped : (book.applyBuffered diffs).2 = some diff) :
    diff ∈ diffs := by
  induction diffs generalizing book with
  | nil => simp [applyBuffered] at stopped
  | cons head rest induction =>
      simp only [applyBuffered] at stopped
      split at stopped
      · rw [← Option.some.inj stopped]
        exact List.mem_cons_self
      · exact List.mem_cons_of_mem _ (induction _ stopped)

/-! ## Bridging -/

/-- Everything an attempt to bridge can do to a book. -/
inductive BridgeOutcome (book : ConnectionBook) :
    ConnectionBook × Option StateChange → Prop where
  | unanchored
      (absent :
        book.anchorLastUpdateId = none ∨ book.anchorReceivedNs = none) :
      BridgeOutcome book (book, none)
  | waiting (anchor received)
      (anchored : book.anchorLastUpdateId = some anchor)
      (receivedAt : book.anchorReceivedNs = some received)
      (apart : ∀ diff ∈ candidates book.pending anchor,
        ¬ diff.Bridges anchor) :
      BridgeOutcome book
        ({ book with pending := candidates book.pending anchor }, none)
  | bridged (anchor received bridge) (applied : ConnectionBook)
      (anchored : book.anchorLastUpdateId = some anchor)
      (receivedAt : book.anchorReceivedNs = some received)
      (member : bridge ∈ book.pending)
      (bridges : bridge.Bridges anchor)
      (sameConnection : applied.connectionId = book.connectionId)
      (sameSeen : applied.seenDiffs = book.seenDiffs)
      (linked : applied.previousUpdateId.isSome)
      (tradable : Tradable book.bids → Tradable book.asks →
        Tradable applied.bids ∧ Tradable applied.asks) :
      BridgeOutcome book
        ({ applied with
            pending := []
            state := .valid
            anchorLastUpdateId := none
            anchorReceivedNs := none },
          some
            { connectionId := book.connectionId
              atNs := max received bridge.receivedNs
              state := .valid
              updateId := applied.previousUpdateId
              reason := "snapshot_bridge" })
  | discontinuous (diff)
      (member : diff ∈ book.pending) :
      BridgeOutcome book
        ({ book.invalidate with pending := [diff] },
          some
            { connectionId := book.connectionId
              atNs := diff.receivedNs
              state := .gapped
              updateId := some diff.finalUpdateId
              reason := "buffered_pu_discontinuity" })

theorem mem_of_dropWhile_eq_cons
    {test : DepthDiff → Bool} {diffs rest : List DepthDiff} {head : DepthDiff}
    (dropped : diffs.dropWhile test = head :: rest) :
    ∀ diff ∈ head :: rest, diff ∈ diffs := by
  intro diff member
  rw [← dropped] at member
  exact (List.dropWhile_suffix test).subset member

theorem tryBridge_outcome (book : ConnectionBook) :
    BridgeOutcome book book.tryBridge := by
  unfold tryBridge
  split
  next anchor received anchored receivedAt =>
    dsimp only
    split
    next none_bridges =>
      refine .waiting anchor received anchored receivedAt ?_
      intro diff member bridges
      have rejected := List.dropWhile_eq_nil_iff.mp none_bridges diff member
      simp [bridges] at rejected
    next bridge rest dropped =>
      have bridges : bridge.Bridges anchor := by
        have head := List.head?_dropWhile_not
          (fun diff : DepthDiff => decide ¬ diff.Bridges anchor)
          (candidates book.pending anchor)
        rw [dropped] at head
        simpa using head
      have pendingOf : ∀ diff ∈ bridge :: rest, diff ∈ book.pending :=
        fun diff member =>
          (mem_candidates_iff.mp
            (mem_of_dropWhile_eq_cons dropped diff member)).1
      split
      next applied diff stopped =>
        have inRest : diff ∈ rest := by
          apply applyBuffered_discontinuity_mem (book.apply bridge)
          rw [stopped]
        have sameConnection := applyBuffered_connectionId (book.apply bridge) rest
        have sameSeen := applyBuffered_seenDiffs (book.apply bridge) rest
        rw [stopped] at sameConnection sameSeen
        have outcome : BridgeOutcome book _ := .discontinuous diff
          (pendingOf diff (List.mem_cons_of_mem _ inRest))
        simp only [apply] at sameConnection sameSeen
        simpa [invalidate, sameConnection, sameSeen] using outcome
      next applied completed =>
        have sameConnection := applyBuffered_connectionId (book.apply bridge) rest
        have sameSeen := applyBuffered_seenDiffs (book.apply bridge) rest
        rw [completed] at sameConnection sameSeen
        have outcome : BridgeOutcome book _ := .bridged
          anchor received bridge applied anchored receivedAt
          (pendingOf bridge List.mem_cons_self) bridges
          (by simpa [apply] using sameConnection)
          (by simpa [apply] using sameSeen)
          (by simpa [completed] using
            applyBuffered_linked (book.apply bridge) rest rfl)
          (fun bids asks => by
            have kept := applyBuffered_tradable (book.apply bridge) rest
              (applyLevels_tradable bids _) (applyLevels_tradable asks _)
            rwa [completed] at kept)
        simp only [apply] at sameConnection
        simpa [sameConnection] using outcome
  next absent =>
    refine .unanchored ?_
    cases anchored : book.anchorLastUpdateId with
    | none => exact Or.inl rfl
    | some anchor =>
        cases receivedAt : book.anchorReceivedNs with
        | none => exact Or.inr rfl
        | some received => exact (absent anchor received anchored receivedAt).elim

theorem tryBridge_connectionId (book : ConnectionBook) :
    book.tryBridge.1.connectionId = book.connectionId := by
  have outcome := tryBridge_outcome book
  generalize book.tryBridge = result at outcome
  cases outcome with
  | unanchored absent => rfl
  | waiting anchor received anchored receivedAt apart => rfl
  | bridged anchor received bridge applied anchored receivedAt member bridges
      sameConnection sameSeen linked tradable => exact sameConnection
  | discontinuous diff member => rfl

theorem onRow_connectionId (book : ConnectionBook) (row : DepthRow) :
    (book.onRow row).1.connectionId = book.connectionId := by
  cases row with
  | depthSnapshot snapshot => exact tryBridge_connectionId _
  | depth diff =>
      show (book.onDiff diff).1.connectionId = book.connectionId
      unfold onDiff
      split
      · rfl
      · dsimp only
        split
        · exact tryBridge_connectionId _
        · split <;> rfl

/-! ## Support -/

/-- A snapshot and a diff of one connection which bridge. -/
def Bridged (rows : List DepthRow) (connection : String) : Prop :=
  ∃ snapshot diff,
    DepthRow.depthSnapshot snapshot ∈ rows ∧ DepthRow.depth diff ∈ rows ∧
      snapshot.connectionId = connection ∧ diff.connectionId = connection ∧
      diff.Bridges snapshot.lastUpdateId

/--
A book which holds nothing beyond what `rows`, received by `now`, justify;
`inherited` is the claim that it was `VALID` before any of them.
-/
structure Supported
    (inherited : Prop) (rows : List DepthRow) (now : Nat)
    (book : ConnectionBook) : Prop where
  pending : ∀ diff ∈ book.pending,
    diff.connectionId = book.connectionId ∧
      DepthRow.depth diff ∈ rows ∧ diff.receivedNs ≤ now
  anchored : ∀ anchor, book.anchorLastUpdateId = some anchor →
    ∃ snapshot,
      DepthRow.depthSnapshot snapshot ∈ rows ∧
        snapshot.connectionId = book.connectionId ∧
        snapshot.lastUpdateId = anchor ∧
        book.anchorReceivedNs = some snapshot.receivedNs ∧
        snapshot.receivedNs ≤ now
  untimed : book.anchorLastUpdateId = none → book.anchorReceivedNs = none
  unbridged : ∀ anchor, book.anchorLastUpdateId = some anchor →
    book.state ≠ .valid → ∀ diff ∈ book.pending,
      anchor ≤ diff.finalUpdateId ∧ ¬ diff.Bridges anchor
  settled : book.state = .valid → book.pending = []
  linked : book.state = .valid → book.previousUpdateId.isSome
  bridged : book.state = .valid →
    inherited ∨ Bridged rows book.connectionId
  bidsTradable : Tradable book.bids
  asksTradable : Tradable book.asks

theorem Bridged.mono
    {before after : List DepthRow} {connection : String}
    (subset : before ⊆ after) (bridged : Bridged before connection) :
    Bridged after connection := by
  obtain ⟨snapshot, diff, snapshotMember, diffMember, rest⟩ := bridged
  exact ⟨snapshot, diff, subset snapshotMember, subset diffMember, rest⟩

theorem Supported.mono
    {inherited : Prop} {before after : List DepthRow} {earlier later : Nat}
    {book : ConnectionBook}
    (supported : Supported inherited before earlier book)
    (subset : before ⊆ after) (ordered : earlier ≤ later) :
    Supported inherited after later book where
  pending := fun diff member =>
    have ⟨connection, received, time⟩ := supported.pending diff member
    ⟨connection, subset received, time.trans ordered⟩
  anchored := fun anchor present =>
    have ⟨snapshot, received, connection, anchorId, anchorTime, time⟩ :=
      supported.anchored anchor present
    ⟨snapshot, subset received, connection, anchorId, anchorTime,
      time.trans ordered⟩
  untimed := supported.untimed
  unbridged := supported.unbridged
  settled := supported.settled
  linked := supported.linked
  bridged := fun valid =>
    (supported.bridged valid).imp_right fun bridged => bridged.mono subset
  bidsTradable := supported.bidsTradable
  asksTradable := supported.asksTradable

theorem Supported.imp
    {inherited inherited' : Prop} {rows : List DepthRow} {now : Nat}
    {book : ConnectionBook}
    (supported : Supported inherited rows now book)
    (weaker : inherited → inherited') : Supported inherited' rows now book where
  pending := supported.pending
  anchored := supported.anchored
  untimed := supported.untimed
  unbridged := supported.unbridged
  settled := supported.settled
  linked := supported.linked
  bridged := fun valid => (supported.bridged valid).imp_left weaker
  bidsTradable := supported.bidsTradable
  asksTradable := supported.asksTradable

theorem supported_fresh
    (inherited : Prop) (rows : List DepthRow) (now : Nat)
    (connection : String) :
    Supported inherited rows now { connectionId := connection } where
  pending := by simp
  anchored := by simp
  untimed := by simp
  unbridged := by simp
  settled := by simp
  linked := by simp
  bridged := by simp
  bidsTradable := tradable_empty
  asksTradable := tradable_empty

theorem supported_invalidate
    (inherited : Prop) (rows : List DepthRow) (now : Nat)
    (book : ConnectionBook) :
    Supported inherited rows now book.invalidate where
  pending := by simp [invalidate]
  anchored := by simp [invalidate]
  untimed := by simp [invalidate]
  unbridged := by simp [invalidate]
  settled := by simp [invalidate]
  linked := by simp [invalidate]
  bridged := by simp [invalidate]
  bidsTradable := tradable_empty
  asksTradable := tradable_empty

/-- What the delivery of a row received at `now` guarantees. -/
structure Delivered
    (inherited : Prop) (rows : List DepthRow) (now : Nat)
    (book : ConnectionBook)
    (result : ConnectionBook × Option StateChange) : Prop where
  supported : Supported inherited rows now result.1
  sameConnection : result.1.connectionId = book.connectionId
  changeConnection : ∀ change, result.2 = some change →
    change.connectionId = book.connectionId
  quiet : result.2 = none → (result.1.state = .valid ↔ book.state = .valid)
  validated : ∀ change, result.2 = some change → change.state = .valid →
    book.state ≠ .valid ∧ result.1.state = .valid ∧ change.atNs = now
  gapped : ∀ change, result.2 = some change → change.state ≠ .valid →
    result.1.state ≠ .valid ∧ (book.state = .valid → change.atNs = now)

/-- A book left with one buffered diff and nothing else. -/
theorem supported_single_pending
    {inherited : Prop} {rows : List DepthRow} {now : Nat} {book : ConnectionBook}
    {diff : DepthDiff}
    (connection : diff.connectionId = book.connectionId)
    (received : DepthRow.depth diff ∈ rows) (time : diff.receivedNs ≤ now) :
    Supported inherited rows now
      { book.invalidate with pending := [diff] } where
  pending := by
    intro other member
    rw [List.mem_singleton.mp member]
    exact ⟨connection, received, time⟩
  anchored := by simp [invalidate]
  untimed := by simp [invalidate]
  unbridged := by simp [invalidate]
  settled := by simp [invalidate]
  linked := by simp [invalidate]
  bridged := by simp [invalidate]
  bidsTradable := tradable_empty
  asksTradable := tradable_empty

/--
Bridging a book which is not `VALID`, whose buffered diffs and anchor are
supported and for which only rows received at `now` can bridge.
-/
theorem tryBridge_delivered
    {inherited : Prop} {rows : List DepthRow} {now : Nat} {before book : ConnectionBook}
    (sameConnection : book.connectionId = before.connectionId)
    (sameValidity : book.state = before.state)
    (notValid : book.state ≠ .valid)
    (pending : ∀ diff ∈ book.pending,
      diff.connectionId = book.connectionId ∧
        DepthRow.depth diff ∈ rows ∧ diff.receivedNs ≤ now)
    (anchored : ∀ anchor, book.anchorLastUpdateId = some anchor →
      ∃ snapshot,
        DepthRow.depthSnapshot snapshot ∈ rows ∧
          snapshot.connectionId = book.connectionId ∧
          snapshot.lastUpdateId = anchor ∧
          book.anchorReceivedNs = some snapshot.receivedNs ∧
          snapshot.receivedNs ≤ now)
    (untimed :
      book.anchorLastUpdateId = none → book.anchorReceivedNs = none)
    (bids : Tradable book.bids) (asks : Tradable book.asks)
    (bridgesNow : ∀ anchor received,
      book.anchorLastUpdateId = some anchor →
      book.anchorReceivedNs = some received →
      ∀ diff ∈ book.pending, diff.Bridges anchor →
        max received diff.receivedNs = now) :
    Delivered inherited rows now before book.tryBridge := by
  have outcome := tryBridge_outcome book
  generalize book.tryBridge = result at outcome
  cases outcome with
  | unanchored absent =>
      have noAnchor : book.anchorLastUpdateId = none := by
        rcases absent with noAnchor | noTime
        · exact noAnchor
        · cases present : book.anchorLastUpdateId with
          | none => rfl
          | some anchor =>
              obtain ⟨snapshot, _, _, _, time, _⟩ := anchored anchor present
              simp [noTime] at time
      exact {
        supported := {
          pending := pending
          anchored := anchored
          untimed := untimed
          unbridged := by simp [noAnchor]
          settled := fun valid => (notValid valid).elim
          linked := fun valid => (notValid valid).elim
          bridged := fun valid => (notValid valid).elim
          bidsTradable := bids
          asksTradable := asks }
        sameConnection := sameConnection
        changeConnection := by simp
        quiet := fun _ => by rw [sameValidity]
        validated := by simp
        gapped := by simp }
  | waiting anchor received anchorId anchorTime apart =>
      exact {
        supported := {
          pending := fun diff member =>
            pending diff (mem_candidates_iff.mp member).1
          anchored := anchored
          untimed := untimed
          unbridged := fun other present _ diff member => by
            have same : anchor = other :=
              Option.some.inj (anchorId.symm.trans present)
            exact same ▸
              ⟨(mem_candidates_iff.mp member).2, apart diff member⟩
          settled := fun valid => (notValid valid).elim
          linked := fun valid => (notValid valid).elim
          bridged := fun valid => (notValid valid).elim
          bidsTradable := bids
          asksTradable := asks }
        sameConnection := sameConnection
        changeConnection := by simp
        quiet := fun _ => by
          change book.state = .valid ↔ before.state = .valid
          rw [sameValidity]
        validated := by simp
        gapped := by simp }
  | bridged anchor received bridge applied anchorId anchorTime member bridges
      appliedConnection appliedSeen appliedLinked appliedTradable =>
      obtain ⟨snapshot, snapshotRow, snapshotConnection, snapshotId, _, _⟩ :=
        anchored anchor anchorId
      obtain ⟨bridgeConnection, bridgeRow, _⟩ := pending bridge member
      have evidence : Bridged rows book.connectionId :=
        ⟨snapshot, bridge, snapshotRow, bridgeRow, snapshotConnection,
          bridgeConnection, snapshotId ▸ bridges⟩
      exact {
        supported := {
          pending := by simp
          anchored := by simp
          untimed := by simp
          unbridged := by simp
          settled := fun _ => rfl
          linked := fun _ => appliedLinked
          bridged := fun _ => by
            simpa [appliedConnection] using Or.inr evidence
          bidsTradable := (appliedTradable bids asks).1
          asksTradable := (appliedTradable bids asks).2 }
        sameConnection := by simpa [appliedConnection] using sameConnection
        changeConnection := by
          intro change produced
          rw [← Option.some.inj produced]
          exact sameConnection
        quiet := by simp
        validated := by
          intro change produced _
          rw [← Option.some.inj produced]
          exact ⟨sameValidity ▸ notValid, rfl,
            bridgesNow anchor received anchorId anchorTime bridge member
              bridges⟩
        gapped := by
          intro change produced notValidChange
          rw [← Option.some.inj produced] at notValidChange
          simp at notValidChange }
  | discontinuous diff member =>
      obtain ⟨connection, row, time⟩ := pending diff member
      exact {
        supported := supported_single_pending connection row time
        sameConnection := sameConnection
        changeConnection := by
          intro change produced
          rw [← Option.some.inj produced]
          exact sameConnection
        quiet := by simp
        validated := by
          intro change produced validChange
          rw [← Option.some.inj produced] at validChange
          simp at validChange
        gapped := by
          intro change produced _
          refine ⟨by simp [invalidate], fun valid => ?_⟩
          exact (notValid (sameValidity ▸ valid)).elim }

/-- Delivering a diff to a supported book. -/
theorem onDiff_delivered
    {inherited : Prop} {rows : List DepthRow} {now : Nat}
    {book : ConnectionBook}
    (supported : Supported inherited rows now book)
    (diff : DepthDiff)
    (connection : diff.connectionId = book.connectionId)
    (ordered : now ≤ diff.receivedNs) :
    Delivered inherited (rows ++ [.depth diff]) diff.receivedNs book
      (book.onDiff diff) := by
  have carried :
      Supported inherited (rows ++ [.depth diff]) diff.receivedNs book :=
    supported.mono (List.subset_append_left _ _) ordered
  have received : DepthRow.depth diff ∈ rows ++ [.depth diff] := by simp
  unfold onDiff
  split
  next =>
    exact {
      supported := carried
      sameConnection := rfl
      changeConnection := by simp
      quiet := fun _ => Iff.rfl
      validated := by simp
      gapped := by simp }
  next =>
    dsimp only
    split
    next notValid =>
      refine tryBridge_delivered rfl rfl notValid ?_ carried.anchored
        carried.untimed carried.bidsTradable carried.asksTradable ?_
      · intro other member
        rcases List.mem_append.mp member with old | new
        · exact carried.pending other old
        · rw [List.mem_singleton.mp new]
          exact ⟨connection, received, le_refl _⟩
      · intro anchor anchorTime anchorId anchorReceived other member bridges
        obtain ⟨snapshot, _, _, _, sameTime, time⟩ :=
          carried.anchored anchor anchorId
        have anchorLe : anchorTime ≤ diff.receivedNs := by
          have equal : snapshot.receivedNs = anchorTime :=
            Option.some.inj (sameTime.symm.trans anchorReceived)
          exact equal ▸ time
        rcases List.mem_append.mp member with old | new
        · exact ((carried.unbridged anchor anchorId notValid other old).2
            bridges).elim
        · rw [List.mem_singleton.mp new]
          exact max_eq_right anchorLe
    next valid =>
      have isValid : book.state = .valid := by simpa using valid
      split
      next =>
        exact {
          supported :=
            supported_single_pending connection received (le_refl _)
          sameConnection := rfl
          changeConnection := by
            intro change produced
            rw [← Option.some.inj produced]
          quiet := by simp
          validated := by
            intro change produced validChange
            rw [← Option.some.inj produced] at validChange
            simp at validChange
          gapped := by
            intro change produced _
            rw [← Option.some.inj produced]
            exact ⟨by simp [invalidate], fun _ => rfl⟩ }
      next =>
        exact {
          supported := {
            pending := carried.pending
            anchored := carried.anchored
            untimed := carried.untimed
            unbridged := carried.unbridged
            settled := carried.settled
            linked := fun _ => rfl
            bridged := carried.bridged
            bidsTradable := applyLevels_tradable carried.bidsTradable _
            asksTradable := applyLevels_tradable carried.asksTradable _ }
          sameConnection := rfl
          changeConnection := by simp
          quiet := fun _ => Iff.rfl
          validated := by simp
          gapped := by simp }

/-- Delivering a snapshot to a supported book. -/
theorem onSnapshot_delivered
    {inherited : Prop} {rows : List DepthRow} {now : Nat}
    {book : ConnectionBook}
    (supported : Supported inherited rows now book)
    (snapshot : DepthSnapshot)
    (connection : snapshot.connectionId = book.connectionId)
    (ordered : now ≤ snapshot.receivedNs) :
    Delivered inherited (rows ++ [.depthSnapshot snapshot]) snapshot.receivedNs book
      (book.onSnapshot snapshot) := by
  have carried :
      Supported inherited (rows ++ [.depthSnapshot snapshot])
        snapshot.receivedNs book :=
    supported.mono (List.subset_append_left _ _) ordered
  have anchored : ∀ anchor, some snapshot.lastUpdateId = some anchor →
      ∃ other,
        DepthRow.depthSnapshot other ∈ rows ++ [.depthSnapshot snapshot] ∧
          other.connectionId = book.connectionId ∧
          other.lastUpdateId = anchor ∧
          some snapshot.receivedNs = some other.receivedNs ∧
          other.receivedNs ≤ snapshot.receivedNs := by
    intro anchor same
    exact ⟨snapshot, by simp, connection, Option.some.inj same, rfl,
      le_refl _⟩
  unfold onSnapshot
  by_cases valid : book.state = .valid
  · -- A `VALID` book has nothing buffered, so the snapshot only anchors it.
    have nothing : book.pending = [] := carried.settled valid
    simp only [tryBridge, nothing, candidates, sortBySequence,
      List.insertionSort_nil, List.filter_nil, List.dropWhile_nil]
    exact {
      supported := {
        pending := by simp
        anchored := anchored
        untimed := by simp
        unbridged := fun _ _ _ diff member => by simp at member
        settled := fun _ => rfl
        linked := fun _ => rfl
        bridged := fun _ => carried.bridged valid
        bidsTradable := bookSide_tradable _
        asksTradable := bookSide_tradable _ }
      sameConnection := rfl
      changeConnection := by simp
      quiet := fun _ => Iff.rfl
      validated := by simp
      gapped := by simp }
  · refine tryBridge_delivered rfl rfl valid carried.pending anchored
      (by simp) (bookSide_tradable _) (bookSide_tradable _) ?_
    intro anchor received _ sameTime diff member _
    have equal : snapshot.receivedNs = received := Option.some.inj sameTime
    obtain ⟨_, _, time⟩ := carried.pending diff member
    rw [← equal]
    exact max_eq_left time

theorem onRow_delivered
    {inherited : Prop} {rows : List DepthRow} {now : Nat}
    {book : ConnectionBook}
    (supported : Supported inherited rows now book)
    (row : DepthRow)
    (connection : row.connectionId = book.connectionId)
    (ordered : now ≤ row.receivedNs) :
    Delivered inherited (rows ++ [row]) row.receivedNs book (book.onRow row) := by
  cases row with
  | depth diff => exact onDiff_delivered supported diff connection ordered
  | depthSnapshot snapshot =>
      exact onSnapshot_delivered supported snapshot connection ordered

end ConnectionBook

end ShadowDataPlane.Central
