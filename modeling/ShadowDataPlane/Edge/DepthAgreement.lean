import ShadowDataPlane.Central.SequencedBook
import ShadowDataPlane.Edge.SequenceGaps

/-!
# Depth discontinuities on the edge and in the book

`_check_depth_sequence` compares the `pu` of a diff with the `u` before it,
opens an `L2_SEQUENCE` gap for a discontinuity and has a task fetch a snapshot.
It says nothing while such a task is entered for the stream or a requested
snapshot is pending.  The book decides from the rows which the connection
recorded.

Most of the time that is enough: as long as a snapshot is to come, nothing is
lost by silence.  `Reanchoring` excludes the steps in which the two part, a
discontinuity which meets the entry of a task which has its snapshot, and a
last snapshot which leaves the book apart from the last diff of the edge.  A
run without such steps keeps `Anchored`.

The model is one stream of one symbol on one connection.  Receiving is one
coroutine, which waits while a gap is being opened; the snapshots are fetched
by others.  An event is numbered and put into its queue under one lock, so the
rows are in the order of their numbers.
-/

namespace ShadowDataPlane.Edge

open ShadowDataPlane.Central
open ShadowDataPlane.Foundation

/-! ## The connection -/

/-- The entry of the stream in `_resync_tasks`. -/
inductive ResyncPhase where
  | absent
  /-- `_on_depth_gap` is awaited by the receiving coroutine. -/
  | opening
  | fetching
  /-- The snapshot is recorded, `_on_depth_reanchored` is awaited. -/
  | closing
  /-- The task has ended, and the loop has not removed it yet. -/
  | ended
deriving DecidableEq

/-- A connection as far as one depth stream goes. -/
structure DepthConnection where
  connectionId : String
  /-- `identity._sequence`. -/
  sequence : Nat := 0
  /-- The stream's entry in `_previous_u`. -/
  previousU : Option Int := none
  resync : ResyncPhase := .absent
  /-- The symbol is in `_snapshot_pending`. -/
  pending : Bool
  /-- Requested snapshots which are not recorded yet. -/
  outstanding : Nat
  rows : List DepthRow := []
deriving DecidableEq

namespace DepthConnection

/-- The central book after the rows which the connection recorded. -/
def book (connection : DepthConnection) : ConnectionBook :=
  (({ connectionId := connection.connectionId } : ConnectionBook).deliver
    connection.rows).1

/-- A diff as it is recorded. -/
def recordDiff (connection : DepthConnection) (diff : DepthDiff) : DepthDiff :=
  { diff with
    connectionId := connection.connectionId
    receiveSeq := connection.sequence + 1 }

def recordSnapshot (connection : DepthConnection) (snapshot : DepthSnapshot) :
    DepthSnapshot :=
  { snapshot with
    connectionId := connection.connectionId
    receiveSeq := connection.sequence + 1 }

/-- Record a diff and check its sequence. -/
def receive (connection : DepthConnection) (diff : DepthDiff) :
    DepthConnection :=
  { connection with
    sequence := connection.sequence + 1
    previousU := some diff.finalUpdateId
    resync :=
      if sequenceSilent connection.previousU diff.previousFinalUpdateId
          (connection.resync ≠ .absent) connection.pending then
        connection.resync
      else .opening
    rows := connection.rows ++ [.depth (connection.recordDiff diff)] }

/-- Record a fetched snapshot. -/
def capture (connection : DepthConnection) (snapshot : DepthSnapshot) :
    DepthConnection :=
  { connection with
    sequence := connection.sequence + 1
    pending := false
    rows := connection.rows ++
      [.depthSnapshot (connection.recordSnapshot snapshot)] }

end DepthConnection

/-- What happens to the stream next. -/
inductive DepthLabel where
  | receive (diff : DepthDiff)
  | gapOpened
  /-- The task of the stream records its snapshot. -/
  | reanchor (snapshot : DepthSnapshot)
  | gapClosed
  | removeTask
  /-- An update of the subscriptions asks for a snapshot. -/
  | request
  /-- A requested snapshot is recorded. -/
  | captureRequested (snapshot : DepthSnapshot)
deriving DecidableEq

/-- One step of the receiving coroutine or of those which fetch snapshots. -/
def depthStep (connection : DepthConnection) :
    DepthLabel → Option DepthConnection
  | .receive diff =>
      if connection.resync = .opening then none
      else some (connection.receive diff)
  | .gapOpened =>
      if connection.resync = .opening then
        some { connection with resync := .fetching }
      else none
  | .reanchor snapshot =>
      if connection.resync = .fetching then
        some { connection.capture snapshot with resync := .closing }
      else none
  | .gapClosed =>
      if connection.resync = .closing then
        some { connection with resync := .ended }
      else none
  | .removeTask =>
      if connection.resync = .ended then
        some { connection with resync := .absent }
      else none
  | .request =>
      if connection.resync = .opening then none
      else
        some { connection with
          pending := true
          outstanding := connection.outstanding + 1 }
  | .captureRequested snapshot =>
      match connection.outstanding with
      | 0 => none
      | others + 1 =>
          some { connection.capture snapshot with outstanding := others }

/-- A connection which was started with or without a request for the symbol. -/
def startDepth (connectionId : String) (requested : Bool) :
    DepthConnection where
  connectionId
  pending := requested
  outstanding := if requested then 1 else 0

/-! ## The property -/

namespace DepthConnection

/-- An `L2_SEQUENCE` gap of the stream is open, or is being opened. -/
def GapOpen (connection : DepthConnection) : Prop :=
  connection.resync = .opening ∨ connection.resync = .fetching ∨
    connection.resync = .closing

/-- A snapshot which was asked for is still to be recorded. -/
def Awaits (connection : DepthConnection) : Prop :=
  0 < connection.outstanding ∨ connection.resync = .opening ∨
    connection.resync = .fetching

instance (connection : DepthConnection) : Decidable connection.GapOpen :=
  inferInstanceAs (Decidable (_ ∨ _ ∨ _))

instance (connection : DepthConnection) : Decidable connection.Awaits :=
  inferInstanceAs (Decidable (_ ∨ _ ∨ _))

end DepthConnection

/-- A row has gapped the book by a discontinuity, and no snapshot came after. -/
def GappedSince (connectionId : String) (rows : List DepthRow) : Prop :=
  ∃ earlier row later, rows = earlier ++ row :: later ∧
    (∃ change ∈ ((({ connectionId } : ConnectionBook).deliver
      earlier).1.onRow row).2, change.state = .gapped) ∧
    ∀ other ∈ later, other.snapshot? = none

/--
If the rows leave the book not `VALID` by a discontinuity, with no snapshot
after it, the edge has the gap open or a snapshot outstanding.
-/
def Agrees (connection : DepthConnection) : Prop :=
  GappedSince connection.connectionId connection.rows →
    connection.book.state ≠ .valid →
      connection.GapOpen ∨ connection.Awaits

/-! ## The condition -/

/-- What a snapshot finds in the buffer leads to the last diff of the edge. -/
def LeadsTo (connection : DepthConnection) (snapshot : DepthSnapshot) :
    List DepthDiff → Prop
  | [] =>
      connection.book.state = .valid →
        connection.previousU = some snapshot.lastUpdateId
  | bridge :: rest =>
      PuLinked (bridge :: rest) ∧
        connection.previousU = lastFinal none (bridge :: rest)

/--
A snapshot keeps a `VALID` book at the edge's last diff, or bridges to it, or
to nothing.
-/
def Reaches (connection : DepthConnection) (snapshot : DepthSnapshot) : Prop :=
  LeadsTo connection snapshot
    (applicable snapshot.lastUpdateId connection.book.pending)

/--
The book takes a diff which follows, and the edge notices one which does not.
-/
def Notices (connection : DepthConnection) (diff : DepthDiff) : Prop :=
  (connection.previousU = some diff.previousFinalUpdateId →
    diff.identity ∉ connection.book.seenDiffs ∨
      diff.finalUpdateId = diff.previousFinalUpdateId) ∧
  (connection.previousU ≠ some diff.previousFinalUpdateId →
    connection.resync = .absent)

/--
While no snapshot is to come, a `VALID` book and the edge see the same diffs,
and no discontinuity meets the entry of a task which has its snapshot.  A
snapshot reaches the edge's last diff, or is not the last to come.
-/
def Reanchoring (connection : DepthConnection) : DepthLabel → Prop
  | .receive diff =>
      connection.book.state = .valid → ¬ connection.Awaits →
        Notices connection diff
  | .reanchor snapshot =>
      0 < connection.outstanding ∨ Reaches connection snapshot
  | .captureRequested snapshot =>
      1 < connection.outstanding ∨ connection.resync = .opening ∨
        connection.resync = .fetching ∨ Reaches connection snapshot
  | _ => True

instance (connection : DepthConnection) (snapshot : DepthSnapshot) :
    (diffs : List DepthDiff) → Decidable (LeadsTo connection snapshot diffs)
  | [] => inferInstanceAs (Decidable (_ → _))
  | _ :: _ => inferInstanceAs (Decidable (_ ∧ _))

instance (connection : DepthConnection) (snapshot : DepthSnapshot) :
    Decidable (Reaches connection snapshot) :=
  inferInstanceAs (Decidable (LeadsTo connection snapshot _))

instance (connection : DepthConnection) (diff : DepthDiff) :
    Decidable (Notices connection diff) :=
  inferInstanceAs (Decidable (_ ∧ _))

instance (connection : DepthConnection) :
    (label : DepthLabel) → Decidable (Reanchoring connection label)
  | .receive _ => inferInstanceAs (Decidable (_ → _ → _))
  | .reanchor _ => inferInstanceAs (Decidable (_ ∨ _))
  | .captureRequested _ => inferInstanceAs (Decidable (_ ∨ _ ∨ _ ∨ _))
  | .gapOpened | .gapClosed | .removeTask | .request =>
      inferInstanceAs (Decidable True)

/-! ## Rows -/

theorem deliver_concat
    (book : ConnectionBook) (rows : List DepthRow) (row : DepthRow) :
    (book.deliver (rows ++ [row])).1 = ((book.deliver rows).1.onRow row).1 := by
  induction rows generalizing book with
  | nil => rfl
  | cons head rest induction => exact induction _

/-- A discontinuity of the last row, or one before it and no snapshot. -/
theorem gappedSince_concat
    {connectionId : String} {rows : List DepthRow} {row : DepthRow}
    (gapped : GappedSince connectionId (rows ++ [row])) :
    (∃ change ∈ ((({ connectionId } : ConnectionBook).deliver
        rows).1.onRow row).2, change.state = .gapped) ∨
      row.snapshot? = none ∧ GappedSince connectionId rows := by
  rcases gapped with ⟨earlier, cause, later, isSplit, breaks, noSnapshot⟩
  rcases List.eq_nil_or_concat later with rfl | ⟨before, last, rfl⟩
  · rcases List.append_inj' isSplit rfl with ⟨rfl, isLast⟩
    cases isLast
    exact Or.inl breaks
  · rw [List.concat_eq_append, ← List.cons_append, ← List.append_assoc]
      at isSplit
    rcases List.append_inj' isSplit rfl with ⟨rfl, isLast⟩
    cases isLast
    rw [List.concat_eq_append] at noSnapshot
    refine Or.inr ⟨noSnapshot row (List.mem_append_right _
      (List.mem_singleton_self _)), earlier, cause, before, rfl, breaks, ?_⟩
    exact fun other member =>
      noSnapshot other (List.mem_append_left _ member)

theorem exists_lastFinal (bridge : DepthDiff) (rest : List DepthDiff) :
    ∃ updateId, lastFinal none (bridge :: rest) = some updateId := by
  rw [lastFinal_cons, lastFinal]
  split
  next last _ => exact ⟨last.finalUpdateId, rfl⟩
  next => exact ⟨bridge.finalUpdateId, rfl⟩

namespace DepthConnection

theorem book_receive (connection : DepthConnection) (diff : DepthDiff) :
    (connection.receive diff).book =
      (connection.book.onDiff (connection.recordDiff diff)).1 :=
  deliver_concat _ _ _

theorem book_capture
    (connection : DepthConnection) (snapshot : DepthSnapshot) :
    (connection.capture snapshot).book =
      (connection.book.onSnapshot (connection.recordSnapshot snapshot)).1 :=
  deliver_concat _ _ _

/-- Receiving a diff takes no snapshot away. -/
theorem awaits_receive
    {connection : DepthConnection} (awaits : connection.Awaits)
    (diff : DepthDiff) : (connection.receive diff).Awaits := by
  rcases awaits with outstanding | task
  · exact Or.inl outstanding
  · rw [Awaits, receive]
    split
    next => exact Or.inr task
    next => exact Or.inr (Or.inl rfl)

/-- A discontinuity which is noticed. -/
theorem awaits_receive_of_unlinked
    {connection : DepthConnection} {diff : DepthDiff} {expected : Int}
    (isExpected : connection.previousU = some expected)
    (unlinked : connection.previousU ≠ some diff.previousFinalUpdateId)
    (absent : connection.resync = .absent)
    (notPending : connection.pending = false) :
    (connection.receive diff).Awaits := by
  have notSilent : sequenceSilent connection.previousU
      diff.previousFinalUpdateId (connection.resync ≠ .absent)
      connection.pending = false := by
    simp [sequenceSilent, isExpected, absent, notPending] at unlinked ⊢
    exact unlinked
  rw [Awaits, receive, notSilent]
  exact Or.inr (Or.inl rfl)

end DepthConnection

/-! ## The invariant -/

/--
The `VALID` book is at the last diff of the edge, and a book which a
discontinuity has gapped has a snapshot to come.
-/
structure Anchored (connection : DepthConnection) : Prop where
  requested : connection.pending = true → 0 < connection.outstanding
  inSequence : InSequence connection.sequence connection.book
  atEdge : connection.book.state = .valid → ¬ connection.Awaits →
    ∃ updateId, connection.book.previousUpdateId = some updateId ∧
      connection.previousU = some updateId
  gapped : GappedSince connection.connectionId connection.rows →
    connection.book.state ≠ .valid → connection.Awaits

namespace Anchored

variable {connection : DepthConnection}

theorem start (connectionId : String) (requested : Bool) :
    Anchored (startDepth connectionId requested) where
  requested isRequested := by
    change requested = true at isRequested
    rw [startDepth, isRequested]
    exact Nat.one_pos
  inSequence := InSequence.fresh connectionId
  atEdge valid := by cases valid
  gapped since := by
    rcases since with ⟨earlier, row, later, isSplit, _⟩
    cases earlier <;> cases isSplit

theorem agrees (anchored : Anchored connection) : Agrees connection :=
  fun since invalid => Or.inr (anchored.gapped since invalid)

theorem notPending
    (anchored : Anchored connection) (quiet : ¬ connection.Awaits) :
    connection.pending = false := by
  cases isPending : connection.pending with
  | false => rfl
  | true => exact absurd (Or.inl (anchored.requested isPending)) quiet

theorem receive
    (anchored : Anchored connection) {diff : DepthDiff}
    (meets : Reanchoring connection (.receive diff)) :
    Anchored (connection.receive diff) := by
  rcases onDiff_outcome anchored.inSequence
    (show (connection.recordDiff diff).receiveSeq = _ from rfl) with
    ⟨outcome, inSequence⟩
  have isBook := connection.book_receive diff
  have since (gapped : GappedSince connection.connectionId
      (connection.receive diff).rows) :
      (∃ change ∈ (connection.book.onDiff (connection.recordDiff diff)).2,
        change.state = .gapped) ∨
      GappedSince connection.connectionId connection.rows :=
    (gappedSince_concat gapped).imp id And.right
  by_cases awaits : connection.Awaits
  · have still := DepthConnection.awaits_receive awaits diff
    exact {
      requested := anchored.requested
      inSequence := isBook ▸ inSequence
      atEdge := fun _ quiet => absurd still quiet
      gapped := fun _ _ => still }
  · have noticed (valid : connection.book.state = .valid)
        (unlinked : connection.previousU ≠ some diff.previousFinalUpdateId) :
        (connection.receive diff).Awaits := by
      rcases anchored.atEdge valid awaits with ⟨updateId, _, isExpected⟩
      exact DepthConnection.awaits_receive_of_unlinked isExpected unlinked
        ((meets valid awaits).2 unlinked) (anchored.notPending awaits)
    have notBefore (invalid : connection.book.state ≠ .valid) :
        ¬ GappedSince connection.connectionId connection.rows :=
      fun gapped => awaits (anchored.gapped gapped invalid)
    generalize connection.book.onDiff (connection.recordDiff diff) = result
      at outcome inSequence isBook since
    refine {
      requested := anchored.requested
      inSequence := isBook ▸ inSequence
      atEdge := ?_
      gapped := ?_ }
    · rw [isBook]
      intro valid quiet
      cases outcome with
      | repeated seen =>
          by_cases linked :
              connection.previousU = some diff.previousFinalUpdateId
          · rcases anchored.atEdge valid awaits with
              ⟨updateId, atUpdate, isExpected⟩
            rcases (meets valid awaits).1 linked with new | stays
            · exact absurd seen new
            · refine ⟨updateId, atUpdate, ?_⟩
              rw [← isExpected, linked, ← stays]
              rfl
          · exact absurd (noticed valid linked) quiet
      | applied _ _ _ _ atDiff => exact ⟨_, atDiff, rfl⟩
      | discontinuous _ _ invalid => exact absurd valid invalid
      | waits _ invalid => exact absurd valid invalid
      | bridges _ _ _ atDiff => exact ⟨_, atDiff, rfl⟩
    · rw [isBook]
      intro gapped invalid
      cases outcome with
      | repeated seen =>
          rcases since gapped with ⟨change, isChange, _⟩ | before
          · cases isChange
          · exact absurd before (notBefore invalid)
      | applied _ _ _ stillValid => exact absurd stillValid invalid
      | discontinuous valid unlinked =>
          rcases anchored.atEdge valid awaits with
            ⟨updateId, atUpdate, isExpected⟩
          apply noticed valid
          rw [isExpected, ← atUpdate]
          exact unlinked
      | waits wasInvalid =>
          rcases since gapped with ⟨change, isChange, _⟩ | before
          · cases isChange
          · exact absurd before (notBefore wasInvalid)
      | bridges _ isValid => exact absurd isValid invalid

/-- A snapshot is recorded, and the task and the requests are what they are. -/
theorem capture
    (anchored : Anchored connection) {snapshot : DepthSnapshot}
    {resync : ResyncPhase} {outstanding : Nat} {after : DepthConnection}
    (isAfter : after =
      { connection.capture snapshot with resync, outstanding })
    (reaches : ¬ after.Awaits → Reaches connection snapshot) :
    Anchored after := by
  rcases onSnapshot_outcome anchored.inSequence
    (connection.recordSnapshot snapshot) with ⟨outcome, inSequence⟩
  have isBook : after.book =
      (connection.book.onSnapshot (connection.recordSnapshot snapshot)).1 := by
    rw [isAfter]
    exact connection.book_capture snapshot
  have since (gapped : GappedSince after.connectionId after.rows) :
      ∃ change ∈ (connection.book.onSnapshot
        (connection.recordSnapshot snapshot)).2, change.state = .gapped := by
    rw [isAfter] at gapped
    rcases gappedSince_concat gapped with breaks | ⟨isDiff, _⟩
    · exact breaks
    · cases isDiff
  generalize connection.book.onSnapshot (connection.recordSnapshot snapshot) =
    result at outcome inSequence isBook since
  refine {
    requested := ?_
    inSequence := ?_
    atEdge := ?_
    gapped := ?_ }
  · rw [isAfter]
    rintro ⟨⟩
  · rw [isBook, isAfter]
    exact inSequence.mono (Nat.le_succ _)
  · rw [isBook]
    intro valid quiet
    have leads := reaches quiet
    have isExpected : after.previousU = connection.previousU := by
      rw [isAfter]
      rfl
    rw [isExpected]
    cases outcome with
    | waits apart sameState atSnapshot =>
        rw [Reaches, show applicable snapshot.lastUpdateId _ = _ from apart]
          at leads
        exact ⟨_, atSnapshot, leads (sameState.symm.trans valid)⟩
    | @bridges _ _ bridge rest isApplicable _ _ _ atLast =>
        rw [Reaches, show applicable snapshot.lastUpdateId _ = _
          from isApplicable] at leads
        rcases exists_lastFinal bridge rest with ⟨updateId, isLast⟩
        rw [atLast, leads.2, isLast]
        exact ⟨updateId, rfl, rfl⟩
    | breaks _ _ invalid => exact absurd valid invalid
  · rw [isBook]
    intro gapped invalid
    by_contra quiet
    have leads := reaches quiet
    rcases since gapped with ⟨change, isChange, isGapped⟩
    cases outcome with
    | waits => cases isChange
    | bridges _ _ isValid => exact invalid isValid
    | breaks isApplicable unlinked =>
        rw [Reaches, show applicable snapshot.lastUpdateId _ = _
          from isApplicable] at leads
        exact unlinked leads.1

/-- Nothing is recorded, and no snapshot which was to come is lost. -/
theorem keepRows
    (anchored : Anchored connection) {resync : ResyncPhase} {pending : Bool}
    {outstanding : Nat} {after : DepthConnection}
    (isAfter : after = { connection with resync, pending, outstanding })
    (requested : pending = true → 0 < outstanding)
    (still : connection.Awaits → after.Awaits) : Anchored after := by
  have isBook : after.book = connection.book := by
    rw [isAfter]
    rfl
  refine {
    requested := ?_
    inSequence := ?_
    atEdge := ?_
    gapped := ?_ }
  · rw [isAfter]
    exact requested
  · rw [isBook, isAfter]
    exact anchored.inSequence
  · rw [isBook]
    intro valid quiet
    rcases anchored.atEdge valid (quiet ∘ still) with
      ⟨updateId, atUpdate, isExpected⟩
    refine ⟨updateId, atUpdate, ?_⟩
    rw [isAfter]
    exact isExpected
  · rw [isBook]
    intro gapped invalid
    rw [isAfter] at gapped
    exact still (anchored.gapped gapped invalid)

/-- A task which has its snapshot goes on. -/
theorem goesOn
    (anchored : Anchored connection) (resync : ResyncPhase)
    (notOpening : connection.resync ≠ .opening)
    (notFetching : connection.resync ≠ .fetching) :
    Anchored { connection with resync } := by
  refine anchored.keepRows rfl anchored.requested ?_
  rintro (outstanding | opening | fetching)
  · exact Or.inl outstanding
  · exact absurd opening notOpening
  · exact absurd fetching notFetching

theorem step
    (anchored : Anchored connection) {label : DepthLabel}
    {after : DepthConnection} (meets : Reanchoring connection label)
    (stepped : depthStep connection label = some after) : Anchored after := by
  cases label with
  | receive diff =>
      rw [depthStep] at stepped
      split at stepped
      next => cases stepped
      next =>
        cases stepped
        exact anchored.receive meets
  | gapOpened =>
      rw [depthStep] at stepped
      split at stepped
      next =>
        cases stepped
        refine anchored.keepRows rfl anchored.requested ?_
        exact Or.imp id fun _ => Or.inr rfl
      next => cases stepped
  | reanchor snapshot =>
      rw [depthStep] at stepped
      split at stepped
      next =>
        cases stepped
        refine anchored.capture rfl fun quiet => ?_
        exact meets.resolve_left fun outstanding => quiet (Or.inl outstanding)
      next => cases stepped
  | gapClosed =>
      rw [depthStep] at stepped
      split at stepped
      next closing =>
        cases stepped
        exact anchored.goesOn .ended (by rw [closing]; rintro ⟨⟩)
          (by rw [closing]; rintro ⟨⟩)
      next => cases stepped
  | removeTask =>
      rw [depthStep] at stepped
      split at stepped
      next ended =>
        cases stepped
        exact anchored.goesOn .absent (by rw [ended]; rintro ⟨⟩)
          (by rw [ended]; rintro ⟨⟩)
      next => cases stepped
  | request =>
      rw [depthStep] at stepped
      split at stepped
      next => cases stepped
      next =>
        cases stepped
        exact anchored.keepRows rfl (fun _ => Nat.succ_pos _)
          fun _ => Or.inl (Nat.succ_pos _)
  | captureRequested snapshot =>
      rw [depthStep] at stepped
      split at stepped
      next => cases stepped
      next others isOutstanding =>
        cases stepped
        refine anchored.capture rfl fun quiet => ?_
        rcases meets with several | opening | fetching | reaches
        · rw [isOutstanding] at several
          exact absurd (Or.inl (Nat.lt_of_succ_lt_succ several)) quiet
        · exact absurd (Or.inr (Or.inl opening)) quiet
        · exact absurd (Or.inr (Or.inr fetching)) quiet
        · exact reaches

end Anchored

/--
In every run without a suppressed discontinuity, whenever one leaves the book
not `VALID`, the gap is open or a snapshot is outstanding.
-/
theorem agrees_of_reanchoring
    (connectionId : String) (requested : Bool) (labels : List DepthLabel)
    (meets : StepsMeet depthStep Reanchoring
      (startDepth connectionId requested) labels) :
    Throughout depthStep Agrees (startDepth connectionId requested) labels := by
  rintro earlier later state rfl reached
  have anchored : Anchored state :=
    invariant_of_run
      (fun _ _ _ before meets stepped => before.step meets stepped)
      (Anchored.start connectionId requested) meets.of_append.1 reached
  exact anchored.agrees

/-! ## Two runs -/

/-- The requested snapshot bridges, and the next diff does not follow. -/
def discontinuedRun : List DepthLabel :=
  [.receive (sampleDiff 1 95 100 94 [(97, 3)]),
    .captureRequested { bridgeSnapshot with lastUpdateId := 98 },
    .receive (sampleDiff 3 111 120 110 [(98, 2)]), .gapOpened,
    .reanchor { bridgeSnapshot with lastUpdateId := 115 }]

/-- The next discontinuity comes after the task was removed. -/
def noticedRun : List DepthLabel :=
  discontinuedRun ++
    [.gapClosed, .removeTask,
      .receive (sampleDiff 5 131 140 130 [(99, 1)])]

theorem agrees_noticed :
    (runFrom depthStep (startDepth "a" true) noticedRun).map
        (fun connection => (connection.book.state, connection.resync)) =
      some (.gapped, .opening) ∧
    Throughout depthStep Agrees (startDepth "a" true) noticedRun := by
  constructor
  · decide +kernel
  · exact agrees_of_reanchoring "a" true noticedRun (by decide +kernel)

/-- It comes before. -/
def suppressedRun : List DepthLabel :=
  discontinuedRun ++
    [.receive (sampleDiff 5 131 140 130 [(99, 1)]), .gapClosed]

def suppressedRows : List DepthRow :=
  [.depth (sampleDiff 1 95 100 94 [(97, 3)]),
    .depthSnapshot { bridgeSnapshot with lastUpdateId := 98 },
    .depth (sampleDiff 3 111 120 110 [(98, 2)]),
    .depthSnapshot { bridgeSnapshot with receiveSeq := 4, lastUpdateId := 115 }]

theorem suppressedRun_runs :
    (runFrom depthStep (startDepth "a" true) suppressedRun).map
        (fun connection => (connection.connectionId, connection.rows,
          connection.book.state, connection.resync, connection.outstanding)) =
      some ("a",
        suppressedRows ++ [.depth (sampleDiff 5 131 140 130 [(99, 1)])],
        .gapped, .ended, 0) := by
  decide +kernel

/-- The book is gapped, the gap is closed and no snapshot will come. -/
theorem suppressed_discontinuity :
    ¬ Throughout depthStep Agrees (startDepth "a" true) suppressedRun := by
  intro visited
  rcases Option.map_eq_some_iff.mp suppressedRun_runs with
    ⟨final, reached, ended⟩
  simp only [Prod.mk.injEq] at ended
  rcases ended with ⟨isId, isRows, isGapped, isEnded, isEmpty⟩
  have since : GappedSince final.connectionId final.rows := by
    rw [isId, isRows]
    refine ⟨suppressedRows, _, [], rfl, ?_, fun other member => ?_⟩
    · decide +kernel
    · cases member
  have agrees := visited _ [] final (List.append_nil _).symm reached since
    (by rw [isGapped]; decide)
  rw [DepthConnection.GapOpen, DepthConnection.Awaits, isEnded, isEmpty]
    at agrees
  revert agrees
  decide

end ShadowDataPlane.Edge
