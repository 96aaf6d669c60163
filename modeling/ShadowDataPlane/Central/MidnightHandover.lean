import ShadowDataPlane.Central.MidnightCut

/-!
# Cutting a reconstruction at midnight

A day hands over its authoritative book and the books whose snapshot still
waits for its bridge; every other book is dropped and no book remembers the
diffs it has seen.  `Handover` says what the next day must not ask of what
was dropped.  Under it the cut is invisible: the next day has the valid
instants and the final book of an uninterrupted reconstruction
(`reconstruct_cut_at_midnight`).

Each part of `Handover` is needed; `cut_visible` gives one stream of rows for
each.
-/

namespace ShadowDataPlane.Central

open ShadowDataPlane.Foundation
open ShadowDataPlane.Contracts

/-! ## What survives a checkpoint -/

/-- A book which has forgotten the diffs it has seen. -/
def ConnectionBook.forgetDiffs (book : ConnectionBook) : ConnectionBook :=
  { book with seenDiffs := ∅ }

/-- An anchored book survives its checkpoint but for the diffs it has seen. -/
theorem anchorCheckpoint_ok
    {inherited : Prop} {rows : List DepthRow} {now : Nat}
    {book : ConnectionBook} {anchored : AnchoredBookCheckpointV1}
    (supported : book.Supported inherited rows now)
    (written : anchorCheckpoint book = .ok anchored) :
    book.state ≠ .valid ∧
      anchored.connectionId = book.connectionId ∧
      ConnectionBook.fromAnchorCheckpoint anchored = book.forgetDiffs := by
  unfold anchorCheckpoint at written
  split at written
  next updateId anchor received isUpdateId isAnchor isReceived =>
    split at written
    next unbridged =>
      rw [← Except.ok.inj written]
      refine ⟨unbridged.1, rfl, ?_⟩
      have pending : (book.pending.filter fun diff =>
          decide (anchor ≤ diff.finalUpdateId)) = book.pending := by
        apply List.filter_eq_self.mpr
        intro diff member
        simpa using
          (supported.unbridged anchor isAnchor unbridged.1 diff member).1
      simp only [ConnectionBook.fromAnchorCheckpoint,
        ConnectionBook.forgetDiffs, pending,
        bookSide_checkpointLevels supported.bidsTradable,
        bookSide_checkpointLevels supported.asksTradable,
        ← isUpdateId, ← isAnchor, ← isReceived]
    next => simp at written
  next => simp at written

/-- Restoring books of distinct connections succeeds. -/
theorem foldlM_restoreAnchored
    {anchored : List AnchoredBookCheckpointV1} {state : RunState}
    (fresh : ∀ book ∈ anchored,
      state.books.get? book.connectionId = none)
    (distinct :
      (anchored.map AnchoredBookCheckpointV1.connectionId).Nodup) :
    ∃ books : Dict String ConnectionBook,
      anchored.foldlM restoreAnchored state =
          .ok { state with books := books } ∧
        (∀ book ∈ anchored, books.get? book.connectionId =
          some (ConnectionBook.fromAnchorCheckpoint book)) ∧
        ∀ connection, (∀ book ∈ anchored, book.connectionId ≠ connection) →
          books.get? connection = state.books.get? connection := by
  induction anchored generalizing state with
  | nil => exact ⟨state.books, rfl, by simp, fun _ _ => rfl⟩
  | cons first rest induction =>
      rw [List.map_cons, List.nodup_cons] at distinct
      rcases distinct with ⟨notInRest, distinctRest⟩
      have apart : ∀ book ∈ rest,
          book.connectionId ≠ first.connectionId := by
        intro book member same
        exact notInRest (same ▸ List.mem_map_of_mem member)
      let middle : RunState :=
        { state with
          books := state.books.set first.connectionId
            (ConnectionBook.fromAnchorCheckpoint first) }
      have stepped : restoreAnchored state first = .ok middle := by
        simp [restoreAnchored, fresh first List.mem_cons_self, middle]
      have freshRest : ∀ book ∈ rest,
          middle.books.get? book.connectionId = none := by
        intro book member
        rw [Dict.get?_set, if_neg (apart book member)]
        exact fresh book (List.mem_cons_of_mem _ member)
      rcases induction freshRest distinctRest with
        ⟨books, completed, restored, others⟩
      refine ⟨books, ?_, ?_, ?_⟩
      · rw [List.foldlM_cons, stepped]
        exact completed
      · intro book member
        rcases List.mem_cons.mp member with rfl | inRest
        · rw [others book.connectionId apart]
          exact Dict.get?_set_self _ _ _
        · exact restored book inRest
      · intro connection different
        rw [others connection fun book member =>
          different book (List.mem_cons_of_mem _ member)]
        rw [Dict.get?_set,
          if_neg (different first List.mem_cons_self).symm]

/-- The state of the next day, in terms of the state at midnight. -/
structure Resumes (boundaryNs : Nat) (midnight resumed : RunState) :
    Prop where
  authority : resumed.authority = midnight.authority
  latest : resumed.lastValidConnection = midnight.authority
  since : resumed.validFrom = midnight.authority.map fun _ => boundaryNs
  intervals : resumed.intervals = []
  gaps : resumed.activeGaps = ∅
  books : ∀ connection,
    resumed.books.get? connection =
      (midnight.books.get? connection).bind fun book =>
        if midnight.authority = some connection ∨ book.CarriesAnchor then
          some book.forgetDiffs
        else none

section Checkpoint

variable {day : L2DayReconstructor}
variable {past history : List TimelineEvent} {inherited : Option String}
variable {start midnight : RunState} {startNs now : Nat}
variable {checkpoint : L2CheckpointV1}

/-- The anchored books of a checkpoint are those which carry an anchor. -/
structure AnchoredFrom (midnight : RunState)
    (anchored : List AnchoredBookCheckpointV1) : Prop where
  distinct : (anchored.map AnchoredBookCheckpointV1.connectionId).Nodup
  written : ∀ book ∈ anchored, ∃ candidate,
    midnight.books.get? book.connectionId = some candidate ∧
      candidate.CarriesAnchor ∧ candidate.state ≠ .valid ∧
      ConnectionBook.fromAnchorCheckpoint book = candidate.forgetDiffs
  complete : ∀ connection candidate,
    midnight.books.get? connection = some candidate →
      candidate.CarriesAnchor →
        ∃ book ∈ anchored, book.connectionId = connection

theorem anchoredFrom_of_mapM
    (sound : RunSound past inherited start startNs history now midnight)
    {anchored : List AnchoredBookCheckpointV1}
    (mapped : (midnight.books.values.filter fun candidate =>
      candidate.CarriesAnchor).mapM anchorCheckpoint = .ok anchored) :
    AnchoredFrom midnight anchored := by
  have related := mapM_forall₂ mapped
  have ofValue : ∀ candidate ∈ midnight.books.values,
      midnight.books.get? candidate.connectionId = some candidate ∧
        ∀ book, anchorCheckpoint candidate = .ok book →
          candidate.state ≠ .valid ∧
            book.connectionId = candidate.connectionId ∧
            ConnectionBook.fromAnchorCheckpoint book =
              candidate.forgetDiffs := by
    intro candidate member
    rcases (Dict.mem_values_iff _).mp member with ⟨key, found⟩
    rcases sound.books key candidate found with ⟨sameKey, _, supported⟩
    exact ⟨sameKey.symm ▸ found,
      fun book => anchorCheckpoint_ok supported⟩
  constructor
  · -- The books are keyed by their connection, so no name comes twice.
    have sameNames : ∀ {candidates : List ConnectionBook}
        {books : List AnchoredBookCheckpointV1},
        (∀ candidate ∈ candidates, candidate ∈ midnight.books.values) →
        List.Forall₂ (fun candidate book =>
          anchorCheckpoint candidate = .ok book) candidates books →
        books.map AnchoredBookCheckpointV1.connectionId =
          candidates.map ConnectionBook.connectionId := by
      intro candidates books values written
      induction written with
      | nil => rfl
      | cons converted _ induction =>
          have first := values _ List.mem_cons_self
          rw [List.map_cons, List.map_cons,
            ((ofValue _ first).2 _ converted).2.1,
            induction fun other member =>
              values other (List.mem_cons_of_mem _ member)]
    rw [sameNames (fun candidate member =>
      List.mem_of_mem_filter member) related]
    have keys : midnight.books.values.map ConnectionBook.connectionId =
        midnight.books.entries.map Prod.fst := by
      rw [Dict.values, List.map_map]
      apply List.map_congr_left
      rintro ⟨key, candidate⟩ member
      exact (sound.books key candidate
        ((Dict.mem_entries_iff _).mp member)).1
    have nodup := midnight.books.distinct
    rw [← keys] at nodup
    exact nodup.sublist (List.filter_sublist.map _)
  · intro book member
    rcases exists_of_mem_mapM mapped member with
      ⟨candidate, isCandidate, converted⟩
    rcases List.mem_filter.mp isCandidate with ⟨isValue, carries⟩
    rcases ofValue candidate isValue with ⟨found, survives⟩
    rcases survives book converted with ⟨invalid, sameName, restored⟩
    exact ⟨candidate, sameName.symm ▸ found, by simpa using carries,
      invalid, restored⟩
  · intro connection candidate found carries
    have isValue : candidate ∈ midnight.books.values :=
      (Dict.mem_values_iff _).mpr ⟨connection, found⟩
    have inFilter : candidate ∈ midnight.books.values.filter
        fun candidate => candidate.CarriesAnchor :=
      List.mem_filter.mpr ⟨isValue, by simpa using carries⟩
    rcases exists_result_of_mem_mapM mapped inFilter with
      ⟨book, inBooks, converted⟩
    refine ⟨book, inBooks, ?_⟩
    rw [((ofValue candidate isValue).2 _ converted).2.1]
    exact (sound.books connection candidate found).1

/-- Every authority has a `VALID` book and is the latest valid connection. -/
theorem RunSound.holder
    (sound : RunSound past inherited start startNs history now midnight)
    {connection : String}
    (authority : midnight.authority = some connection) :
    midnight.lastValidConnection = some connection ∧
      (∃ validFrom ≤ now, midnight.validFrom = some validFrom) ∧
      ∃ book, midnight.books.get? connection = some book ∧
        book.state = .valid := by
  have begun : midnight.validFrom ≠ none := by
    intro absent
    simp [sound.paired.mpr absent] at authority
  rcases Option.ne_none_iff_exists'.mp begun with ⟨validFrom, since⟩
  rcases sound.running connection validFrom authority since with
    ⟨_, latest, holds, running, _⟩
  exact ⟨latest, ⟨validFrom, running.untilNow, since⟩, holds⟩

/-- Reading anchored books on top of what was restored before them. -/
theorem resumes_of_anchored
    {boundaryNs : Nat} {anchored : List AnchoredBookCheckpointV1}
    {restored : RunState}
    (origins : AnchoredFrom midnight anchored)
    (authority : restored.authority = midnight.authority)
    (latest : restored.lastValidConnection = midnight.authority)
    (since : restored.validFrom =
      midnight.authority.map fun _ => boundaryNs)
    (intervals : restored.intervals = [])
    (gaps : restored.activeGaps = ∅)
    (holds : ∀ connection, midnight.authority = some connection →
      ∃ book, midnight.books.get? connection = some book ∧
        book.state = .valid)
    (books : ∀ connection, restored.books.get? connection =
      if midnight.authority = some connection then
        (midnight.books.get? connection).map ConnectionBook.forgetDiffs
      else none) :
    ∃ resumed, anchored.foldlM restoreAnchored restored = .ok resumed ∧
      Resumes boundaryNs midnight resumed := by
  have notHeld : ∀ book ∈ anchored,
      midnight.authority ≠ some book.connectionId := by
    intro book member held
    rcases origins.written book member with
      ⟨candidate, found, _, invalid, _⟩
    rcases holds book.connectionId held with ⟨holder, isHolder, valid⟩
    exact invalid (Option.some.inj (isHolder.symm.trans found) ▸ valid)
  have fresh : ∀ book ∈ anchored,
      restored.books.get? book.connectionId = none := by
    intro book member
    rw [books, if_neg (notHeld book member)]
  rcases foldlM_restoreAnchored fresh origins.distinct with
    ⟨resumed, completed, written, others⟩
  refine ⟨_, completed, authority, latest, since, intervals, gaps, ?_⟩
  intro connection
  show resumed.get? connection = _
  by_cases carried : ∃ book ∈ anchored, book.connectionId = connection
  · rcases carried with ⟨book, member, rfl⟩
    rcases origins.written book member with
      ⟨candidate, found, carries, _, survives⟩
    rw [written book member, found, Option.bind_some,
      if_pos (Or.inr carries), survives]
  · have different : ∀ book ∈ anchored,
        book.connectionId ≠ connection :=
      fun book member same => carried ⟨book, member, same⟩
    rw [others connection different, books]
    cases found : midnight.books.get? connection with
    | none =>
        rw [Option.bind_none, Option.map_none, ite_self]
    | some candidate =>
        have notCarried : ¬ candidate.CarriesAnchor :=
          fun carries => carried
            (origins.complete connection candidate found carries)
        simp only [Option.bind_some, Option.map_some, notCarried, or_false]

/--
The day after resumes from the state at midnight, if the authoritative book
has both sides.
-/
theorem initialState_resumes
    (sound : RunSound past inherited start startNs history now midnight)
    (noGap : midnight.activeGaps = ∅)
    (traded : ∀ connection book, midnight.authority = some connection →
      midnight.books.get? connection = some book →
        book.bids.entries ≠ [] ∧ book.asks.entries ≠ [])
    (boundaryNs : Nat) {endNs : Nat}
    (built : buildCheckpoint day endNs (midnight.finish endNs).finalBook
      midnight.books = .ok checkpoint) :
    ∃ resumed, initialState boundaryNs (some checkpoint) = .ok resumed ∧
      Resumes boundaryNs midnight resumed := by
  rcases bind_eq_ok_iff.mp built with ⟨anchored, mapped, assembled⟩
  have origins := anchoredFrom_of_mapM sound mapped
  cases authority : midnight.authority with
  | none =>
      have noBook : (midnight.finish endNs).finalBook = none := by
        simp [RunState.finish, authority]
      rw [noBook] at assembled
      rw [← Except.ok.inj assembled]
      apply resumes_of_anchored origins authority.symm
      · exact authority.symm
      · rw [authority]
        rfl
      · rfl
      · rfl
      · simp [authority]
      · simp [authority]
  | some connection =>
      rcases sound.holder authority with ⟨_, _, book, found, valid⟩
      have isFinal : (midnight.finish endNs).finalBook = some book := by
        simp only [RunState.finish, authority, noGap, if_true, found]
      rcases sound.books connection book found with
        ⟨sameName, _, supported⟩
      rcases traded connection book authority found with ⟨bids, asks⟩
      have carried : book.CarriesAuthority :=
        ⟨valid, supported.linked valid, bids, asks⟩
      simp only [isFinal, dif_pos carried] at assembled
      rw [← Except.ok.inj assembled]
      have notAnchored : ¬ book.CarriesAnchor := by
        intro carries
        rcases origins.complete connection book found carries with
          ⟨anchor, member, rfl⟩
        rcases origins.written anchor member with
          ⟨candidate, isCandidate, _, invalid, _⟩
        exact invalid
          (Option.some.inj (found.symm.trans isCandidate) ▸ valid)
      have unanchored : book.anchorLastUpdateId = none := by
        by_contra anchored
        apply notAnchored
        rcases Option.ne_none_iff_exists'.mp anchored with
          ⟨anchor, isAnchor⟩
        rcases supported.anchored anchor isAnchor with
          ⟨snapshot, _, _, _, received, _⟩
        exact ⟨anchored, by simp [received], bids, asks⟩
      let restored : RunState :=
        { books := Dict.empty.set connection book.forgetDiffs
          authority := some connection
          lastValidConnection := some connection
          validFrom := some boundaryNs }
      have read : restoreAuthority boundaryNs
          (validCheckpoint day endNs anchored book carried) =
            .ok restored := by
        have survives : ConnectionBook.fromCheckpoint
            (validCheckpoint day endNs anchored book carried) =
              .ok book.forgetDiffs := by
          simp only [ConnectionBook.fromCheckpoint, validCheckpoint,
            ConnectionBook.forgetDiffs,
            bookSide_checkpointLevels supported.bidsTradable,
            bookSide_checkpointLevels supported.asksTradable,
            supported.settled valid, unanchored,
            supported.untimed unanchored, valid]
        have isValid : (validCheckpoint day endNs anchored book
            carried).state = .valid := rfl
        rw [restoreAuthority, if_pos isValid, survives]
        show Except.ok _ = _
        simp only [restored, ConnectionBook.forgetDiffs, sameName]
      have resumed : ∃ resumed,
          anchored.foldlM restoreAnchored restored = .ok resumed ∧
            Resumes boundaryNs midnight resumed := by
        apply resumes_of_anchored origins authority.symm authority.symm
        · rw [authority]
          rfl
        · rfl
        · rfl
        · rintro other held
          rw [authority] at held
          rw [← Option.some.inj held]
          exact ⟨book, found, valid⟩
        · intro other
          rw [Dict.get?_set, authority]
          by_cases same : other = connection
          · rw [if_pos same, same, if_pos rfl, found]
            rfl
          · have different : some connection ≠ some other :=
              fun equal => same (Option.some.inj equal).symm
            rw [if_neg same, if_neg different]
            rfl
      rcases resumed with ⟨resumed, completed, resumes⟩
      refine ⟨resumed, ?_, resumes⟩
      show (restoreAuthority boundaryNs _ >>= _) = _
      rw [read]
      exact completed

end Checkpoint

/-! ## What the next day must not ask -/

/-- No row of the next day tells whether this book was dropped. -/
def ConnectionBook.Dispensable (connection : String)
    (next : List TimelineEvent) (book : ConnectionBook) : Prop :=
  if book.state = .valid then NoSnapshot connection next
  else if book.anchorLastUpdateId = none then
    Supersedes connection book.pending next
  else NoRows connection next

instance (connection : String) (next : List TimelineEvent)
    (book : ConnectionBook) : Decidable (book.Dispensable connection next) :=
  inferInstanceAs (Decidable (ite _ _ _))

/-- What the next day's timeline has to spare for a cut to be invisible. -/
structure Handover (midnight : RunState) (next : List TimelineEvent) :
    Prop where
  traded : ∀ entry ∈ midnight.books.entries,
    midnight.authority = some entry.1 →
      entry.2.bids.entries ≠ [] ∧ entry.2.asks.entries ≠ []
  unrepeated : ∀ entry ∈ midnight.books.entries,
    Unrepeated entry.1 entry.2.seenDiffs next
  dropped : ∀ entry ∈ midnight.books.entries,
    midnight.authority ≠ some entry.1 → ¬ entry.2.CarriesAnchor →
      entry.2.Dispensable entry.1 next

section Boundary

variable {past history next : List TimelineEvent}
variable {inherited : Option String}
variable {start midnight resumed : RunState}
variable {startNs now boundaryNs : Nat}

theorem Resumes.control
    (sound : RunSound past inherited start startNs history now midnight)
    (early : now ≤ boundaryNs) (noGap : midnight.activeGaps = ∅)
    (resumes : Resumes boundaryNs midnight resumed) :
    ControlAgrees boundaryNs midnight resumed where
  gaps := noGap.trans resumes.gaps.symm
  authority := resumes.authority.symm
  since := by
    rw [resumes.since]
    cases authority : midnight.authority with
    | none => exact Or.inl ⟨sound.paired.mp authority, rfl⟩
    | some connection =>
        rcases sound.holder authority with ⟨_, ⟨validFrom, begun, since⟩, _⟩
        exact Or.inr ⟨validFrom, boundaryNs, since, rfl,
          Or.inr ⟨begun.trans early, rfl⟩⟩
  intervals := by
    intro instant fromBoundary
    rw [resumes.intervals]
    constructor
    · intro covered
      rcases mem_instants_iff.mp covered with ⟨span, member, _, before⟩
      rcases List.mem_map.mp member with ⟨interval, isInterval, rfl⟩
      have ended := (sound.ended interval isInterval).untilNow
      have past : instant < boundaryNs :=
        before.trans_le (ended.trans early)
      exact (past.not_ge fromBoundary).elim
    · intro covered
      simp [validInstants] at covered

/-- The books at midnight and the restored ones agree. -/
theorem Resumes.books_agree
    (sound : RunSound past inherited start startNs history now midnight)
    (read : AuthorityRead inherited start.books history midnight)
    (noGap : midnight.activeGaps = ∅)
    (handover : Handover midnight next)
    (resumes : Resumes boundaryNs midnight resumed)
    (connection : String) :
    ConnectionBook.Tracks connection next (midnight.bookOf connection)
        (resumed.bookOf connection) ∨
      (ConnectionBook.Adrift connection next (midnight.bookOf connection)
          (resumed.bookOf connection) ∧
        midnight.authority ≠ some connection ∧
        (midnight.lastValidConnection = some connection →
          (midnight.bookOf connection).state ≠ .valid)) := by
  have restored := resumes.books connection
  cases found : midnight.books.get? connection with
  | none =>
      rw [found, Option.bind_none] at restored
      rw [RunState.bookOf, RunState.bookOf, found, restored]
      exact Or.inl (.matched ⟨rfl, Iff.rfl⟩)
  | some book =>
      have member := (Dict.mem_entries_iff _).mpr found
      rw [found, Option.bind_some] at restored
      rcases sound.books connection book found with ⟨sameName, _, _⟩
      by_cases carried :
          midnight.authority = some connection ∨ book.CarriesAnchor
      · rw [if_pos carried] at restored
        rw [RunState.bookOf, RunState.bookOf, found, restored]
        exact Or.inl (.matched ⟨rfl, Iff.rfl⟩)
      · rw [if_neg carried] at restored
        rcases not_or.mp carried with ⟨notHeld, notAnchored⟩
        have dispensable :=
          handover.dropped (connection, book) member notHeld notAnchored
        have fresh : ConnectionBook.Unanchored
            { connectionId := connection } := ⟨by simp, rfl⟩
        have notLatest : midnight.lastValidConnection = some connection →
            book.state ≠ .valid := by
          intro latest valid
          exact notHeld (read.authority connection noGap latest
            ((sound.holdsValid_iff connection).mpr ⟨book, found, valid⟩))
        rw [RunState.bookOf, RunState.bookOf, found, restored]
        show ConnectionBook.Tracks connection next book
            { connectionId := connection } ∨
          (ConnectionBook.Adrift connection next book
              { connectionId := connection } ∧ _)
        unfold ConnectionBook.Dispensable at dispensable
        split at dispensable
        next valid =>
          exact Or.inr ⟨.stranded fresh (Or.inl valid) dispensable, notHeld,
            notLatest⟩
        next invalid =>
          split at dispensable
          next unanchored =>
            exact Or.inl (.buffering book.pending sameName
              ⟨invalid, unanchored⟩ fresh (by simp) dispensable)
          next =>
            exact Or.inr ⟨.silent fresh.1 dispensable, notHeld, notLatest⟩

theorem Resumes.bookOf_seenDiffs
    (resumes : Resumes boundaryNs midnight resumed) (connection : String) :
    (resumed.bookOf connection).seenDiffs = ∅ := by
  rw [RunState.bookOf, resumes.books]
  cases midnight.books.get? connection with
  | none => rfl
  | some book =>
      rw [Option.bind_some]
      split <;> rfl

theorem Resumes.memory
    (handover : Handover midnight next)
    (resumes : Resumes boundaryNs midnight resumed)
    (connection : String) :
    ConnectionBook.Remembers connection next (midnight.bookOf connection)
      (resumed.bookOf connection) := by
  refine ⟨(midnight.bookOf connection).seenDiffs, ?_, ?_⟩
  · rw [resumes.bookOf_seenDiffs, Finset.union_empty]
  · rw [RunState.bookOf]
    cases found : midnight.books.get? connection with
    | none => exact fun _ _ _ _ _ => by simp
    | some book =>
        exact handover.unrepeated (connection, book)
          ((Dict.mem_entries_iff _).mpr found)

theorem Resumes.names
    (sound : RunSound past inherited start startNs history now midnight)
    (resumes : Resumes boundaryNs midnight resumed)
    (connection : String) :
    (midnight.bookOf connection).connectionId =
      (resumed.bookOf connection).connectionId := by
  rw [RunState.bookOf, RunState.bookOf, resumes.books]
  cases found : midnight.books.get? connection with
  | none => rfl
  | some book =>
      rw [Option.bind_some]
      split
      · rfl
      · exact (sound.books connection book found).1

/-- A state and what resumes from its checkpoint agree. -/
theorem Resumes.agrees
    (sound : RunSound past inherited start startNs history now midnight)
    (read : AuthorityRead inherited start.books history midnight)
    (early : now ≤ boundaryNs) (noGap : midnight.activeGaps = ∅)
    (handover : Handover midnight next)
    (resumes : Resumes boundaryNs midnight resumed) :
    Agrees boundaryNs next midnight resumed where
  control := resumes.control sound early noGap
  latest := by
    rw [resumes.latest]
    cases authority : midnight.authority with
    | some connection =>
        rcases sound.holder authority with ⟨latest, _⟩
        exact Or.inl latest.symm
    | none =>
        refine Or.inr ⟨rfl, fun connection latest valid => ?_⟩
        have held := read.authority connection noGap latest
          ((sound.holdsValid_iff connection).mpr
            (RunState.bookOf_valid_iff.mp valid))
        simp [authority] at held
  books := resumes.books_agree sound read noGap handover
  memory := resumes.memory handover
  names := resumes.names sound

end Boundary

/-! ## The cut -/

namespace L2DayReconstructor

/-- The same symbol on the following date. -/
def nextDay (day : L2DayReconstructor) : L2DayReconstructor :=
  { day with utcDate := day.utcDate + 1 }

variable {day : L2DayReconstructor} {files nextFiles : DayFiles}
variable {output : DayOutput}

/-- A reconstruction is the fold over its timeline, finished. -/
theorem reconstruct_eq_ok
    {startNs : Nat} {checkpoint : Option L2CheckpointV1} {start : RunState}
    (initial : initialState startNs checkpoint = .ok start)
    (endNs : Nat) (symbol : String)
    (rows : List DepthRow) (ledger : List GapEventV1) :
    reconstruct startNs endNs symbol checkpoint rows ledger =
      .ok (((timeline symbol rows ledger).foldl RunState.handleEvent
        start).finish endNs) := by
  rw [reconstruct, initial, ← RunState.advance_eq_foldl]
  rfl

/-- The checkpoint a day writes is the one the next day accepts. -/
theorem buildCheckpoint_identity
    {validThroughNs : Nat} {book : Option ConnectionBook}
    {books : Dict String ConnectionBook} {checkpoint : L2CheckpointV1}
    (built : buildCheckpoint day validThroughNs book books =
      .ok checkpoint) :
    checkpoint.collectorId = day.collectorId ∧
      checkpoint.utcDate = day.utcDate ∧
      checkpoint.exchangeSymbol = day.exchangeSymbol ∧
      (checkpoint.state = .valid →
        checkpoint.validThroughNs = some validThroughNs) := by
  rcases bind_eq_ok_iff.mp built with ⟨anchored, _, assembled⟩
  split at assembled
  next final =>
    split at assembled
    next carried =>
      rw [← Except.ok.inj assembled]
      exact ⟨rfl, rfl, rfl, fun _ => rfl⟩
    next =>
      rw [← Except.ok.inj assembled]
      exact ⟨rfl, rfl, rfl, fun valid => by
        simp [unanchoredCheckpoint] at valid⟩
  next =>
    rw [← Except.ok.inj assembled]
    exact ⟨rfl, rfl, rfl, fun valid => by
      simp [unanchoredCheckpoint] at valid⟩

theorem nextDay_accepts
    (completed : day.run files = .ok output)
    (handed : nextFiles.previousCheckpoint = some output.checkpoint) :
    day.nextDay.loadPreviousCheckpoint nextFiles =
      .ok nextFiles.previousCheckpoint := by
  rcases run_completed completed with ⟨_, _, _, _, built⟩
  rcases buildCheckpoint_identity built with
    ⟨collector, date, symbol, through⟩
  have sameIdentity : ¬ (output.checkpoint.collectorId ≠
        day.nextDay.collectorId ∨
      output.checkpoint.utcDate + 1 ≠ day.nextDay.utcDate ∨
      output.checkpoint.exchangeSymbol ≠ day.nextDay.exchangeSymbol) := by
    rw [collector, date, symbol]
    simp [nextDay]
  have reaches : ¬ (output.checkpoint.state = .valid ∧
      output.checkpoint.validThroughNs ≠ some day.nextDay.dayStartNs) := by
    rintro ⟨valid, misses⟩
    exact misses (through valid)
  rw [loadPreviousCheckpoint, handed]
  simp only [if_neg sameIdentity, if_neg reaches]

/--
Cutting at midnight is invisible.  If day one completes with no gap open at
its end and hands over all the next day asks for, the next day accepts the
checkpoint, has the valid instants of an uninterrupted reconstruction, and
ends with the same authoritative book.
-/
theorem reconstruct_cut_at_midnight
    {past : List TimelineEvent} {start : RunState}
    (wellFormed : WellFormedDay day files)
    (nextWellFormed : WellFormedDay day.nextDay nextFiles)
    (admissible :
      AdmissibleCheckpoint past day.dayStartNs files.previousCheckpoint)
    (initial :
      initialState day.dayStartNs files.previousCheckpoint = .ok start)
    (completed : day.run files = .ok output)
    (handed : nextFiles.previousCheckpoint = some output.checkpoint)
    (noGap : openGaps
      (transportGapEvents day.exchangeSymbol files.transportGaps) = ∅)
    (handover : Handover
      ((day.dayTimeline files).foldl RunState.handleEvent start)
      (day.nextDay.dayTimeline nextFiles)) :
    day.nextDay.loadPreviousCheckpoint nextFiles =
        .ok nextFiles.previousCheckpoint ∧
      ∃ whole next,
        reconstruct day.dayStartNs day.nextDay.dayEndNs day.exchangeSymbol
            files.previousCheckpoint
            (files.depthRows ++ nextFiles.depthRows)
            (files.transportGaps ++ nextFiles.transportGaps) =
          .ok whole ∧
        reconstruct day.nextDay.dayStartNs day.nextDay.dayEndNs
            day.nextDay.exchangeSymbol nextFiles.previousCheckpoint
            nextFiles.depthRows nextFiles.transportGaps =
          .ok next ∧
        (∀ instant, day.nextDay.dayStartNs ≤ instant →
          (instant ∈ validInstants whole.intervals ↔
            instant ∈ validInstants next.intervals)) ∧
        whole.finalBook.map ConnectionBook.content =
          next.finalBook.map ConnectionBook.content := by
  refine ⟨nextDay_accepts completed handed, ?_⟩
  rcases run_completed completed with ⟨start', initial', _, _, built⟩
  have sameStart : start' = start :=
    Except.ok.inj (initial'.symm.trans initial)
  subst sameStart
  rcases dayTimeline_sound
      (AuthorityRead (inheritedConnection files.previousCheckpoint)
        start'.books)
      (fun _ _ _ _ sound ordered read => read.handleEvent sound ordered)
      wellFormed admissible initial
      (initialState_restored admissible initial).authorityRead with
    ⟨now, inDay, sound, read⟩
  have closed : ((day.dayTimeline files).foldl RunState.handleEvent
      start').activeGaps = ∅ := by
    rw [sound.gaps, dayTimeline, timeline, gapsOf_mergeTimeline]
    exact noGap
  have traded : ∀ connection book,
      ((day.dayTimeline files).foldl RunState.handleEvent
        start').authority = some connection →
      ((day.dayTimeline files).foldl RunState.handleEvent
        start').books.get? connection = some book →
        book.bids.entries ≠ [] ∧ book.asks.entries ≠ [] := by
    intro connection book held found
    exact handover.traded (connection, book)
      ((Dict.mem_entries_iff _).mpr found) held
  rcases initialState_resumes sound closed traded day.nextDay.dayStartNs
      built with ⟨resumed, restored, resumes⟩
  have agrees := resumes.agrees sound read inDay.le closed handover
  have inside := dayTimeline_inside nextWellFormed
  have named : ∀ row ∈ rowsOf (day.nextDay.dayTimeline nextFiles),
      row.connectionId ≠ "" := by
    intro row member
    rw [dayTimeline, timeline, rowsOf_mergeTimeline] at member
    exact nextWellFormed.named row member
  rcases agrees.foldl sound (timeline_ordered nextWellFormed.ordered)
      (fun event member => inDay.le.trans (inside event member).1)
      named with ⟨⟨final, soundAfter⟩, agreesAfter⟩
  rcases agreesAfter.finish soundAfter day.nextDay.dayEndNs with
    ⟨sameInstants, sameBook⟩
  have joined : timeline day.exchangeSymbol
      (files.depthRows ++ nextFiles.depthRows)
      (files.transportGaps ++ nextFiles.transportGaps) =
        day.dayTimeline files ++ day.nextDay.dayTimeline nextFiles :=
    timeline_append (fun event member => (wellFormed.effective event member).2)
      (fun event member => (nextWellFormed.effective event member).1)
      (fun row member => (wellFormed.received row member).2)
      (fun row member => (nextWellFormed.received row member).1)
  have whole := reconstruct_eq_ok initial day.nextDay.dayEndNs
    day.exchangeSymbol (files.depthRows ++ nextFiles.depthRows)
    (files.transportGaps ++ nextFiles.transportGaps)
  rw [joined, List.foldl_append] at whole
  rw [← handed] at restored
  exact ⟨_, _, whole, reconstruct_eq_ok restored _ _ _ _, sameInstants,
    sameBook⟩

end L2DayReconstructor

/-! ## Two days -/

def cutDay : L2DayReconstructor := ⟨"collector", 1, "BTCUSDT"⟩

def cutFiles (rows : List DepthRow) : DayFiles where
  normalized := some { formalStartRealtimeNs := some (midnightNs 1) }
  depthRows := rows

/-- A diff received so many nanoseconds after a midnight. -/
def cutDiff (connection : String) (utcDate afterNs : Nat)
    (first final previous : Int) : DepthRow :=
  .depth ⟨connection, afterNs, midnightNs utcDate + afterNs, first, final,
    previous, [], [], []⟩

def cutSnapshot (connection : String) (utcDate afterNs : Nat)
    (lastUpdateId : Int) (bids : Levels) : DepthRow :=
  .depthSnapshot ⟨connection, afterNs, midnightNs utcDate + afterNs,
    lastUpdateId, bids, [(2, 1)]⟩

/-- The final books of the two ways to reconstruct two days. -/
def cutBooks (rows nextRows : List DepthRow) :
    Except L2Error (Option BookContent × Option BookContent) := do
  let whole ← reconstruct (midnightNs 1) (midnightNs 3) "BTCUSDT" none
    (rows ++ nextRows) []
  let output ← cutDay.run (cutFiles rows)
  let next ← reconstruct (midnightNs 2) (midnightNs 3) "BTCUSDT"
    (some output.checkpoint) nextRows []
  return (whole.finalBook.map ConnectionBook.content,
    next.finalBook.map ConnectionBook.content)

/-- Rows of two days which lead to different final books. -/
structure CutVisible (rows nextRows : List DepthRow) : Prop where
  wellFormed : WellFormedDay cutDay (cutFiles rows)
  nextWellFormed : WellFormedDay cutDay.nextDay (cutFiles nextRows)
  differs : ∃ whole next, cutBooks rows nextRows = .ok (whole, next) ∧
    whole ≠ next

theorem cutVisible_of
    {rows nextRows : List DepthRow}
    (ordered :
      (rows.Pairwise fun left right =>
        left.receivedNs ≤ right.receivedNs) ∧
      nextRows.Pairwise fun left right =>
        left.receivedNs ≤ right.receivedNs)
    (inside :
      (∀ row ∈ rows,
        midnightNs 1 ≤ row.receivedNs ∧ row.receivedNs < midnightNs 2) ∧
      ∀ row ∈ nextRows,
        midnightNs 2 ≤ row.receivedNs ∧ row.receivedNs < midnightNs 3)
    (named : (∀ row ∈ rows, row.connectionId ≠ "") ∧
      ∀ row ∈ nextRows, row.connectionId ≠ "")
    (differs : (cutBooks rows nextRows).toOption.any fun books =>
      books.1 ≠ books.2) :
    CutVisible rows nextRows where
  wellFormed := ⟨ordered.1, inside.1, named.1, by simp [cutFiles]⟩
  nextWellFormed := ⟨ordered.2, inside.2, named.2, by simp [cutFiles]⟩
  differs := by
    cases computed : cutBooks rows nextRows with
    | error problem => simp [computed, Except.toOption] at differs
    | ok books =>
        refine ⟨books.1, books.2, rfl, ?_⟩
        simpa [computed, Except.toOption] using differs

/--
What a checkpoint loses is visible: a diff buffered before its snapshot, a
`VALID` book which is not the authority, the memory of a repeated diff, and a
book with an empty side, authoritative or anchored.
-/
theorem cut_visible :
    CutVisible [cutDiff "a" 1 0 10 12 9]
        [cutSnapshot "a" 2 0 11 [(1, 1)], cutDiff "a" 2 1 13 13 12] ∧
      CutVisible
        [cutSnapshot "a" 1 0 10 [(1, 1)], cutDiff "a" 1 1 10 11 9,
          cutSnapshot "b" 1 2 10 [(1, 1)], cutDiff "b" 1 3 10 11 9]
        [cutSnapshot "a" 2 0 20 [(1, 1)], cutDiff "a" 2 1 20 21 19] ∧
      CutVisible
        [cutSnapshot "a" 1 0 10 [(1, 1)], cutDiff "a" 1 1 10 11 9]
        [cutDiff "a" 2 0 10 11 9] ∧
      CutVisible [cutSnapshot "a" 1 0 10 [], cutDiff "a" 1 1 10 11 9] [] ∧
      CutVisible [cutSnapshot "a" 1 0 10 []] [cutDiff "a" 2 1 10 11 9] := by
  refine ⟨?_, ?_, ?_, ?_, ?_⟩
  all_goals
    apply cutVisible_of <;> decide +kernel

/-- A connection rotation under way at midnight: `b` has yet to bridge. -/
def rotationRows : List DepthRow :=
  [cutSnapshot "a" 1 0 10 [(1, 1)], cutDiff "a" 1 1 10 11 9,
    cutSnapshot "b" 1 2 12 [(1, 1)]]

def rotationNextRows : List DepthRow :=
  [cutDiff "a" 2 0 12 12 11, cutDiff "b" 2 1 12 13 11]

def rotationNextFiles (checkpoint : L2CheckpointV1) : DayFiles where
  normalized := some {}
  previousCheckpoint := some checkpoint
  depthRows := rotationNextRows

theorem rotation_handover :
    Handover
      ((cutDay.dayTimeline (cutFiles rotationRows)).foldl
        RunState.handleEvent {})
      (timeline "BTCUSDT" rotationNextRows []) where
  traded := by decide +kernel
  unrepeated := by decide +kernel
  dropped := by decide +kernel

/-- The rotation validates `b` one nanosecond after midnight either way. -/
theorem reconstruct_cut_at_midnight_rotation :
    ∃ output whole next, cutDay.run (cutFiles rotationRows) = .ok output ∧
      reconstruct (midnightNs 1) (midnightNs 3) "BTCUSDT" none
          (rotationRows ++ rotationNextRows) [] = .ok whole ∧
      reconstruct (midnightNs 2) (midnightNs 3) "BTCUSDT"
          (some output.checkpoint) rotationNextRows [] = .ok next ∧
      (∀ instant, midnightNs 2 ≤ instant →
        (instant ∈ validInstants whole.intervals ↔
          instant ∈ validInstants next.intervals)) ∧
      whole.finalBook.map ConnectionBook.content =
        next.finalBook.map ConnectionBook.content := by
  have wellFormed : WellFormedDay cutDay (cutFiles rotationRows) :=
    ⟨by decide +kernel, by decide +kernel, by decide, by decide⟩
  have admissible : AdmissibleCheckpoint [] cutDay.dayStartNs
      (cutFiles rotationRows).previousCheckpoint :=
    ⟨by simp, by simp [cutFiles], by simp [cutFiles]⟩
  have completes :
      (cutDay.run (cutFiles rotationRows)).toOption.isSome := by
    decide +kernel
  cases completed : cutDay.run (cutFiles rotationRows) with
  | error problem => simp [completed, Except.toOption] at completes
  | ok output =>
      have nextWellFormed : WellFormedDay cutDay.nextDay
          (rotationNextFiles output.checkpoint) :=
        ⟨by show rotationNextRows.Pairwise _; decide +kernel,
          by show ∀ row ∈ rotationNextRows, _; decide +kernel,
          by show ∀ row ∈ rotationNextRows, _; decide,
          by simp [rotationNextFiles]⟩
      rcases L2DayReconstructor.reconstruct_cut_at_midnight wellFormed
          nextWellFormed admissible rfl completed rfl rfl
          rotation_handover with
        ⟨_, whole, next, isWhole, isNext, instants, book⟩
      exact ⟨output, whole, next, rfl, isWhole, isNext, instants, book⟩

end ShadowDataPlane.Central
