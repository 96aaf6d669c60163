import ShadowDataPlane.Central.Discovery
import ShadowDataPlane.Foundation.StableSort

/-!
# Incremental daily klines

Discovery keeps the daily klines of every eligible symbol for a window of
complete days.  It takes the days it has from the evidence of an earlier
discovery and asks for the others in one request, which starts at the earliest
missing day and is limited to as many bars as days are missing.  The limit
counts existing bars, cached ones as well: a day behind a hole may be out of
its reach.

`int(value)` of a decoded number or text is the parameter `readInt`.  The
digests which the evidence keeps beside the bars are left out.
-/

namespace ShadowDataPlane.Edge

open ShadowDataPlane.Central
open ShadowDataPlane.Contracts
open ShadowDataPlane.Foundation

/-! ## The code -/

/-- The parameters of a `klines` request with a daily interval. -/
structure KlineRequest where
  symbol : String
  startTime : Int
  endTime : Int
  limit : Nat

section Code

variable (readInt : Json → Option Int)

/-- Bind a bar of an expected day to its opening time. -/
def keepBar (expected : List Int) (byOpen : Dict Int Json) (row : Json) :
    Except String (Dict Int Json) :=
  match row with
  | .array fields =>
      if 9 ≤ fields.length then
        match fields.head?.bind readInt with
        | none => .error "ValueError"
        | some openMs =>
            if openMs ∈ expected then .ok (byOpen.set openMs row)
            else .ok byOpen
      else .ok byOpen
  | _ => .ok byOpen

/-- The complete days of the window since the onboarding. -/
def expectedDays (startMs cutoffMs onboardMs : Int) : List Int :=
  dayRange (max startMs ((onboardMs + dayMs - 1) / dayMs * dayMs)) cutoffMs

/-- The request for the missing days, if there are any. -/
def klineRequest (symbol : String) (cutoffMs : Int) :
    List Int → Option KlineRequest
  | [] => none
  | first :: others => some {
      symbol
      startTime := minimumOf first others
      endTime := cutoffMs - 1
      limit := (first :: others).length }

/-- The bars of one symbol, one pass of the loop in `_fetch_daily_klines`. -/
def symbolKlines (fetch : KlineRequest → Except String (List Json))
    (symbol : String) (startMs cutoffMs onboardMs : Int)
    (cachedPayload : List Json) : Except String (List Json) := do
  let expected := expectedDays startMs cutoffMs onboardMs
  let cached ← cachedPayload.foldlM (keepBar readInt expected) Dict.empty
  let missing := expected.filter fun openMs => (cached.get? openMs).isNone
  let byOpen ←
    match klineRequest symbol cutoffMs missing with
    | none => .ok cached
    | some request => do
        let parsed ← fetch request
        parsed.foldlM (keepBar readInt expected) cached
  .ok (((byOpen.entries.map Prod.fst).insertionSort (· ≤ ·)).filterMap
    byOpen.get?)

/-- The payload of a symbol in cached evidence. -/
def cachedPayload (cached : Dict String Json) (symbol : String) : List Json :=
  match (cached.get? symbol).bind (Json.get? "payload") with
  | some (.array rows) => rows
  | _ => []

/-- `_fetch_daily_klines`, for eligible symbols with their onboarding time. -/
def fetchDailyKlines (fetch : KlineRequest → Except String (List Json))
    (eligible : Dict String Int) (observedAt : Int) (windowDays : Nat)
    (cached : Dict String Json) :
    Except String (List (String × List Json)) :=
  let cutoffMs := observedAt / usPerDay * dayMs
  let startMs := cutoffMs - windowDays * dayMs
  eligible.entries.mapM fun entry => do
    let payload ← symbolKlines readInt fetch entry.1 startMs cutoffMs entry.2
      (cachedPayload cached entry.1)
    .ok (entry.1, payload)

end Code

/-! ## The exchange -/

section Days

variable (readInt : Json → Option Int)

/-- The opening time of a row which the code keeps. -/
def openTime? (row : Json) : Option Int :=
  match row with
  | .array fields =>
      if 9 ≤ fields.length then fields.head?.bind readInt else none
  | _ => none

/-- The expected days of which a row is given. -/
def coveredDays (expected : List Int) (rows : List Json) : List Int :=
  expected.filter fun openMs => some openMs ∈ rows.map (openTime? readInt)

/-- The expected days of which no row is given. -/
def missingDays (expected : List Int) (rows : List Json) : List Int :=
  expected.filter fun openMs => some openMs ∉ rows.map (openTime? readInt)

end Days

/-- The daily bars of an exchange, in ascending order. -/
structure KlineMarket (readInt : Json → Option Int) where
  bars : String → List (Int × Json)
  ascending : ∀ symbol,
    (bars symbol).Pairwise fun left right => left.1 < right.1
  daily : ∀ symbol, ∀ bar ∈ bars symbol, bar.1 % dayMs = 0
  readable : ∀ symbol, ∀ bar ∈ bars symbol,
    openTime? readInt bar.2 = some bar.1

namespace KlineMarket

variable {readInt : Json → Option Int} (market : KlineMarket readInt)

/-- The first bars which open in the requested time. -/
def answer (request : KlineRequest) : List (Int × Json) :=
  ((market.bars request.symbol).filter fun bar =>
    request.startTime ≤ bar.1 ∧ bar.1 ≤ request.endTime).take request.limit

def respond (request : KlineRequest) : Except String (List Json) :=
  .ok ((market.answer request).map Prod.snd)

/-- Every row is a bar of a day which is complete at the cutoff. -/
def Genuine (symbol : String) (cutoffMs : Int) (rows : List Json) : Prop :=
  ∀ row ∈ rows, ∃ openMs, (openMs, row) ∈ market.bars symbol ∧
    openMs < cutoffMs

/--
From the earliest missing day up to each missing day with a bar, there are at
most as many bars as days are missing.
-/
def WithinReach (symbol : String) (expected : List Int) (rows : List Json) :
    Prop :=
  ∀ first ∈ (missingDays readInt expected rows).head?,
    ∀ bar ∈ market.bars symbol, bar.1 ∈ missingDays readInt expected rows →
      ((market.bars symbol).countP fun other =>
        first ≤ other.1 ∧ other.1 ≤ bar.1) ≤
          (missingDays readInt expected rows).length

/-! ## The bars which are kept -/

/-- The bars of some days. -/
def rowsOn (symbol : String) (days : List Int) : List Json :=
  ((market.bars symbol).filter fun bar => bar.1 ∈ days).map Prod.snd

/-- A dictionary binds the bars of these days and nothing else. -/
def Shows (symbol : String) (byOpen : Dict Int Json) (days : List Int) :
    Prop :=
  ∀ openMs row, byOpen.get? openMs = some row ↔
    (openMs, row) ∈ market.bars symbol ∧ openMs ∈ days

variable {market} {symbol : String}

theorem bars_distinct : ((market.bars symbol).map Prod.fst).Nodup := by
  rw [List.nodup_iff_pairwise_ne, List.pairwise_map]
  exact (market.ascending symbol).imp fun before => ne_of_lt before

/-- A day has one bar. -/
theorem row_unique {openMs : Int} {row other : Json}
    (member : (openMs, row) ∈ market.bars symbol)
    (otherMember : (openMs, other) ∈ market.bars symbol) : row = other := by
  have same := List.inj_on_of_nodup_map bars_distinct member otherMember rfl
  exact congrArg Prod.snd same

theorem keepBar_of_openTime
    {expected : List Int} {byOpen : Dict Int Json} {row : Json} {openMs : Int}
    (read : openTime? readInt row = some openMs) :
    keepBar readInt expected byOpen row =
      .ok (if openMs ∈ expected then byOpen.set openMs row else byOpen) := by
  unfold openTime? at read
  split at read
  next fields =>
    split at read
    next long =>
      simp only [keepBar, if_pos long, read]
      split <;> rfl
    next => simp at read
  next => simp at read

theorem Shows.congr
    {byOpen : Dict Int Json} {days others : List Int}
    (shows : market.Shows symbol byOpen days)
    (same : ∀ openMs, openMs ∈ days ↔ openMs ∈ others) :
    market.Shows symbol byOpen others := by
  intro openMs row
  rw [shows, same]

/-- Keeping a bar adds its day, when it is expected. -/
theorem Shows.keep
    (expected : List Int)
    {byOpen : Dict Int Json} {days : List Int} {openMs : Int} {row : Json}
    (shows : market.Shows symbol byOpen days)
    (member : (openMs, row) ∈ market.bars symbol) :
    ∃ kept, keepBar readInt expected byOpen row = .ok kept ∧
      market.Shows symbol kept
        (days ++ coveredDays readInt expected [row]) := by
  have read := market.readable symbol _ member
  refine ⟨_, keepBar_of_openTime read, ?_⟩
  intro other value
  have covered : other ∈ coveredDays readInt expected [row] ↔
      other = openMs ∧ other ∈ expected := by
    simp [coveredDays, read, and_comm]
  rw [List.mem_append, covered]
  by_cases isExpected : openMs ∈ expected
  · rw [if_pos isExpected, Dict.get?_set]
    by_cases same : other = openMs
    · subst same
      rw [if_pos rfl, Option.some.injEq]
      constructor
      · rintro rfl
        exact ⟨member, .inr ⟨rfl, isExpected⟩⟩
      · rintro ⟨otherMember, _⟩
        exact row_unique member otherMember
    · rw [if_neg same, shows]
      simp [same]
  · rw [if_neg isExpected, shows]
    have notBoth : ¬ (other = openMs ∧ other ∈ expected) := by
      rintro ⟨rfl, inExpected⟩
      exact isExpected inExpected
    simp [notBoth]

/-- Keeping bars adds the expected days which they cover. -/
theorem Shows.foldlM
    (expected : List Int) (rows : List Json)
    {byOpen : Dict Int Json} {days : List Int}
    (shows : market.Shows symbol byOpen days)
    (genuine : ∀ row ∈ rows, ∃ openMs,
      (openMs, row) ∈ market.bars symbol) :
    ∃ kept, rows.foldlM (keepBar readInt expected) byOpen = .ok kept ∧
      market.Shows symbol kept
        (days ++ coveredDays readInt expected rows) := by
  induction rows generalizing byOpen days with
  | nil => exact ⟨byOpen, rfl, by simpa [coveredDays] using shows⟩
  | cons row rest induction =>
      rw [List.forall_mem_cons] at genuine
      rcases genuine.1 with ⟨openMs, member⟩
      rcases shows.keep expected member with
        ⟨first, keeps, firstShows⟩
      rcases induction firstShows genuine.2 with ⟨kept, folds, keptShows⟩
      refine ⟨kept, ?_, keptShows.congr ?_⟩
      · rw [List.foldlM_cons, keeps]
        exact folds
      · intro other
        simp only [coveredDays, List.mem_append, List.mem_filter,
          List.map_cons, List.map_nil, List.mem_cons, List.not_mem_nil,
          or_false, decide_eq_true_eq]
        tauto

/-- Sorted by opening time, the bound bars are those of their days. -/
theorem Shows.rows
    {byOpen : Dict Int Json} {days : List Int}
    (shows : market.Shows symbol byOpen days) :
    ((byOpen.entries.map Prod.fst).insertionSort (· ≤ ·)).filterMap
      byOpen.get? = market.rowsOn symbol days := by
  let kept := (market.bars symbol).filter fun bar => bar.1 ∈ days
  have keptAscending : (kept.map Prod.fst).Pairwise (· < ·) := by
    rw [List.pairwise_map]
    exact (market.ascending symbol).filter _
  have keptShown : ∀ bar ∈ kept, byOpen.get? bar.1 = some bar.2 := by
    intro bar member
    rw [shows]
    simpa [kept] using member
  have perm : (byOpen.entries.map Prod.fst).Perm (kept.map Prod.fst) := by
    rw [List.perm_ext_iff_of_nodup byOpen.distinct
      (keptAscending.imp fun before => ne_of_lt before)]
    intro openMs
    constructor
    · intro member
      rcases List.mem_map.mp member with ⟨⟨_, row⟩, bound, rfl⟩
      have found := (shows _ _).mp (byOpen.mem_entries_iff.mp bound)
      exact List.mem_map.mpr ⟨_, List.mem_filter.mpr
        ⟨found.1, decide_eq_true found.2⟩, rfl⟩
    · intro member
      rcases List.mem_map.mp member with ⟨bar, inKept, rfl⟩
      exact List.mem_map_of_mem (f := Prod.fst)
        (byOpen.mem_entries_iff.mpr (keptShown bar inKept))
  have sorted :
      (byOpen.entries.map Prod.fst).insertionSort (· ≤ ·) =
        kept.map Prod.fst :=
    ((List.perm_insertionSort _ _).trans perm).eq_of_pairwise
      (fun _ _ _ _ => le_antisymm) (List.pairwise_insertionSort _ _)
      (keptAscending.imp le_of_lt)
  rw [sorted, List.filterMap_map]
  change kept.filterMap _ = kept.map Prod.snd
  rw [← List.filterMap_eq_map]
  exact List.filterMap_congr keptShown

/-- Two payloads agree when their days have the same bars. -/
theorem rowsOn_eq_iff {days others : List Int} :
    market.rowsOn symbol days = market.rowsOn symbol others ↔
      ∀ bar ∈ market.bars symbol, bar.1 ∈ days ↔ bar.1 ∈ others := by
  have mem_rowsOn : ∀ days, ∀ bar ∈ market.bars symbol,
      bar.2 ∈ market.rowsOn symbol days ↔ bar.1 ∈ days := by
    intro days bar member
    simp only [rowsOn, List.mem_map, List.mem_filter, decide_eq_true_eq]
    constructor
    · rintro ⟨other, ⟨otherMember, inDays⟩, same⟩
      have readOther := market.readable symbol other otherMember
      rw [same, market.readable symbol bar member] at readOther
      rwa [Option.some.inj readOther]
    · intro inDays
      exact ⟨bar, ⟨member, inDays⟩, rfl⟩
  constructor
  · intro same bar member
    rw [← mem_rowsOn days bar member, same, mem_rowsOn others bar member]
  · intro same
    rw [rowsOn, rowsOn, List.filter_congr fun bar member =>
      decide_eq_decide.mpr (same bar member)]

/-! ## The request for the missing days -/

/-- The bars which the request for the missing days brings. -/
def brought (market : KlineMarket readInt) (symbol : String) (cutoffMs : Int)
    (missing : List Int) : List (Int × Json) :=
  match klineRequest symbol cutoffMs missing with
  | none => []
  | some request => market.answer request

theorem brought_member
    {cutoffMs : Int} {missing : List Int} {bar : Int × Json}
    (member : bar ∈ market.brought symbol cutoffMs missing) :
    bar ∈ market.bars symbol := by
  cases missing with
  | nil => simp [brought, klineRequest] at member
  | cons first others =>
      exact List.mem_of_mem_filter (List.mem_of_mem_take member)

/-- The days of the cached bars are bound, and only the missing ones not. -/
theorem Shows.missing
    {byOpen : Dict Int Json} {expected : List Int} {rows : List Json}
    {cutoffMs : Int}
    (shows : market.Shows symbol byOpen (coveredDays readInt expected rows))
    (genuine : market.Genuine symbol cutoffMs rows) :
    expected.filter (fun openMs => (byOpen.get? openMs).isNone) =
      missingDays readInt expected rows := by
  refine List.filter_congr fun openMs isExpected => ?_
  by_cases covered : some openMs ∈ rows.map (openTime? readInt)
  · rcases List.mem_map.mp covered with ⟨row, inRows, read⟩
    rcases genuine row inRows with ⟨actual, member, _⟩
    rw [market.readable symbol _ member, Option.some.injEq] at read
    subst read
    have inDays : actual ∈ coveredDays readInt expected rows :=
      List.mem_filter.mpr ⟨isExpected, decide_eq_true covered⟩
    simp [(shows actual row).mpr ⟨member, inDays⟩, covered]
  · have unbound : byOpen.get? openMs = none := by
      cases found : byOpen.get? openMs with
      | none => rfl
      | some row =>
          have inDays := ((shows openMs row).mp found).2
          have given := (List.mem_filter.mp inDays).2
          exact absurd (of_decide_eq_true given) covered
    simp [unbound, covered]

/-- A pass over genuine evidence keeps what is cached and what is brought. -/
theorem symbolKlines_eq
    {startMs cutoffMs onboardMs : Int} {expected : List Int}
    {rows : List Json}
    (window : expectedDays startMs cutoffMs onboardMs = expected)
    (genuine : market.Genuine symbol cutoffMs rows) :
    symbolKlines readInt market.respond symbol startMs cutoffMs onboardMs
        rows =
      .ok (market.rowsOn symbol (coveredDays readInt expected rows ++
        coveredDays readInt expected ((market.brought symbol cutoffMs
          (missingDays readInt expected rows)).map Prod.snd))) := by
  have nothing : market.Shows symbol Dict.empty [] := by
    intro openMs row
    simp
  rcases nothing.foldlM expected rows
      (fun row inRows => (genuine row inRows).imp fun _ => And.left) with
    ⟨cached, folds, shows⟩
  rw [List.nil_append] at shows
  have missing := shows.missing genuine
  have someBars : ∀ row ∈ (market.brought symbol cutoffMs
      (missingDays readInt expected rows)).map Prod.snd,
      ∃ openMs, (openMs, row) ∈ market.bars symbol := by
    intro row member
    rcases List.mem_map.mp member with ⟨bar, inBrought, rfl⟩
    exact ⟨bar.1, brought_member inBrought⟩
  rcases shows.foldlM expected _ someBars with
    ⟨byOpen, appends, allShows⟩
  rw [← allShows.rows]
  simp only [symbolKlines, window, folds, bind, Except.bind, missing]
  unfold brought at appends
  cases request : klineRequest symbol cutoffMs
      (missingDays readInt expected rows) with
  | none =>
      rw [request] at appends
      cases appends
      rfl
  | some asked =>
      rw [request] at appends
      simp only [respond, appends]

/-- A missing bar is brought when few bars lie between it and the first. -/
theorem mem_brought_iff
    {cutoffMs first : Int} {missing : List Int} {bar : Int × Json}
    (ascending : missing.Pairwise (· < ·))
    (complete : ∀ openMs ∈ missing, openMs < cutoffMs)
    (isFirst : first ∈ missing.head?) (member : bar ∈ market.bars symbol)
    (isMissing : bar.1 ∈ missing) :
    bar ∈ market.brought symbol cutoffMs missing ↔
      ((market.bars symbol).countP fun other =>
        first ≤ other.1 ∧ other.1 ≤ bar.1) ≤ missing.length := by
  cases missing with
  | nil => simp at isMissing
  | cons head others =>
      have same : head = first := Option.some.inj isFirst
      subst same
      have least : minimumOf head others = head :=
        minimumOf_of_le fun other later =>
          (List.rel_of_pairwise_cons ascending later).le
      have started : head ≤ bar.1 := by
        rcases List.mem_cons.mp isMissing with same | later
        · exact same.ge
        · exact (List.rel_of_pairwise_cons ascending later).le
      have ended := complete bar.1 isMissing
      have asked : bar ∈ (market.bars symbol).filter fun other =>
          head ≤ other.1 ∧ other.1 ≤ cutoffMs - 1 :=
        List.mem_filter.mpr ⟨member, decide_eq_true ⟨started, by omega⟩⟩
      have taken := mem_take_iff_countP_le (head :: others).length
        ((market.ascending symbol).filter _) asked
      rw [List.countP_filter] at taken
      simp only [brought, klineRequest, answer, least]
      rw [taken]
      refine iff_of_eq (congrArg (· ≤ _) ?_)
      refine List.countP_congr fun other _ => ?_
      simp only [Bool.and_eq_true, decide_eq_true_eq]
      omega

theorem mem_coveredDays_brought
    {cutoffMs : Int} {missing expected : List Int} {bar : Int × Json}
    (member : bar ∈ market.bars symbol) :
    bar.1 ∈ coveredDays readInt expected
        ((market.brought symbol cutoffMs missing).map Prod.snd) ↔
      bar.1 ∈ expected ∧ bar ∈ market.brought symbol cutoffMs missing := by
  rw [coveredDays, List.mem_filter, decide_eq_true_eq, List.map_map,
    List.mem_map]
  refine and_congr_right fun _ => ?_
  constructor
  · rintro ⟨other, inBrought, read⟩
    have otherMember := brought_member inBrought
    have same : other.1 = bar.1 := by
      rw [Function.comp_apply, market.readable symbol other otherMember]
        at read
      exact Option.some.inj read
    have equal : other = bar :=
      List.inj_on_of_nodup_map bars_distinct otherMember member same
    exact equal ▸ inBrought
  · intro inBrought
    exact ⟨bar, inBrought, market.readable symbol bar member⟩

section Window

variable {startMs cutoffMs onboardMs : Int} {expected : List Int}
  (window : expectedDays startMs cutoffMs onboardMs = expected)

include window

theorem expected_ascending : expected.Pairwise (· < ·) :=
  window ▸ dayRange_ascending _ _

theorem expected_complete {openMs : Int} (isExpected : openMs ∈ expected) :
    openMs < cutoffMs := by
  rw [← window] at isExpected
  exact (mem_dayRange.mp isExpected).2.1

/-- The request completes the evidence when every missing bar is in reach. -/
theorem complete_iff_withinReach (rows : List Json) :
    market.rowsOn symbol (coveredDays readInt expected rows ++
        coveredDays readInt expected ((market.brought symbol cutoffMs
          (missingDays readInt expected rows)).map Prod.snd)) =
      market.rowsOn symbol expected ↔
    market.WithinReach symbol expected rows := by
  have ascending : (missingDays readInt expected rows).Pairwise (· < ·) :=
    (expected_ascending window).filter _
  have complete : ∀ openMs ∈ missingDays readInt expected rows,
      openMs < cutoffMs := fun openMs isMissing =>
    expected_complete window (List.mem_of_mem_filter isMissing)
  rw [rowsOn_eq_iff]
  constructor
  · intro whole first isFirst bar member isMissing
    rw [← mem_brought_iff ascending complete isFirst member isMissing]
    have isExpected := List.mem_of_mem_filter isMissing
    rcases List.mem_append.mp ((whole bar member).mpr isExpected) with
      cached | brings
    · have given := of_decide_eq_true (List.mem_filter.mp cached).2
      have absent := of_decide_eq_true (List.mem_filter.mp isMissing).2
      exact absurd given absent
    · exact ((mem_coveredDays_brought member).mp brings).2
  · intro reach bar member
    rw [List.mem_append, mem_coveredDays_brought member]
    constructor
    · rintro (cached | brings)
      · exact List.mem_of_mem_filter cached
      · exact brings.1
    · intro isExpected
      by_cases given : some bar.1 ∈ rows.map (openTime? readInt)
      · exact .inl (List.mem_filter.mpr ⟨isExpected, decide_eq_true given⟩)
      · have isMissing : bar.1 ∈ missingDays readInt expected rows :=
          List.mem_filter.mpr ⟨isExpected, decide_eq_true given⟩
        rcases Option.isSome_iff_exists.mp (List.isSome_head?.mpr
          (List.ne_nil_of_mem isMissing)) with ⟨first, isFirst⟩
        rw [mem_brought_iff ascending complete isFirst member isMissing]
        exact .inr ⟨isExpected, reach first isFirst bar member isMissing⟩

/-- No window has more daily bars than days. -/
theorem withinReach_nil (aligned : startMs % dayMs = 0) :
    market.WithinReach symbol expected [] := by
  have missing : missingDays readInt expected [] = expected := by
    simp [missingDays]
  intro first isFirst bar member isMissing
  rw [missing] at isFirst isMissing ⊢
  rw [List.countP_eq_length_filter]
  let between := (market.bars symbol).filter fun other =>
    first ≤ other.1 ∧ other.1 ≤ bar.1
  have distinct : (between.map Prod.fst).Nodup :=
    bars_distinct.sublist (List.filter_sublist.map Prod.fst)
  have inWindow : between.map Prod.fst ⊆ expected := by
    intro openMs inBetween
    rcases List.mem_map.mp inBetween with ⟨other, kept, rfl⟩
    rcases List.mem_filter.mp kept with ⟨otherMember, bounds⟩
    rcases of_decide_eq_true bounds with ⟨started, ended⟩
    have daily := market.daily symbol other otherMember
    have firstExpected := List.mem_of_mem_head? isFirst
    rw [← window, expectedDays, mem_dayRange] at firstExpected isMissing ⊢
    simp only [dayMs] at *
    omega
  have counted := (distinct.subperm inWindow).length_le
  rwa [List.length_map] at counted

/-- Without a cache, the request brings every bar of the window. -/
theorem symbolKlines_nil (aligned : startMs % dayMs = 0) :
    symbolKlines readInt market.respond symbol startMs cutoffMs onboardMs
        [] =
      .ok (market.rowsOn symbol expected) := by
  rw [symbolKlines_eq window (fun _ member => absurd member List.not_mem_nil)]
  exact congrArg Except.ok
    ((complete_iff_withinReach window []).mpr (withinReach_nil window aligned))

end Window

/-! ## The evidence of a discovery -/

/--
The evidence is assembled for every symbol, with a cache and without, and the
bars of a symbol agree just when its missing bars are within reach.
-/
theorem incremental_eq_full_iff
    (market : KlineMarket readInt) (eligible : Dict String Int)
    (observedAt : Int) (windowDays : Nat) (cached : Dict String Json)
    (genuine : ∀ entry ∈ eligible.entries,
      market.Genuine entry.1 (observedAt / usPerDay * dayMs)
        (cachedPayload cached entry.1)) :
    ∃ incremental full : String × Int → List Json,
      fetchDailyKlines readInt market.respond eligible observedAt windowDays
          cached =
        .ok (eligible.entries.map fun entry =>
          (entry.1, incremental entry)) ∧
      fetchDailyKlines readInt market.respond eligible observedAt windowDays
          Dict.empty =
        .ok (eligible.entries.map fun entry => (entry.1, full entry)) ∧
      ∀ entry ∈ eligible.entries,
        (incremental entry = full entry ↔
          market.WithinReach entry.1
            (expectedDays
              (observedAt / usPerDay * dayMs - windowDays * dayMs)
              (observedAt / usPerDay * dayMs) entry.2)
            (cachedPayload cached entry.1)) := by
  let cutoffMs := observedAt / usPerDay * dayMs
  let startMs := cutoffMs - windowDays * dayMs
  have aligned : startMs % dayMs = 0 := by
    simp only [startMs, cutoffMs, ← Int.sub_mul, Int.mul_emod_left]
  let expected := fun entry : String × Int =>
    expectedDays startMs cutoffMs entry.2
  let rows := fun entry : String × Int => cachedPayload cached entry.1
  refine ⟨fun entry => market.rowsOn entry.1
      (coveredDays readInt (expected entry) (rows entry) ++
        coveredDays readInt (expected entry) ((market.brought entry.1 cutoffMs
          (missingDays readInt (expected entry) (rows entry))).map Prod.snd)),
    fun entry => market.rowsOn entry.1 (expected entry), ?_, ?_, ?_⟩
  · refine mapM_eq_ok_of_forall₂ (List.forall₂_map_right_iff.mpr
      (List.forall₂_same.mpr fun entry member => ?_))
    rw [symbolKlines_eq rfl (genuine entry member)]
    rfl
  · refine mapM_eq_ok_of_forall₂ (List.forall₂_map_right_iff.mpr
      (List.forall₂_same.mpr fun entry member => ?_))
    have whole :
        symbolKlines readInt market.respond entry.1 startMs cutoffMs entry.2
            [] =
          .ok (market.rowsOn entry.1 (expected entry)) :=
      symbolKlines_nil rfl aligned
    rw [show cachedPayload Dict.empty entry.1 = [] from rfl, whole]
    rfl
  · intro entry _
    exact complete_iff_withinReach rfl (rows entry)

/-! ## Samples -/

/-- `int(value)` of an integer. -/
def wholeInteger : Json → Option Int
  | .integer value => some value
  | _ => none

/-- A bar of a day, of which only the opening time matters. -/
def sampleBar (day : Nat) : Int × Json :=
  (day * dayMs, .array (.integer (day * dayMs) :: List.replicate 8 .null))

theorem sampleBars_ascending
    {days : List Nat} (ascending : days.Pairwise (· < ·)) :
    (days.map sampleBar).Pairwise fun left right => left.1 < right.1 := by
  rw [List.pairwise_map]
  refine ascending.imp fun before => ?_
  simp only [sampleBar, dayMs]
  omega

theorem sampleBars_daily
    {days : List Nat} : ∀ bar ∈ days.map sampleBar, bar.1 % dayMs = 0 := by
  intro bar member
  rcases List.mem_map.mp member with ⟨day, _, rfl⟩
  exact Int.mul_emod_left _ _

theorem sampleBars_readable
    {days : List Nat} :
    ∀ bar ∈ days.map sampleBar,
      openTime? wholeInteger bar.2 = some bar.1 := by
  intro bar member
  rcases List.mem_map.mp member with ⟨day, _, rfl⟩
  rfl

/-- A market with bars of these days. -/
def sampleMarket (days : List Nat) (ascending : days.Pairwise (· < ·)) :
    KlineMarket wholeInteger where
  bars _ := days.map sampleBar
  ascending _ := sampleBars_ascending ascending
  daily _ := sampleBars_daily
  readable _ := sampleBars_readable

/-- Cached evidence of one symbol. -/
def sampleCache (days : List Nat) : Dict String Json :=
  Dict.empty.set "BTCUSDT" (.object [("payload",
    .array (days.map fun day => (sampleBar day).2))])

theorem sampleCache_genuine
    {days cachedDays : List Nat} {ascending : days.Pairwise (· < ·)}
    {cutoffDay : Nat} (existing : cachedDays ⊆ days)
    (complete : ∀ day ∈ cachedDays, day < cutoffDay) :
    (sampleMarket days ascending).Genuine "BTCUSDT" (cutoffDay * dayMs)
      (cachedPayload (sampleCache cachedDays) "BTCUSDT") := by
  intro row inCache
  rcases List.mem_map.mp (show row ∈ cachedDays.map _ from inCache) with
    ⟨day, inDays, rfl⟩
  refine ⟨_, List.mem_map_of_mem (existing inDays), ?_⟩
  have before := complete day inDays
  simp only [dayMs]
  omega

/-- A market with a bar of every day. -/
def steadyMarket : KlineMarket wholeInteger :=
  sampleMarket (List.range 20) List.pairwise_lt_range

/-- The newest day alone is missing: one bar completes the window. -/
theorem incremental_eq_full_newest :
    ∃ incremental full : String × Int → List Json,
      fetchDailyKlines wholeInteger steadyMarket.respond
          (Dict.empty.set "BTCUSDT" 1) (20 * usPerDay) 14
          (sampleCache (List.range 19)) =
        .ok [("BTCUSDT", incremental ("BTCUSDT", 1))] ∧
      fetchDailyKlines wholeInteger steadyMarket.respond
          (Dict.empty.set "BTCUSDT" 1) (20 * usPerDay) 14 Dict.empty =
        .ok [("BTCUSDT", full ("BTCUSDT", 1))] ∧
      incremental ("BTCUSDT", 1) = full ("BTCUSDT", 1) := by
  have genuine : steadyMarket.Genuine "BTCUSDT" ((20 : Nat) * dayMs)
      (cachedPayload (sampleCache (List.range 19)) "BTCUSDT") :=
    sampleCache_genuine (by decide) (by decide)
  rcases incremental_eq_full_iff steadyMarket (Dict.empty.set "BTCUSDT" 1)
      (20 * usPerDay) 14 (sampleCache (List.range 19)) (by
        intro entry member
        cases List.mem_singleton.mp member
        exact genuine) with
    ⟨incremental, full, assembled, fetched, agree⟩
  refine ⟨incremental, full, assembled, fetched,
    (agree _ List.mem_cons_self).mpr ?_⟩
  unfold WithinReach
  decide +kernel

/-- The days of a window which has no bar of the eleventh day. -/
def holedDays : List Nat := [6, 7, 8, 9, 11, 12, 13, 14, 15, 16, 17, 18]

/--
One day of the window has no bar, and the newest day is missing: both bars of
the request are cached ones, and the newest day is not fetched.
-/
theorem newest_day_behind_hole :
    let market := sampleMarket (holedDays ++ [19]) (by decide)
    market.Genuine "BTCUSDT" (20 * dayMs)
      (cachedPayload (sampleCache holedDays) "BTCUSDT") ∧
    fetchDailyKlines wholeInteger market.respond
        (Dict.empty.set "BTCUSDT" 1) (20 * usPerDay) 14
        (sampleCache holedDays) =
      .ok [("BTCUSDT", holedDays.map fun day => (sampleBar day).2)] ∧
    fetchDailyKlines wholeInteger market.respond
        (Dict.empty.set "BTCUSDT" 1) (20 * usPerDay) 14 Dict.empty =
      .ok [("BTCUSDT", (holedDays ++ [19]).map fun day =>
        (sampleBar day).2)] := by
  intro market
  have genuine : market.Genuine "BTCUSDT" ((20 : Nat) * dayMs)
      (cachedPayload (sampleCache holedDays) "BTCUSDT") :=
    sampleCache_genuine (by decide) (by decide)
  refine ⟨genuine, ?_, ?_⟩
  · rfl
  · rfl

end KlineMarket

end ShadowDataPlane.Edge
