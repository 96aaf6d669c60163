import ShadowDataPlane.Central.SelectionWellFormed
import ShadowDataPlane.Foundation.StableSort

/-!
# Depth evidence for a part of the market

Depth is sampled only for the symbols of `liquidityValidationSymbols`: the first
of the rows which pass the volume gate, in the orders of the two pools.  The
pools are built later, from the histories of the symbols which a second
`exchangeInfo` confirms and with the full quality gate.

The restriction removes rows from a pool and moves none.  A symbol keeps its
rank because whatever is ranked before it passes the volume gate as well, and
so stands before it in the order of the prefilter, as long as both documents
give the same onboarding dates.
-/

namespace ShadowDataPlane.Central

open ShadowDataPlane.Contracts
open ShadowDataPlane.Foundation

/-- `RollingPolicy` with the fields which only the prefilter reads. -/
structure DepthPolicy (δ : Type) extends RollingPolicy δ where
  depthStableCandidateCount : Nat
  depthProbeCandidateCount : Nat

/-! ## The prefilter -/

section Prefilter

variable {δ : Type} [DecimalArithmetic δ]

open DecimalArithmetic

/-- `_stable_sort_key`. -/
def stableSortKey (row : HistoricalRow δ) : δ ×ₗ δ ×ₗ δ ×ₗ δ ×ₗ String :=
  toLex (neg row.q25QuoteVolume,
    toLex (neg row.medianQuoteVolume,
      toLex (neg row.q25Trades, toLex (row.quoteVolumeCv, row.symbol))))

/-- The sort key of the youngest rows. -/
def probeSortKey (row : HistoricalRow δ) : Int ×ₗ δ ×ₗ String :=
  toLex (-row.onboardTimeMs, toLex (neg row.q25QuoteVolume, row.symbol))

/-- The rows of the symbols which are eligible in one `exchangeInfo`. -/
def validationHistories (exchangeInfo klines : Json)
    (policy : RollingPolicy δ) : Except String (List (HistoricalRow δ)) := do
  let info ← symbolInfo exchangeInfo
  let eligible := info.entries.filter fun row =>
    eligibilityReason row.2 row.1 = none
  let (bars, cutoffMs) ← dailyKlines δ klines
  historicalRows eligible bars cutoffMs policy.liquidityWindowDays

/-- Old enough, and without a missing day. -/
def StableHistory (policy : RollingPolicy δ) (row : HistoricalRow δ) : Prop :=
  policy.coreMinimumAgeDays ≤ row.ageDays ∧
    row.volumes.length = policy.liquidityWindowDays

instance stableHistoryDecidable (policy : RollingPolicy δ)
    (row : HistoricalRow δ) : Decidable (StableHistory policy row) :=
  inferInstanceAs (Decidable (_ ∧ _))

/-- Enough days since the onboarding, and all of them observed. -/
def ProbeHistory (policy : RollingPolicy δ) (row : HistoricalRow δ) : Prop :=
  policy.probeMinimumCompleteDays ≤ row.expectedProbeDays ∧
    row.observedProbeDays = row.expectedProbeDays

instance probeHistoryDecidable (policy : RollingPolicy δ)
    (row : HistoricalRow δ) : Decidable (ProbeHistory policy row) :=
  inferInstanceAs (Decidable (_ ∧ _))

/-- The volume-qualified rows which pass a test, sorted by a key. -/
def volumeRanked {κ : Type} [LinearOrder κ] (passes : HistoricalRow δ → Bool)
    (key : HistoricalRow δ → κ) (policy : RollingPolicy δ)
    (histories : List (HistoricalRow δ)) : List (HistoricalRow δ) :=
  sortByKey key (histories.filter fun row =>
    passes row ∧ volumeGate row policy)

/-- The stable rows of which the depth is sampled. -/
def stableCandidates (policy : DepthPolicy δ)
    (histories : List (HistoricalRow δ)) : List (HistoricalRow δ) :=
  (volumeRanked (fun row => StableHistory policy.toRollingPolicy row)
    stableSortKey policy.toRollingPolicy histories).take
      policy.depthStableCandidateCount

/-- The young rows of which the depth is sampled. -/
def probeCandidates (policy : DepthPolicy δ)
    (histories : List (HistoricalRow δ)) : List (HistoricalRow δ) :=
  (volumeRanked (fun row => ProbeHistory policy.toRollingPolicy row)
    probeSortKey policy.toRollingPolicy histories).take
      policy.depthProbeCandidateCount

/-- The symbols of both, without repetition. -/
def validationSymbols (policy : DepthPolicy δ)
    (histories : List (HistoricalRow δ)) : List String :=
  sortSymbols (((stableCandidates policy histories ++
    probeCandidates policy histories).map HistoricalRow.symbol).eraseDups)

/-- `liquidity_validation_symbols`. -/
def liquidityValidationSymbols (exchangeInfo klines : Json)
    (policy : DepthPolicy δ) : Except String (List String) := do
  let histories ←
    validationHistories exchangeInfo klines policy.toRollingPolicy
  .ok (validationSymbols policy histories)

end Prefilter

/-! ## Restricted evidence -/

/-- An object without the members of other names. -/
def restrictMembers (symbols : List String) : Json → Json
  | .object entries => .object (entries.filter fun entry => entry.1 ∈ symbols)
  | other => other

/-- Depth evidence with the samples of some symbols only. -/
def restrictDepth (symbols : List String) : Json → Json
  | .object members => .object (members.map fun entry =>
      if entry.1 = "symbols" then (entry.1, restrictMembers symbols entry.2)
      else entry)
  | other => other

/-- The snapshot with depth evidence of some symbols only. -/
def DiscoverySnapshot.restrict (snapshot : DiscoverySnapshot)
    (symbols : List String) (sha256 : String) : DiscoverySnapshot :=
  { snapshot with
    liquidityDepth := {
      payload := restrictDepth symbols snapshot.liquidityDepth.payload
      sha256 } }

/-! ## Restricted metrics -/

section Metrics

variable {δ : Type} [DecimalArithmetic δ]

theorem getEntry_map_value
    {ν : Type} (change : String → ν → ν) (name : String)
    (entries : List (String × ν)) :
    getEntry name (entries.map fun entry =>
        (entry.1, change entry.1 entry.2)) =
      (getEntry name entries).map (change name) := by
  induction entries with
  | nil => rfl
  | cons head rest induction =>
      rw [List.map_cons, getEntry, getEntry, induction]
      by_cases same : head.1 = name
      · rw [if_pos same, if_pos same, same]
        rfl
      · rw [if_neg same, if_neg same]

/-- Only the `symbols` member is changed. -/
theorem restrictDepth_get?
    (symbols : List String) (raw : Json) (name : String) :
    (restrictDepth symbols raw).get? name =
      if name = "symbols" then
        (raw.get? name).map (restrictMembers symbols)
      else raw.get? name := by
  cases raw with
  | object members =>
      have changed := getEntry_map_value
        (fun name value => if name = "symbols" then
          restrictMembers symbols value else value) name members
      have same : (members.map fun entry : String × Json =>
          if entry.1 = "symbols" then
            (entry.1, restrictMembers symbols entry.2) else entry) =
          members.map fun entry => (entry.1, if entry.1 = "symbols" then
            restrictMembers symbols entry.2 else entry.2) := by
        apply List.map_congr_left
        intro entry _
        split <;> rfl
      rw [restrictDepth, Json.get?, same, changed, Json.get?]
      split
      · rfl
      · exact Option.map_id'
  | _ => simp [restrictDepth, Json.get?]

/-- The metrics which a step of `_depth_metrics` adds. -/
def depthStep (spreads : Dict String (List δ))
    (result : Dict String (DepthMetrics δ)) (entry : String × Json) :
    Except String (Dict String (DepthMetrics δ)) :=
  match entry.2 with
  | .array samples => do
      let measured ← samples.mapM (depthSample entry.1)
      match symbolDepth ((spreads.get? entry.1).getD []) measured with
      | none => .ok result
      | some metrics => .ok (result.set entry.1 metrics)
  | _ => .error "invalid liquidity depth evidence"

/-- Metrics restricted to some symbols. -/
def RestrictsTo (symbols : List String)
    (restricted full : Dict String (DepthMetrics δ)) : Prop :=
  ∀ symbol, restricted.get? symbol =
    if symbol ∈ symbols then full.get? symbol else none

theorem depthStep_restricts
    {spreads : Dict String (List δ)} {symbols : List String}
    {restricted full after : Dict String (DepthMetrics δ)}
    {entry : String × Json} (restricts : RestrictsTo symbols restricted full)
    (stepped : depthStep spreads full entry = .ok after) :
    if entry.1 ∈ symbols then
      ∃ restrictedAfter,
        depthStep spreads restricted entry = .ok restrictedAfter ∧
          RestrictsTo symbols restrictedAfter after
    else RestrictsTo symbols restricted after := by
  unfold depthStep at stepped ⊢
  split at stepped
  next samples isArray =>
    rcases bind_eq_ok_iff.mp stepped with ⟨measured, read, added⟩
    rw [read, ok_bind]
    split at added
    next =>
      cases added
      split
      next => exact ⟨_, rfl, restricts⟩
      next => exact restricts
    next metrics _ =>
      cases added
      split
      next listed =>
        refine ⟨_, rfl, fun symbol => ?_⟩
        rw [Dict.get?_set, Dict.get?_set, restricts symbol]
        by_cases same : symbol = entry.1
        · simp [same, listed]
        · simp [same]
      next unlisted =>
        intro symbol
        rw [Dict.get?_set, restricts symbol]
        by_cases same : symbol = entry.1
        · simp [same, unlisted]
        · simp [same]
  next => cases stepped

theorem foldlM_depthStep_restricts
    {spreads : Dict String (List δ)} {symbols : List String}
    {restricted full after : Dict String (DepthMetrics δ)}
    {entries : List (String × Json)}
    (restricts : RestrictsTo symbols restricted full)
    (folded : entries.foldlM (depthStep spreads) full = .ok after) :
    ∃ restrictedAfter,
      (entries.filter fun entry => entry.1 ∈ symbols).foldlM
          (depthStep spreads) restricted = .ok restrictedAfter ∧
        RestrictsTo symbols restrictedAfter after := by
  induction entries generalizing restricted full with
  | nil =>
      cases folded
      exact ⟨restricted, rfl, restricts⟩
  | cons entry rest induction =>
      rw [List.foldlM_cons] at folded
      rcases bind_eq_ok_iff.mp folded with ⟨middle, stepped, continued⟩
      have next := depthStep_restricts restricts stepped
      split at next
      next listed =>
        rcases next with ⟨restrictedMiddle, restrictedStep, still⟩
        rw [List.filter_cons_of_pos (by simpa using listed),
          List.foldlM_cons, restrictedStep, ok_bind]
        exact induction still continued
      next unlisted =>
        rw [List.filter_cons_of_neg (by simpa using unlisted)]
        exact induction next continued

/-- Restricted evidence gives the restricted metrics. -/
theorem depthMetrics_restrict
    {raw : Json} {metrics : Dict String (DepthMetrics δ)}
    (read : depthMetrics raw = .ok metrics) (symbols : List String) :
    ∃ restricted, depthMetrics (restrictDepth symbols raw) = .ok restricted ∧
      RestrictsTo symbols restricted metrics := by
  unfold depthMetrics at read ⊢
  rw [restrictDepth_get?, restrictDepth_get?, if_pos rfl,
    if_neg (by decide)]
  split at read
  next entries samples isObject isArray =>
    rcases bind_eq_ok_iff.mp read with ⟨spreads, spreadsRead, folded⟩
    have nothing : RestrictsTo symbols Dict.empty
        (Dict.empty : Dict String (DepthMetrics δ)) := by
      intro symbol
      simp
    rcases foldlM_depthStep_restricts nothing folded with
      ⟨restricted, restrictedFold, restricts⟩
    rw [isObject, isArray]
    exact ⟨restricted, bind_eq_ok_iff.mpr ⟨spreads, spreadsRead,
      restrictedFold⟩, restricts⟩
  next => cases read
  next => cases read

end Metrics

/-! ## Pools of restricted rows -/

section Pools

variable {δ : Type} [DecimalArithmetic δ] {κ : Type} [LinearOrder κ]
variable {passes : HistoricalRow δ → Bool} {key : HistoricalRow δ → κ}
variable {policy : RollingPolicy δ}

/-- A history with the metrics of its symbol. -/
def rowOf (depth : Dict String (DepthMetrics δ)) (history : HistoricalRow δ) :
    MarketRow δ :=
  { (depth.get? history.symbol).getD DepthMetrics.absent with history }

/-- The quality-gated rows which pass a test, sorted by a key. -/
def qualityRanked (passes : HistoricalRow δ → Bool)
    (key : HistoricalRow δ → κ) (policy : RollingPolicy δ)
    (rows : List (MarketRow δ)) : List (MarketRow δ) :=
  sortByKey (fun row => key row.history) (rows.filter fun row =>
    passes row.history ∧ qualityGate row policy)

theorem stablePool_eq (rows : List (MarketRow δ)) :
    stablePool rows policy =
      qualityRanked (fun row => StableHistory policy row) stableSortKey policy
        rows := by
  rw [stablePool, qualityRanked, sortByKey]
  congr 1
  apply List.filter_congr
  intro row _
  rw [decide_eq_decide, decide_eq_true_eq, StableHistory, and_assoc]
  rfl

theorem probePool_eq (rows : List (MarketRow δ)) :
    probePool rows policy =
      qualityRanked (fun row => ProbeHistory policy row) probeSortKey policy
        rows := by
  rw [probePool, qualityRanked, sortByKey]
  congr 1
  apply List.filter_congr
  intro row _
  rw [decide_eq_decide, decide_eq_true_eq, ProbeHistory, and_assoc]

/-- Without samples no gate is passed. -/
theorem not_qualityGate_absent
    {depth : Dict String (DepthMetrics δ)} {history : HistoricalRow δ}
    (sampled : 0 < policy.liquidityDepthSamples)
    (absent : depth.get? history.symbol = none) :
    ¬ qualityGate (rowOf depth history) policy := by
  rintro ⟨_, counted, _⟩
  rw [rowOf, absent, Option.getD_none] at counted
  have none : (0 : Nat) = policy.liquidityDepthSamples := counted
  omega

/-- Restricted evidence leaves the rows of the symbols it covers. -/
theorem qualityRanked_restricts
    {restricted depth : Dict String (DepthMetrics δ)} {symbols : List String}
    (restricts : RestrictsTo symbols restricted depth)
    (sampled : 0 < policy.liquidityDepthSamples)
    (histories : List (HistoricalRow δ)) :
    qualityRanked passes key policy (histories.map (rowOf restricted)) =
      (qualityRanked passes key policy (histories.map (rowOf depth))).filter
        fun row => row.symbol ∈ symbols := by
  rw [qualityRanked, qualityRanked, filter_sortByKey]
  congr 1
  induction histories with
  | nil => rfl
  | cons history rest induction =>
      have metrics := restricts history.symbol
      by_cases listed : history.symbol ∈ symbols
      · have same : rowOf restricted history = rowOf depth history := by
          rw [if_pos listed] at metrics
          rw [rowOf, rowOf, metrics]
        rw [List.map_cons, List.map_cons, same, List.filter_cons,
          List.filter_cons]
        have named : (rowOf depth history).symbol ∈ symbols := listed
        split
        · rw [List.filter_cons_of_pos (by simpa using named), induction]
        · exact induction
      · rw [if_neg listed] at metrics
        have fails : ¬ qualityGate (rowOf restricted history) policy :=
          not_qualityGate_absent sampled metrics
        have unnamed : (rowOf depth history).symbol ∉ symbols := listed
        rw [List.map_cons, List.map_cons,
          List.filter_cons_of_neg (by simp [fails]), induction,
          List.filter_cons (x := rowOf depth history)]
        split
        · rw [List.filter_cons_of_neg (by simpa using unnamed)]
        · rfl

/-- A symbol has one membership and one rank in both pools. -/
def SameRank (left right : List String) (symbol : String) : Prop :=
  (symbol ∈ left ↔ symbol ∈ right) ∧
    rankIn left symbol = rankIn right symbol

theorem SameRank.of_leading
    {pool symbols : List String} {symbol : String} (listed : symbol ∈ symbols)
    (leading : ∀ before after, pool = before ++ symbol :: after →
      ∀ other ∈ before, other ∈ symbols) :
    SameRank pool (pool.filter fun other => other ∈ symbols) symbol := by
  have members : symbol ∈ pool ↔
      symbol ∈ pool.filter fun other => other ∈ symbols := by
    simp [listed]
  refine ⟨members, ?_⟩
  rw [rankIn, rankIn]
  by_cases member : symbol ∈ pool
  · have place : (pool.filter fun other => other ∈ symbols).idxOf symbol =
        pool.idxOf symbol := by
      apply idxOf_filter_of_leading _ _ member
      · simpa using listed
      · intro before after split other inFront
        simpa using leading before after split other inFront
    rw [if_pos member, if_pos (members.mp member), place]
  · rw [if_neg member, if_neg fun inRest => member (members.mpr inRest)]

/-- Whatever ranks before a candidate of the prefilter is a candidate. -/
theorem candidate_rank
    {depth : Dict String (DepthMetrics δ)} {symbols : List String}
    {histories known : List (HistoricalRow δ)} {count : Nat}
    {row : HistoricalRow δ}
    (subset : ∀ history ∈ histories, history ∈ known)
    (distinct : (known.map HistoricalRow.symbol).Nodup)
    (unique : ∀ left right, key left = key right →
      left.symbol = right.symbol)
    (listed : ∀ candidate ∈ (volumeRanked passes key policy known).take count,
      candidate.symbol ∈ symbols)
    (candidate : row ∈ (volumeRanked passes key policy known).take count) :
    SameRank
      (symbolsOf (qualityRanked passes key policy
        (histories.map (rowOf depth))))
      ((symbolsOf (qualityRanked passes key policy
        (histories.map (rowOf depth)))).filter fun other => other ∈ symbols)
      row.symbol := by
  apply SameRank.of_leading (listed row candidate)
  intro before after split other inFront
  -- The pool's rows at both places, and their histories in the prefilter.
  rcases List.map_eq_append_iff.mp split with
    ⟨front, back, poolSplit, frontNames, backNames⟩
  rcases List.map_eq_cons_iff.mp backNames with
    ⟨ranked, later, rfl, named, _⟩
  rw [← frontNames] at inFront
  rcases List.mem_map.mp inFront with ⟨earlier, isEarlier, rfl⟩
  have sorted := @sortByKey_sorted (MarketRow δ) κ _
    (fun row => key row.history)
    ((histories.map (rowOf depth)).filter fun row =>
      passes row.history ∧ qualityGate row policy)
  rw [← qualityRanked, poolSplit, List.pairwise_append] at sorted
  have above := sorted.2.2 earlier isEarlier ranked List.mem_cons_self
  have qualified (found : MarketRow δ) (member : found ∈ qualityRanked passes
      key policy (histories.map (rowOf depth))) :
      found.history ∈ volumeRanked passes key policy known := by
    rw [qualityRanked, mem_sortByKey, List.mem_filter,
      decide_eq_true_eq] at member
    rcases List.mem_map.mp member.1 with ⟨history, isHistory, rfl⟩
    rw [volumeRanked, mem_sortByKey, List.mem_filter, decide_eq_true_eq]
    exact ⟨subset history isHistory, member.2.1, member.2.2.1⟩
  have inKnown (found : HistoricalRow δ)
      (member : found ∈ volumeRanked passes key policy known) :
      found ∈ known :=
    List.mem_of_mem_filter (mem_sortByKey.mp member)
  have rankedQualified := qualified ranked (by rw [poolSplit]; simp)
  have earlierQualified := qualified earlier
    (by rw [poolSplit]; exact List.mem_append_left _ isEarlier)
  have rowQualified := List.mem_of_mem_take candidate
  have same : ranked.history = row :=
    List.inj_on_of_nodup_map distinct (inKnown _ rankedQualified)
      (inKnown _ rowQualified) named
  rw [same] at above
  apply listed earlier.history
  apply mem_take_of_key_le (sortByKey_sorted _) candidate earlierQualified
    above
  intro keysAgree
  exact List.inj_on_of_nodup_map distinct (inKnown _ earlierQualified)
    (inKnown _ rowQualified) (unique _ _ keysAgree)

end Pools

/-! ## The histories of both documents -/

/-- Both `exchangeInfo` documents date the symbols they agree on alike. -/
def SameOnboarding (snapshot : DiscoverySnapshot) : Prop :=
  ∀ firstInfo confirmedInfo symbol raw confirmation,
    symbolInfo snapshot.exchangeInfo.payload = .ok firstInfo →
    symbolInfo snapshot.exchangeInfoConfirmation.payload =
      .ok confirmedInfo →
    firstInfo.get? symbol = some raw →
    confirmedInfo.get? symbol = some confirmation →
    eligibilityReason raw symbol = none →
    eligibilityReason confirmation symbol = none →
    raw.get? "onboardDate" = confirmation.get? "onboardDate"

section Histories

variable {δ : Type} [DecimalArithmetic δ]
variable {klines : Dict String (List Json)} {cutoffMs : Int}
variable {windowDays : Nat}

/-- Of its document a row keeps the onboarding date only. -/
theorem historicalRow_congr
    {symbol : String} {raw other : Json}
    (dated : raw.get? "onboardDate" = other.get? "onboardDate") :
    historicalRow (δ := δ) klines cutoffMs windowDays symbol raw =
      historicalRow klines cutoffMs windowDays symbol other := by
  rw [historicalRow, historicalRow, dated]

theorem mem_historicalRows_iff
    {eligible : List (String × Json)} {rows : List (HistoricalRow δ)}
    (read : historicalRows eligible klines cutoffMs windowDays = .ok rows)
    (row : HistoricalRow δ) :
    row ∈ rows ↔ ∃ entry ∈ eligible,
      historicalRow klines cutoffMs windowDays entry.1 entry.2 =
        .ok (some row) := by
  rw [historicalRows, bind_eq_ok_iff] at read
  rcases read with ⟨found, mapped, kept⟩
  rw [← Except.ok.inj kept, List.mem_filterMap]
  constructor
  · rintro ⟨row?, member, isRow⟩
    rw [show row? = some row from isRow] at member
    exact exists_of_mem_mapM mapped member
  · rintro ⟨entry, member, converted⟩
    rcases exists_result_of_mem_mapM mapped member with
      ⟨row?, isResult, read⟩
    cases converted.symm.trans read
    exact ⟨some row, isResult, rfl⟩

/-- Every history of the pools is one of the prefilter. -/
theorem history_known
    {snapshot : DiscoverySnapshot} {firstInfo confirmedInfo : Dict String Json}
    {histories known : List (HistoricalRow δ)}
    (agree : SameOnboarding snapshot)
    (first : symbolInfo snapshot.exchangeInfo.payload = .ok firstInfo)
    (confirmed : symbolInfo snapshot.exchangeInfoConfirmation.payload =
      .ok confirmedInfo)
    (read : historicalRows (eligibleRows firstInfo confirmedInfo) klines
      cutoffMs windowDays = .ok histories)
    (knownRead : historicalRows (firstInfo.entries.filter fun row =>
      eligibilityReason row.2 row.1 = none) klines cutoffMs windowDays =
        .ok known)
    {history : HistoricalRow δ} (member : history ∈ histories) :
    history ∈ known := by
  rcases (mem_historicalRows_iff read history).mp member with
    ⟨⟨symbol, confirmation⟩, isEligible, converted⟩
  rcases List.mem_filterMap.mp isEligible with ⟨⟨named, raw⟩, inFirst, passes⟩
  rcases eligibleRow_eq_some passes with ⟨rfl, isConfirmed, clean, confirms⟩
  rw [mem_historicalRows_iff knownRead]
  refine ⟨(symbol, raw), ?_, ?_⟩
  · rw [List.mem_filter, decide_eq_true_eq]
    exact ⟨inFirst, clean⟩
  · have dated := agree firstInfo confirmedInfo symbol raw confirmation first
      confirmed (firstInfo.mem_entries_iff.mp inFirst) isConfirmed clean
      confirms
    rw [historicalRow_congr dated]
    exact converted

theorem known_distinct
    {info : Dict String Json} {known : List (HistoricalRow δ)}
    (read : historicalRows (info.entries.filter fun row =>
      eligibilityReason row.2 row.1 = none) klines cutoffMs windowDays =
        .ok known) :
    (known.map HistoricalRow.symbol).Nodup :=
  (info.distinct.sublist (List.filter_sublist.map Prod.fst)).sublist
    (historicalRows_sublist read)

end Histories

/-! ## The pools of the restricted snapshot -/

section Snapshot

variable {δ : Type} [DecimalArithmetic δ] {snapshot : DiscoverySnapshot}
variable {policy : DepthPolicy δ} {tracked : List String}
variable {rows : List (MarketRow δ)} {inactive : List String}
variable {known : List (HistoricalRow δ)}

/-- The market rows of a snapshot and of one with restricted depth. -/
theorem marketRows_restrict
    {windowDays : Nat}
    (shown : marketRows snapshot tracked windowDays = .ok (rows, inactive))
    (symbols : List String) (sha256 : String) :
    ∃ (firstInfo confirmedInfo : Dict String Json)
        (klines : Dict String (List Json) × Int)
        (histories : List (HistoricalRow δ))
        (restricted depth : Dict String (DepthMetrics δ)),
      symbolInfo snapshot.exchangeInfo.payload = .ok firstInfo ∧
      symbolInfo snapshot.exchangeInfoConfirmation.payload =
        .ok confirmedInfo ∧
      dailyKlines δ snapshot.dailyKlines.payload = .ok klines ∧
      historicalRows (eligibleRows firstInfo confirmedInfo) klines.1 klines.2
        windowDays = .ok histories ∧
      RestrictsTo symbols restricted depth ∧
      rows = histories.map (rowOf depth) ∧
      marketRows (snapshot.restrict symbols sha256) tracked windowDays =
        .ok (histories.map (rowOf restricted), inactive) := by
  simp only [marketRows, bind_eq_ok_iff] at shown
  rcases shown with ⟨firstInfo, first, confirmedInfo, confirmed, klines,
    klinesRead, histories, historiesRead, depth, depthRead, built⟩
  cases built
  rcases depthMetrics_restrict depthRead symbols with
    ⟨restricted, restrictedRead, restricts⟩
  refine ⟨firstInfo, confirmedInfo, klines, histories, restricted, depth,
    first, confirmed, klinesRead, historiesRead, restricts, rfl, ?_⟩
  simp only [marketRows, bind_eq_ok_iff]
  exact ⟨firstInfo, first, confirmedInfo, confirmed, klines, klinesRead,
    histories, historiesRead, restricted, restrictedRead, rfl⟩

theorem stableSortKey_unique
    {left right : HistoricalRow δ}
    (same : stableSortKey left = stableSortKey right) :
    left.symbol = right.symbol := by
  simp only [stableSortKey, EmbeddingLike.apply_eq_iff_eq, Prod.mk.injEq]
    at same
  exact same.2.2.2.2

theorem probeSortKey_unique
    {left right : HistoricalRow δ}
    (same : probeSortKey left = probeSortKey right) :
    left.symbol = right.symbol := by
  simp only [probeSortKey, EmbeddingLike.apply_eq_iff_eq, Prod.mk.injEq]
    at same
  exact same.2.2

theorem candidates_listed
    {row : HistoricalRow δ}
    (candidate : row ∈ stableCandidates policy known ∨
      row ∈ probeCandidates policy known) :
    row.symbol ∈ validationSymbols policy known := by
  rw [validationSymbols, mem_sortSymbols, List.mem_eraseDups]
  exact List.mem_map_of_mem (List.mem_append.mpr candidate)

theorem symbolsOf_filter
    {δ : Type} (symbols : List String) (pool : List (MarketRow δ)) :
    symbolsOf (pool.filter fun row => row.symbol ∈ symbols) =
      (symbolsOf pool).filter fun symbol => symbol ∈ symbols := by
  rw [symbolsOf, symbolsOf, List.filter_map]
  rfl

/--
With the depth of the prefilter's symbols only, the candidates of the
prefilter have the membership and the rank in both pools which they have with
all the depth there is.
-/
theorem restricted_depth_keeps_ranks
    (agree : SameOnboarding snapshot)
    (sampled : 0 < policy.liquidityDepthSamples)
    (shown : marketRows snapshot tracked policy.liquidityWindowDays =
      .ok (rows, inactive))
    (read : validationHistories snapshot.exchangeInfo.payload
      snapshot.dailyKlines.payload policy.toRollingPolicy = .ok known)
    (sha256 : String) :
    liquidityValidationSymbols snapshot.exchangeInfo.payload
        snapshot.dailyKlines.payload policy =
      .ok (validationSymbols policy known) ∧
    ∃ restrictedRows : List (MarketRow δ),
      marketRows (snapshot.restrict (validationSymbols policy known) sha256)
          tracked policy.liquidityWindowDays =
        .ok (restrictedRows, inactive) ∧
      (∀ row ∈ stableCandidates policy known,
        SameRank (symbolsOf (stablePool rows policy.toRollingPolicy))
          (symbolsOf (stablePool restrictedRows policy.toRollingPolicy))
          row.symbol) ∧
      ∀ row ∈ probeCandidates policy known,
        SameRank (symbolsOf (probePool rows policy.toRollingPolicy))
          (symbolsOf (probePool restrictedRows policy.toRollingPolicy))
          row.symbol := by
  refine ⟨by rw [liquidityValidationSymbols, read, ok_bind], ?_⟩
  rcases marketRows_restrict shown (validationSymbols policy known) sha256 with
    ⟨firstInfo, confirmedInfo, klines, histories, restricted, depth, first,
      confirmed, klinesRead, historiesRead, restricts, rfl, restrictedShown⟩
  simp only [validationHistories, first, klinesRead, ok_bind] at read
  have subset (history : HistoricalRow δ) (member : history ∈ histories) :
      history ∈ known :=
    history_known agree first confirmed historiesRead read member
  have distinct := known_distinct read
  refine ⟨_, restrictedShown, ?_, ?_⟩
  · intro row candidate
    rw [stablePool_eq, stablePool_eq,
      qualityRanked_restricts restricts sampled, symbolsOf_filter]
    exact candidate_rank subset distinct (fun _ _ => stableSortKey_unique)
      (fun other isCandidate => candidates_listed (Or.inl isCandidate))
      candidate
  · intro row candidate
    rw [probePool_eq, probePool_eq,
      qualityRanked_restricts restricts sampled, symbolsOf_filter]
    exact candidate_rank subset distinct (fun _ _ => probeSortKey_unique)
      (fun other isCandidate => candidates_listed (Or.inr isCandidate))
      candidate

end Snapshot

/-! ## A symbol which is dated twice

Two symbols with equal histories: the second document dates `S10` earlier than
the first, in which it is too young for either pool.
-/

def pairInfo (firstDay : Int) : Evidence where
  payload := .object [("symbols", .array
    [sampleInfo firstDay "S10", sampleInfo 19000 "S11"])]
  sha256 := "exchange-info"

def pairKlines : Evidence where
  payload := .object [("window_end_exclusive_ms", .integer (20000 * dayMs)),
    ("symbols", .object (["S10", "S11"].map fun symbol =>
      (symbol, .object [("payload", .array
        ((List.range 14).map fun index => sampleBar (19986 + index)))])))]
  sha256 := "daily-klines"

def pairTickers : Json :=
  .object [("payload", .array (["S10", "S11"].map fun symbol =>
    .object [("symbol", .text symbol), ("bidPrice", .integer 100),
      ("askPrice", .integer 100)]))]

def pairDepth : Evidence where
  payload := .object [
    ("symbols", .object (["S10", "S11"].map fun symbol =>
      (symbol, .array (List.replicate 3 sampleBook)))),
    ("book_tickers", .array (List.replicate 5 pairTickers))]
  sha256 := "liquidity-depth"

/-- The market of the two, with `S10` onboarded on `firstDay` at first. -/
def pairSnapshot (firstDay : Int) : DiscoverySnapshot where
  observedAt := 19999 * usPerDay
  exchangeInfo := pairInfo firstDay
  exchangeInfoConfirmation := pairInfo 19000
  marketTickers := ⟨.null, "market-tickers"⟩
  dailyKlines := pairKlines
  liquidityDepth := pairDepth

def samplePrefilter : DepthPolicy ℚ where
  toRollingPolicy := defaultPolicy
  depthStableCandidateCount := 200
  depthProbeCandidateCount := 100

theorem pairSnapshot_sameOnboarding : SameOnboarding (pairSnapshot 19000) := by
  intro firstInfo confirmedInfo symbol raw confirmation first confirmed
    isFirst isConfirmed _ _
  cases first.symm.trans confirmed
  cases isFirst.symm.trans isConfirmed
  rfl

/-- Only the first of each pool is sampled. -/
def narrowPrefilter : DepthPolicy ℚ where
  toRollingPolicy := defaultPolicy
  depthStableCandidateCount := 1
  depthProbeCandidateCount := 1

/-- The prefilter drops `S11` and leaves `S10` where it was. -/
theorem restricted_depth_keeps_ranks_pair :
    ∃ (rows restrictedRows : List (MarketRow ℚ)) (inactive : List String)
        (known : List (HistoricalRow ℚ)),
      marketRows (pairSnapshot 19000) [] 14 = .ok (rows, inactive) ∧
        symbolsOf (stablePool rows defaultPolicy) = ["S10", "S11"] ∧
        validationSymbols narrowPrefilter known = ["S10"] ∧
        marketRows ((pairSnapshot 19000).restrict
          (validationSymbols narrowPrefilter known) "restricted") [] 14 =
            .ok (restrictedRows, inactive) ∧
        ∀ row ∈ stableCandidates narrowPrefilter known,
          SameRank (symbolsOf (stablePool rows defaultPolicy))
            (symbolsOf (stablePool restrictedRows defaultPolicy))
            row.symbol := by
  have rowsShown : ((marketRows (δ := ℚ) (pairSnapshot 19000) []
      14).toOption.map fun shown =>
        symbolsOf (stablePool shown.1 defaultPolicy)) =
          some ["S10", "S11"] := by
    decide +kernel
  have histories : ((validationHistories (pairInfo 19000).payload
      pairKlines.payload defaultPolicy).toOption.map
        (validationSymbols narrowPrefilter)) = some ["S10"] := by
    decide +kernel
  rcases Option.map_eq_some_iff.mp rowsShown with
    ⟨⟨rows, inactive⟩, shown, pool⟩
  rcases Option.map_eq_some_iff.mp histories with ⟨known, read, symbols⟩
  rcases @restricted_depth_keeps_ranks ℚ _ (pairSnapshot 19000)
    narrowPrefilter [] rows inactive known pairSnapshot_sameOnboarding
    (by decide) (eq_ok_of_toOption shown) (eq_ok_of_toOption read)
    "restricted" with ⟨_, restrictedRows, restrictedShown, stable, _⟩
  exact ⟨rows, restrictedRows, inactive, known, eq_ok_of_toOption shown,
    pool, symbols, restrictedShown, stable⟩

theorem redated_symbol_moves_rank :
    (liquidityValidationSymbols (pairInfo 19995).payload pairKlines.payload
        samplePrefilter).toOption = some ["S11"] ∧
      (validationHistories (pairInfo 19995).payload pairKlines.payload
        defaultPolicy).toOption.map (fun known =>
          (stableCandidates samplePrefilter known).map
            HistoricalRow.symbol) = some ["S11"] ∧
      (marketRows (δ := ℚ) (pairSnapshot 19995) [] 14).toOption.map
        (fun shown => rankIn (symbolsOf (stablePool shown.1 defaultPolicy))
          "S11") = some 2 ∧
      (marketRows (δ := ℚ) ((pairSnapshot 19995).restrict ["S11"]
        "restricted") [] 14).toOption.map
        (fun shown => rankIn (symbolsOf (stablePool shown.1 defaultPolicy))
          "S11") = some 1 := by
  refine ⟨?_, ?_, ?_, ?_⟩
  · decide +kernel
  · decide +kernel
  · decide +kernel
  · decide +kernel

end ShadowDataPlane.Central
