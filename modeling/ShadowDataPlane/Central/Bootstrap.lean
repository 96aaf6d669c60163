import ShadowDataPlane.Central.SelectionWellFormed

/-!
# Bootstrap selection and validation

`selectBootstrapUniverse` picks the first sixty symbols, the probe from its pool
first and the other roles from the stable symbols it leaves over.  An operator
configures these roles, and `validateBootstrapUniverse` checks them against the
evidence, the other way round: it takes the configured probe out of the stable
pool and asks for the members of each role in their pool.
-/

namespace ShadowDataPlane.Central

open ShadowDataPlane.Contracts
open ShadowDataPlane.Foundation

section Bootstrap

variable {δ : Type} [DecimalArithmetic δ]

/-- The probe pool without rows whose window has missing days. -/
def formalProbePool (rows : List (MarketRow δ)) (policy : RollingPolicy δ) :
    List (MarketRow δ) :=
  (probePool rows policy).filter fun row =>
    row.history.volumes.length = policy.liquidityWindowDays

/-- `select_bootstrap_universe`. -/
def selectBootstrapUniverse (snapshot : DiscoverySnapshot)
    (policy : RollingPolicy δ) : Except String SelectionResult := do
  let (rows, _) ← marketRows (δ := δ) snapshot [] policy.liquidityWindowDays
  let pool := formalProbePool rows policy
  if pool.length < 5 then
    .error ("only " ++ toString pool.length ++
      " probe candidates pass the formal gates")
  else
    let probe := sortSymbols (symbolsOf (pool.take 5))
    let stable := (stablePool rows policy).filter fun row =>
      row.symbol ∉ probe
    if stable.length < 55 then
      .error ("only " ++ toString stable.length ++
        " stable candidates pass the formal gates")
    else
      .ok {
        core := sortSymbols (symbolsOf (stable.take 50))
        boundary := sortSymbols (symbolsOf ((stable.drop 50).take 5))
        probe
        inactive := []
        sourceHashes := snapshot.sourceHashes
        stablePoolCount := stable.length
        probePoolCount := pool.length }

end Bootstrap

section Agreement

variable {δ : Type} [DecimalArithmetic δ]
variable {snapshot : DiscoverySnapshot} {policy : RollingPolicy δ}
variable {rows : List (MarketRow δ)} {inactive : List String}

/-- The rows do not depend on the symbols which are tracked. -/
theorem marketRows_tracked
    {tracked : List String} {windowDays : Nat}
    (shown : marketRows snapshot tracked windowDays = .ok (rows, inactive))
    (others : List String) :
    ∃ otherInactive, marketRows snapshot others windowDays =
      .ok (rows, otherInactive) := by
  simp only [marketRows, bind_eq_ok_iff] at shown ⊢
  rcases shown with ⟨firstInfo, first, confirmedInfo, confirmed, klines,
    klinesRead, histories, historiesRead, depth, depthRead, built⟩
  cases built
  exact ⟨_, firstInfo, first, confirmedInfo, confirmed, klines, klinesRead,
    histories, historiesRead, depth, depthRead, rfl⟩

/-- Symbols with a row are not inactive. -/
theorem no_inactive
    {δ : Type} {rows : List (MarketRow δ)} {tracked : List String}
    (shown : MarketShown snapshot tracked rows inactive)
    (rowed : ∀ symbol ∈ tracked, ∃ row ∈ rows, row.symbol = symbol) :
    inactive = [] := by
  apply List.eq_nil_iff_forall_not_mem.mpr
  intro symbol member
  rcases (shown.inactive_iff symbol).mp member with ⟨isTracked, ineligible⟩
  rcases rowed symbol isTracked with ⟨row, isRow, rfl⟩
  exact ineligible (shown.eligible row isRow)

/-! ## The selected roles -/

/-- The first five symbols of the formal probe pool. -/
def bootstrapProbe (rows : List (MarketRow δ)) (policy : RollingPolicy δ) :
    List String :=
  sortSymbols (symbolsOf ((formalProbePool rows policy).take 5))

/-- The stable rows which a probe role leaves over, best first. -/
def stableApart (rows : List (MarketRow δ)) (policy : RollingPolicy δ)
    (probe : List String) : List (MarketRow δ) :=
  (stablePool rows policy).filter fun row => row.symbol ∉ probe

/-- What a bootstrap selection returns. -/
def bootstrapResult (snapshot : DiscoverySnapshot)
    (rows : List (MarketRow δ)) (policy : RollingPolicy δ) :
    SelectionResult where
  core := sortSymbols (symbolsOf
    ((stableApart rows policy (bootstrapProbe rows policy)).take 50))
  boundary := sortSymbols (symbolsOf
    (((stableApart rows policy (bootstrapProbe rows policy)).drop 50).take 5))
  probe := bootstrapProbe rows policy
  inactive := []
  sourceHashes := snapshot.sourceHashes
  stablePoolCount :=
    (stableApart rows policy (bootstrapProbe rows policy)).length
  probePoolCount := (formalProbePool rows policy).length

/-- A selection which returns has both pools, and picks from their fronts. -/
theorem selectBootstrapUniverse_eq_ok
    {result : SelectionResult}
    (selected : selectBootstrapUniverse snapshot policy = .ok result) :
    ∃ (rows : List (MarketRow δ)) (inactive : List String),
      marketRows snapshot [] policy.liquidityWindowDays =
          .ok (rows, inactive) ∧
        5 ≤ (formalProbePool rows policy).length ∧
        55 ≤ (stableApart rows policy (bootstrapProbe rows policy)).length ∧
        result = bootstrapResult snapshot rows policy := by
  rw [selectBootstrapUniverse, bind_eq_ok_iff] at selected
  rcases selected with ⟨⟨rows, inactive⟩, shown, selected⟩
  refine ⟨rows, inactive, shown, ?_⟩
  dsimp only at selected
  split at selected
  next => cases selected
  next pooled =>
    split at selected
    next => cases selected
    next left =>
      exact ⟨Nat.le_of_not_lt pooled, Nat.le_of_not_lt left,
        (Except.ok.inj selected).symm⟩

/-- Fifty, five and five symbols, sorted, without repetition. -/
structure BootstrapRoles (core boundary probe : List String) : Prop where
  coreLength : core.length = 50
  boundaryLength : boundary.length = 5
  probeLength : probe.length = 5
  coreSorted : core.Pairwise (· ≤ ·)
  boundarySorted : boundary.Pairwise (· ≤ ·)
  probeSorted : probe.Pairwise (· ≤ ·)
  distinct : (core ++ boundary ++ probe).Nodup

theorem symbolsOf_stableApart (probe : List String) :
    symbolsOf (stableApart rows policy probe) =
      (symbolsOf (stablePool rows policy)).filter fun symbol =>
        symbol ∉ probe := by
  rw [symbolsOf, symbolsOf, stableApart, List.filter_map]
  rfl

theorem stableApart_distinct
    (distinct : (symbolsOf rows).Nodup) (probe : List String) :
    (symbolsOf (stableApart rows policy probe)).Nodup := by
  rw [symbolsOf_stableApart]
  exact (symbolsOf_pool_distinct distinct).filter _

theorem formalProbePool_distinct (distinct : (symbolsOf rows).Nodup) :
    (symbolsOf (formalProbePool rows policy)).Nodup :=
  (symbolsOf_pool_distinct distinct).sublist
    (List.filter_sublist.map MarketRow.symbol)

/-- The stable symbols of the two stable roles are the first fifty-five. -/
theorem stable_roles_perm :
    ((bootstrapResult snapshot rows policy).core ++
      (bootstrapResult snapshot rows policy).boundary).Perm
      (symbolsOf ((stableApart rows policy
        (bootstrapProbe rows policy)).take 55)) := by
  calc
    List.Perm _ (symbolsOf ((stableApart rows policy
            (bootstrapProbe rows policy)).take 50) ++
          symbolsOf (((stableApart rows policy
            (bootstrapProbe rows policy)).drop 50).take 5)) :=
      (sortSymbols_perm _).append (sortSymbols_perm _)
    _ = _ := by
      rw [symbolsOf, symbolsOf, symbolsOf, ← List.map_append,
        ← List.take_add]

theorem mem_stable_of_mem_roles
    {symbol : String}
    (member : symbol ∈ (bootstrapResult snapshot rows policy).core ++
      (bootstrapResult snapshot rows policy).boundary) :
    symbol ∈ symbolsOf (stableApart rows policy
      (bootstrapProbe rows policy)) :=
  ((List.take_sublist _ _).map MarketRow.symbol).subset
    (stable_roles_perm.mem_iff.mp member)

theorem mem_formalProbePool_of_mem
    {symbol : String} (member : symbol ∈ bootstrapProbe rows policy) :
    symbol ∈ symbolsOf (formalProbePool rows policy) :=
  ((List.take_sublist _ _).map MarketRow.symbol).subset
    (mem_sortSymbols.mp member)

theorem bootstrapResult_distinct
    (distinct : (symbolsOf rows).Nodup) :
    ((bootstrapResult snapshot rows policy).core ++
      (bootstrapResult snapshot rows policy).boundary ++
      (bootstrapResult snapshot rows policy).probe).Nodup := by
  rw [List.nodup_append]
  refine ⟨?_, ?_, ?_⟩
  · rw [stable_roles_perm.nodup_iff]
    exact (stableApart_distinct distinct _).sublist
      ((List.take_sublist _ _).map MarketRow.symbol)
  · apply (sortSymbols_perm _).nodup_iff.mpr
    exact (formalProbePool_distinct distinct).sublist
      ((List.take_sublist _ _).map MarketRow.symbol)
  · rintro symbol inStable other inProbe rfl
    have outside := mem_stable_of_mem_roles inStable
    rw [symbolsOf_stableApart, List.mem_filter, decide_eq_true_eq] at outside
    exact outside.2 inProbe

theorem bootstrapResult_roles
    (distinct : (symbolsOf rows).Nodup)
    (pooled : 5 ≤ (formalProbePool rows policy).length)
    (left : 55 ≤
      (stableApart rows policy (bootstrapProbe rows policy)).length) :
    BootstrapRoles (bootstrapResult snapshot rows policy).core
      (bootstrapResult snapshot rows policy).boundary
      (bootstrapResult snapshot rows policy).probe := by
  constructor
  · simp only [bootstrapResult, length_sortSymbols, symbolsOf,
      List.length_map, List.length_take]
    omega
  · simp only [bootstrapResult, length_sortSymbols, symbolsOf,
      List.length_map, List.length_take, List.length_drop]
    omega
  · simp only [bootstrapResult, bootstrapProbe, length_sortSymbols, symbolsOf,
      List.length_map, List.length_take]
    omega
  · exact sortSymbols_sorted _
  · exact sortSymbols_sorted _
  · exact sortSymbols_sorted _
  · exact bootstrapResult_distinct distinct

/-- The bootstrap roles come from the rows. -/
theorem bootstrapResult_rowed
    {symbol : String}
    (member : symbol ∈ (bootstrapResult snapshot rows policy).core ++
      (bootstrapResult snapshot rows policy).boundary ++
      (bootstrapResult snapshot rows policy).probe) :
    ∃ row ∈ rows, row.symbol = symbol := by
  rcases List.mem_append.mp member with stable | inProbe
  · have inPool := mem_stable_of_mem_roles stable
    rw [symbolsOf_stableApart] at inPool
    exact mem_symbolsOf_pool (List.mem_of_mem_filter inPool)
  · have inPool := mem_formalProbePool_of_mem inProbe
    exact mem_symbolsOf_pool
      ((List.filter_sublist.map MarketRow.symbol).subset inPool)

/-! ## The validation -/

/-- What a validation asks of the roles it accepts. -/
structure AcceptsRoles (rows : List (MarketRow δ)) (policy : RollingPolicy δ)
    (core boundary probe : List String) : Prop where
  stable : ∀ symbol ∈ core ++ boundary,
    symbol ∈ symbolsOf (stableApart rows policy probe)
  formal : ∀ symbol ∈ probe, symbol ∈ symbolsOf (formalProbePool rows policy)
  stableEnough : 55 ≤ (stableApart rows policy probe).length
  probeEnough : 5 ≤ (formalProbePool rows policy).length

/-- No symbol is missing where all are found. -/
theorem missing_eq_nil_iff {wanted found : List String} :
    sortSymbols (wanted.eraseDups.filter fun symbol => symbol ∉ found) = [] ↔
      ∀ symbol ∈ wanted, symbol ∈ found := by
  rw [List.eq_nil_iff_forall_not_mem]
  simp [List.mem_filter]

/-- The validation accepts exactly roles of which it asks nothing more. -/
theorem validateBootstrapUniverse_eq_ok_iff
    {core boundary probe : List String} {accepted : SelectionResult}
    (shown : marketRows snapshot (sortSymbols (core ++ boundary ++ probe))
      policy.liquidityWindowDays = .ok (rows, inactive)) :
    validateBootstrapUniverse snapshot core boundary probe policy =
        .ok accepted ↔
      AcceptsRoles rows policy core boundary probe ∧
        accepted = {
          core
          boundary
          probe
          inactive
          sourceHashes := snapshot.sourceHashes
          stablePoolCount := (stableApart rows policy probe).length
          probePoolCount := (formalProbePool rows policy).length } := by
  have stableLength : (symbolsOf (stableApart rows policy probe)).length =
      (stableApart rows policy probe).length := List.length_map _
  have probeLength : (symbolsOf (formalProbePool rows policy)).length =
      (formalProbePool rows policy).length := List.length_map _
  simp only [validateBootstrapUniverse, shown, ok_bind]
  rw [← formalProbePool, ← symbolsOf_stableApart, stableLength, probeLength]
  split
  next missing =>
    constructor
    · intro accepts
      cases accepts
    · rintro ⟨validates, _⟩
      rcases missing with missingStable | missingProbe
      · exact absurd (missing_eq_nil_iff.mpr validates.stable) missingStable
      · exact absurd (missing_eq_nil_iff.mpr validates.formal) missingProbe
  next found =>
    rw [not_or, not_not, not_not, missing_eq_nil_iff, missing_eq_nil_iff]
      at found
    split
    next few =>
      constructor
      · intro accepts
        cases accepts
      · exact fun ⟨validates, _⟩ =>
          absurd few (Nat.not_lt_of_le validates.stableEnough)
    next enough =>
      split
      next few =>
        constructor
        · intro accepts
          cases accepts
        · exact fun ⟨validates, _⟩ =>
            absurd few (Nat.not_lt_of_le validates.probeEnough)
      next pooled =>
        constructor
        · intro accepts
          exact ⟨⟨found.1, found.2, Nat.le_of_not_lt enough,
            Nat.le_of_not_lt pooled⟩, (Except.ok.inj accepts).symm⟩
        · rintro ⟨_, rfl⟩
          rfl

/-- The validation of a bootstrap selection returns the selection. -/
theorem bootstrap_validates
    {tracked : List String}
    (shown : marketRows snapshot tracked policy.liquidityWindowDays =
      .ok (rows, inactive))
    (pooled : 5 ≤ (formalProbePool rows policy).length)
    (left : 55 ≤
      (stableApart rows policy (bootstrapProbe rows policy)).length) :
    validateBootstrapUniverse snapshot
        (bootstrapResult snapshot rows policy).core
        (bootstrapResult snapshot rows policy).boundary
        (bootstrapResult snapshot rows policy).probe policy =
      .ok (bootstrapResult snapshot rows policy) := by
  rcases marketRows_tracked shown (sortSymbols
    ((bootstrapResult snapshot rows policy).core ++
      (bootstrapResult snapshot rows policy).boundary ++
      (bootstrapResult snapshot rows policy).probe)) with
    ⟨otherInactive, tracked⟩
  have none := no_inactive (marketRows_shown tracked) fun symbol member =>
    bootstrapResult_rowed (mem_sortSymbols.mp member)
  rw [validateBootstrapUniverse_eq_ok_iff tracked, none]
  refine ⟨⟨?_, ?_, left, pooled⟩, rfl⟩
  · exact fun symbol member => mem_stable_of_mem_roles member
  · exact fun symbol member => mem_formalProbePool_of_mem member

/--
Whatever the bootstrap selects is fifty, five and five distinct sorted symbols,
which the validation accepts with no inactive symbol; and whatever the
validation accepts, both pools suffice for a bootstrap.
-/
theorem bootstrap_agrees
    (snapshot : DiscoverySnapshot) (policy : RollingPolicy δ) :
    (∀ result, selectBootstrapUniverse snapshot policy = .ok result →
      BootstrapRoles result.core result.boundary result.probe ∧
        result.inactive = [] ∧
        validateBootstrapUniverse snapshot result.core result.boundary
          result.probe policy = .ok result) ∧
      ∀ core boundary probe accepted,
        (core ++ boundary ++ probe).toFinset.card = 60 →
        validateBootstrapUniverse snapshot core boundary probe policy =
          .ok accepted →
        ∃ (rows : List (MarketRow δ)) (inactive : List String),
          marketRows snapshot (sortSymbols (core ++ boundary ++ probe))
              policy.liquidityWindowDays = .ok (rows, inactive) ∧
            5 ≤ (formalProbePool rows policy).length ∧
            55 ≤ (stableApart rows policy probe).length := by
  constructor
  · intro result selected
    rcases selectBootstrapUniverse_eq_ok selected with
      ⟨rows, inactive, shown, pooled, left, rfl⟩
    have distinct := (marketRows_shown shown).distinct
    exact ⟨bootstrapResult_roles distinct pooled left, rfl,
      bootstrap_validates shown pooled left⟩
  · intro core boundary probe accepted _ accepts
    have opened := accepts
    rw [validateBootstrapUniverse, bind_eq_ok_iff] at opened
    rcases opened with ⟨⟨rows, inactive⟩, shown, _⟩
    have validates :=
      ((validateBootstrapUniverse_eq_ok_iff shown).mp accepts).1
    exact ⟨rows, inactive, shown, validates.probeEnough,
      validates.stableEnough⟩

end Agreement

/-- The bootstrap of the sample market, whose youngest symbol is a probe. -/
def sampleBootstrap : SelectionResult where
  core := sampleSymbols 14 50
  boundary := sampleSymbols 64 5
  probe := sampleSymbols 10 4 ++ ["S70"]
  inactive := []
  sourceHashes := sampleSnapshot.sourceHashes
  stablePoolCount := 56
  probePoolCount := 61

theorem sampleBootstrap_eq :
    (selectBootstrapUniverse sampleSnapshot defaultPolicy).toOption =
      some sampleBootstrap := by
  decide +kernel

theorem bootstrap_agrees_sample :
    BootstrapRoles sampleBootstrap.core sampleBootstrap.boundary
        sampleBootstrap.probe ∧
      sampleBootstrap.inactive = [] ∧
      validateBootstrapUniverse sampleSnapshot sampleBootstrap.core
        sampleBootstrap.boundary sampleBootstrap.probe defaultPolicy =
          .ok sampleBootstrap :=
  (bootstrap_agrees sampleSnapshot defaultPolicy).1 sampleBootstrap
    (eq_ok_of_toOption sampleBootstrap_eq)

end ShadowDataPlane.Central
