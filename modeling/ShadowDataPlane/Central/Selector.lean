import Mathlib.Data.Finset.SDiff
import ShadowDataPlane.Central.Discovery
import ShadowDataPlane.Foundation.Roster

/-!
# Rolling selection

`selectRollingUniverse` proposes the next sixty symbols.  It replaces inactive
core members in place, promotes challengers into the core on Mondays, rebuilds
the probe and the boundary role with `reconcileBucket`, and keeps the active
roles at three early exits.  Every set of the source is a list here, of which
only membership is used.

The policy fields which the source reads only for logging and for choosing
which symbols to sample are left out.
-/

namespace ShadowDataPlane.Central

open ShadowDataPlane.Contracts
open ShadowDataPlane.Foundation

/-- `RollingPolicy`. -/
structure RollingPolicy (δ : Type) where
  liquidityWindowDays : Nat
  probeMinimumCompleteDays : Nat
  minimumMedianDailyQuoteVolume : δ
  minimumQ25DailyQuoteVolume : δ
  minimumDailyQuoteVolume : δ
  maximumQuoteVolumeCv : δ
  minimumMedianDailyTrades : Int
  minimumQ25DailyTrades : Int
  minimumDailyTrades : Int
  liquidityDepthSamples : Nat
  liquidityBookTickerSamples : Nat
  maximumSpreadBps : δ
  minimumThinDepth10bps : δ
  minimumThinDepth50bps : δ
  candidateMinimumDwellHours : Nat
  coreMinimumDwellDays : Nat
  candidateDailyReplacements : Nat
  coreWeeklyReplacements : Nat
  coreMinimumAgeDays : Int
  coreEntryRank : Nat
  coreRetainRank : Nat
  boundaryRetainRank : Nat

namespace RollingPolicy

variable {δ : Type} (policy : RollingPolicy δ)

/-- `timedelta(hours=policy.candidate_minimum_dwell_hours)`. -/
def candidateDwell : Int := policy.candidateMinimumDwellHours * usPerHour

/-- `timedelta(days=policy.core_minimum_dwell_days)`. -/
def coreDwell : Int := policy.coreMinimumDwellDays * usPerDay

end RollingPolicy

/-- What a selection proposes, and what it was based on. -/
structure SelectionResult where
  core : List String
  boundary : List String
  probe : List String
  inactive : List String
  sourceHashes : List String
  stablePoolCount : Nat
  probePoolCount : Nat
deriving DecidableEq

/-! ## Pools -/

section Pools

variable {δ : Type} [DecimalArithmetic δ]

open DecimalArithmetic

/-- `_volume_gate`. -/
def volumeGate (row : HistoricalRow δ) (policy : RollingPolicy δ) : Prop :=
  policy.minimumMedianDailyQuoteVolume ≤ row.medianQuoteVolume ∧
    policy.minimumQ25DailyQuoteVolume ≤ row.q25QuoteVolume ∧
    policy.minimumDailyQuoteVolume ≤ row.minimumQuoteVolume ∧
    row.quoteVolumeCv ≤ policy.maximumQuoteVolumeCv ∧
    ofInteger policy.minimumMedianDailyTrades ≤ row.medianTrades ∧
    ofInteger policy.minimumQ25DailyTrades ≤ row.q25Trades ∧
    policy.minimumDailyTrades ≤ row.minimumTrades

instance (row : HistoricalRow δ) (policy : RollingPolicy δ) :
    Decidable (volumeGate row policy) :=
  inferInstanceAs (Decidable (_ ∧ _ ∧ _ ∧ _ ∧ _ ∧ _ ∧ _))

/-- `_quality_gate`. -/
def qualityGate (row : MarketRow δ) (policy : RollingPolicy δ) : Prop :=
  volumeGate row.history policy ∧
    row.depthSampleCount = policy.liquidityDepthSamples ∧
    row.maximumSpreadBps ≤ policy.maximumSpreadBps ∧
    policy.minimumThinDepth10bps ≤ row.minimumThinDepth10bps ∧
    policy.minimumThinDepth50bps ≤ row.minimumThinDepth50bps ∧
    row.bookTickerSampleCount = policy.liquidityBookTickerSamples ∧
    row.bookTickerMaximumSpreadBps ≤ policy.maximumSpreadBps

instance (row : MarketRow δ) (policy : RollingPolicy δ) :
    Decidable (qualityGate row policy) :=
  inferInstanceAs (Decidable (_ ∧ _ ∧ _ ∧ _ ∧ _ ∧ _ ∧ _))

/-- The sort key of the stable pool. -/
def stableKey (row : MarketRow δ) : δ ×ₗ δ ×ₗ δ ×ₗ δ ×ₗ String :=
  toLex (neg row.history.q25QuoteVolume,
    toLex (neg row.history.medianQuoteVolume,
      toLex (neg row.history.q25Trades,
        toLex (row.history.quoteVolumeCv, row.symbol))))

/-- `_stable_pool`. -/
def stablePool (rows : List (MarketRow δ)) (policy : RollingPolicy δ) :
    List (MarketRow δ) :=
  (rows.filter fun row =>
      policy.coreMinimumAgeDays ≤ row.ageDays ∧
        row.history.volumes.length = policy.liquidityWindowDays ∧
        qualityGate row policy).insertionSort
    fun left right => stableKey left ≤ stableKey right

/-- The sort key of the probe pool. -/
def probeKey (row : MarketRow δ) : Int ×ₗ δ ×ₗ String :=
  toLex (-row.onboardTimeMs,
    toLex (neg row.history.q25QuoteVolume, row.symbol))

/-- `_probe_pool`. -/
def probePool (rows : List (MarketRow δ)) (policy : RollingPolicy δ) :
    List (MarketRow δ) :=
  (rows.filter fun row =>
      policy.probeMinimumCompleteDays ≤ row.history.expectedProbeDays ∧
        row.history.observedProbeDays = row.history.expectedProbeDays ∧
        qualityGate row policy).insertionSort
    fun left right => probeKey left ≤ probeKey right

/-- The symbols of a pool, in its order. -/
def symbolsOf (pool : List (MarketRow δ)) : List String :=
  pool.map MarketRow.symbol

end Pools

/-! ## Replacement -/

/-- `_dwell_complete`. -/
def DwellComplete (joined effective required : Int) : Prop :=
  joined ≤ effective - required

instance (joined effective required : Int) :
    Decidable (DwellComplete joined effective required) :=
  inferInstanceAs (Decidable (_ ≤ _))

/-- `_take_first`. -/
def takeFirst (values forbidden : List String) : Option String :=
  values.find? fun value => value ∉ forbidden

/--
`{symbol: index}` of an enumeration from one, read with the default `10**9`.
-/
def rankIn (ranked : List String) (symbol : String) : Nat :=
  if symbol ∈ ranked then ranked.idxOf symbol + 1 else 1000000000

/-- Replace one core member in place, if it is inactive. -/
def replaceIfInactive (inactive replacementPool : List String)
    (core : List String) (symbol : String) : Except String (List String) :=
  if symbol ∈ inactive then
    match takeFirst replacementPool core with
    | none => .error
        "not enough qualified stable instruments to replace inactive core"
    | some replacement => .ok (replaceMember core symbol replacement)
  else .ok core

/--
Replace the inactive core members, in the order of the core.  The source
iterates over the list it changes, but only at places it has passed.
-/
def replaceInactive (inactive replacementPool core : List String) :
    Except String (List String) :=
  core.foldlM (replaceIfInactive inactive replacementPool) core

/-- The core members which a challenger may replace. -/
def removableCore {δ : Type} (policy : RollingPolicy δ)
    (stableRank : String → Nat) (coreSince : Dict String Int)
    (activeEffectiveAt effectiveAt : Int) (core : List String) :
    List String :=
  core.filter fun symbol =>
    policy.coreRetainRank < stableRank symbol ∧
      DwellComplete ((coreSince.get? symbol).getD activeEffectiveAt)
        effectiveAt policy.coreDwell

/-- The weekly loop: the best challengers replace the weakest incumbents. -/
def promoteWeekly {δ : Type} (policy : RollingPolicy δ)
    (stableRank : String → Nat) (coreSince : Dict String Int)
    (activeEffectiveAt effectiveAt : Int) :
    List String → Nat → List String → List String
  | [], _, core => core
  | challenger :: promotable, changes, core =>
      if changes < policy.coreWeeklyReplacements then
        match (removableCore policy stableRank coreSince activeEffectiveAt
          effectiveAt core).argmax stableRank with
        | none => core
        | some incumbent =>
            if stableRank incumbent ≤ stableRank challenger then core
            else
              promoteWeekly policy stableRank coreSince activeEffectiveAt
                effectiveAt promotable (changes + 1)
                (replaceMember core incumbent challenger)
      else core

/-- Add a symbol to a role which is not full. -/
def fillStep (result : List String) (symbol : String) : List String :=
  if 5 ≤ result.length then result
  else if symbol ∉ result then result ++ [symbol]
  else result

/-- Fill a role up to five members. -/
def fillRole (preferred result : List String) : List String :=
  preferred.foldl fillStep result

/--
Let one preferred symbol replace a member of the role: the last one which is
not preferred itself and whose dwell is complete.
-/
def replacementStep (memberSince : Dict String Int)
    (effectiveAt minimumDwell : Int) (limit : Nat) (preferred : List String)
    (state : List String × Nat) (symbol : String) : List String × Nat :=
  if symbol ∈ state.1 ∨ limit ≤ state.2 then state
  else
    match (state.1.filter fun incumbent =>
        incumbent ∉ preferred.take 5 ∧
          DwellComplete ((memberSince.get? incumbent).getD effectiveAt)
            effectiveAt minimumDwell).getLast? with
    | none => state
    | some incumbent => (state.1.erase incumbent ++ [symbol], state.2 + 1)

/-- Replace members of a role by preferred ones, at most `limit`. -/
def replaceMembers (memberSince : Dict String Int)
    (effectiveAt minimumDwell : Int) (limit : Nat)
    (preferred result : List String) : List String :=
  (preferred.foldl
    (replacementStep memberSince effectiveAt minimumDwell limit preferred)
    (result, 0)).1

/-- `_reconcile_bucket`. -/
def reconcileBucket (current preferred forbidden inactive : List String)
    (memberSince : Dict String Int) (effectiveAt minimumDwell : Int)
    (normalReplacementLimit : Nat) : Except String (List String) :=
  let preferred :=
    (preferred.filter fun symbol => symbol ∉ forbidden).eraseDups
  let kept := current.filter fun symbol =>
    symbol ∉ forbidden ∧ symbol ∉ inactive
  let forcedVacancies : Int := 5 - kept.length
  let result := replaceMembers memberSince effectiveAt minimumDwell
    normalReplacementLimit preferred (fillRole preferred kept)
  if result.length ≠ 5 then
    .error "not enough qualified instruments to fill candidate role"
  else if forcedVacancies = 0 ∧
      normalReplacementLimit < (current.toFinset \ result.toFinset).card then
    .error "candidate replacement limit exceeded"
  else .ok (sortSymbols result)

/-! ## Selection -/

section Selection

variable {δ : Type} [DecimalArithmetic δ]

/-- The active roles, where too few candidates qualify to change them. -/
def keepActive (active : UniverseDecision) (snapshot : DiscoverySnapshot)
    (inactive : List String) (stablePoolCount probePoolCount : Nat) :
    SelectionResult where
  core := active.core
  boundary := active.boundary
  probe := active.probe
  inactive := sortSymbols inactive
  sourceHashes := snapshot.sourceHashes
  stablePoolCount
  probePoolCount

/-- The core after the inactive members and, on Mondays, the promotions. -/
def selectCore (active : UniverseDecision) (policy : RollingPolicy δ)
    (stable inactive : List String) (coreSince : Dict String Int)
    (effectiveAt : Int) : Except String (List String) := do
  let replacementPool := stable.filter fun symbol => symbol ∉ active.core
  let core ← replaceInactive inactive replacementPool active.core
  if IsMonday effectiveAt then
    let changes := (active.core.toFinset \ core.toFinset).card
    let promotable := replacementPool.filter fun symbol =>
      symbol ∉ core ∧ rankIn stable symbol ≤ policy.coreEntryRank
    .ok (promoteWeekly policy (rankIn stable) coreSince active.effectiveAt
      effectiveAt promotable changes core)
  else .ok core

/-- The boundary members which keep their place by rank, best first. -/
def protectedBoundary (active : UniverseDecision) (policy : RollingPolicy δ)
    (boundaryRanked inactive core probe : List String) : List String :=
  (active.boundary.filter fun symbol =>
      symbol ∉ inactive ∧ symbol ∉ core ∧ symbol ∉ probe ∧
        rankIn boundaryRanked symbol ≤ policy.boundaryRetainRank).insertionSort
    fun left right =>
      rankIn boundaryRanked left ≤ rankIn boundaryRanked right

/-- The boundary role next to a selected core and probe role. -/
def selectBoundary (active : UniverseDecision) (policy : RollingPolicy δ)
    (stable inactive core probe : List String)
    (memberSince : Dict String Int) (effectiveAt : Int) :
    Except String (List String) :=
  let boundaryRanked := stable.filter fun symbol =>
    symbol ∉ core ∧ symbol ∉ probe
  let kept :=
    protectedBoundary active policy boundaryRanked inactive core probe
  -- The sort looks the rank of every kept symbol up without a default.
  if ∃ symbol ∈ kept, symbol ∉ boundaryRanked then .error "KeyError"
  else
    reconcileBucket active.boundary (kept ++ boundaryRanked) (core ++ probe)
      inactive memberSince effectiveAt policy.candidateDwell
      (max 1 (policy.candidateDailyReplacements - 1))

/-- `select_rolling_universe`. -/
def selectRollingUniverse (active : UniverseDecision)
    (snapshot : DiscoverySnapshot) (effectiveAt : Int)
    (memberSince coreSince : Dict String Int) (policy : RollingPolicy δ) :
    Except String SelectionResult := do
  let (rows, inactive) ←
    marketRows (δ := δ) snapshot active.members policy.liquidityWindowDays
  let stable := symbolsOf (stablePool rows policy)
  let pool := symbolsOf (probePool rows policy)
  if pool.length < 5 then
    .ok (keepActive active snapshot inactive
      (stable.countP fun symbol => symbol ∉ active.probe) pool.length)
  else
    let core ← selectCore active policy stable inactive coreSince effectiveAt
    let probePreferred := pool.filter fun symbol => symbol ∉ core
    if probePreferred.length < 5 then
      .ok (keepActive active snapshot inactive
        (stable.countP fun symbol => symbol ∉ active.probe)
        probePreferred.length)
    else
      let probe ← reconcileBucket active.probe probePreferred core inactive
        memberSince effectiveAt policy.candidateDwell 1
      let stablePoolCount := stable.countP fun symbol => symbol ∉ probe
      if stablePoolCount < 55 then
        .ok (keepActive active snapshot inactive stablePoolCount
          probePreferred.length)
      else
        let boundary ← selectBoundary active policy stable inactive core probe
          memberSince effectiveAt
        .ok {
          core := sortSymbols core
          boundary := sortSymbols boundary
          probe := sortSymbols probe
          inactive := sortSymbols inactive
          sourceHashes := snapshot.sourceHashes
          stablePoolCount
          probePoolCount := probePreferred.length }

/-- A list of symbols as an f-string shows it. -/
def showSymbols (symbols : List String) : String :=
  "[" ++ String.intercalate ", "
    (symbols.map fun symbol => "'" ++ symbol ++ "'") ++ "]"

/-- `validate_bootstrap_universe`. -/
def validateBootstrapUniverse (snapshot : DiscoverySnapshot)
    (core boundary probe : List String) (policy : RollingPolicy δ) :
    Except String SelectionResult := do
  let (rows, inactive) ←
    marketRows (δ := δ) snapshot (sortSymbols (core ++ boundary ++ probe))
      policy.liquidityWindowDays
  let formalProbePool := symbolsOf ((probePool rows policy).filter fun row =>
    row.history.volumes.length = policy.liquidityWindowDays)
  let stable := (symbolsOf (stablePool rows policy)).filter fun symbol =>
    symbol ∉ probe
  let missingStable := sortSymbols
    ((core ++ boundary).eraseDups.filter fun symbol => symbol ∉ stable)
  let missingProbe := sortSymbols
    (probe.eraseDups.filter fun symbol => symbol ∉ formalProbePool)
  if missingStable ≠ [] ∨ missingProbe ≠ [] then
    .error ("configured bootstrap members fail current formal liquidity " ++
      "gates: stable=" ++ showSymbols missingStable ++ " probe=" ++
      showSymbols missingProbe)
  else if stable.length < 55 then
    .error ("only " ++ toString stable.length ++
      " stable candidates pass the formal gates")
  else if formalProbePool.length < 5 then
    .error ("only " ++ toString formalProbePool.length ++
      " probe candidates pass the formal gates")
  else
    .ok {
      core
      boundary
      probe
      inactive
      sourceHashes := snapshot.sourceHashes
      stablePoolCount := stable.length
      probePoolCount := formalProbePool.length }

end Selection

end ShadowDataPlane.Central
