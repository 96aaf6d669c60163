import ShadowDataPlane.Central.CandidateTurnover

/-!
# Selections with too few candidates

A role with too few candidates is to be kept as it is.  Three of the selection's
early exits do so, and the candidate roles are only reconciled when enough
symbols are left for them.  The replacement of inactive core members has no
such exit: with fewer stable symbols outside the core than inactive members
the selection raises.  It also raises at a retain rank which admits members
without a rank.
-/

namespace ShadowDataPlane.Central

open ShadowDataPlane.Contracts
open ShadowDataPlane.Foundation

section Definitions

variable {δ : Type} [DecimalArithmetic δ]
variable (active : UniverseDecision) (snapshot : DiscoverySnapshot)
variable (effectiveAt : Int) (memberSince coreSince : Dict String Int)
variable (policy : RollingPolicy δ) (rows : List (MarketRow δ))
variable (inactive : List String)

/-- Too few qualified symbols for one of the roles. -/
inductive RoleShort : Prop
  | probe (few : (symbolsOf (probePool rows policy)).length < 5)
  | core (few : (replacementPool active
        (symbolsOf (stablePool rows policy))).length <
      (inactiveCore active inactive).length)
  | probeLeft (core : List String)
      (selectsCore : selectCore active policy
        (symbolsOf (stablePool rows policy)) inactive coreSince effectiveAt =
          .ok core)
      (few : (probePreferred (symbolsOf (probePool rows policy))
        core).length < 5)
  | boundary (core probe : List String)
      (selectsCore : selectCore active policy
        (symbolsOf (stablePool rows policy)) inactive coreSince effectiveAt =
          .ok core)
      (reconciles : reconcileBucket active.probe
        (probePreferred (symbolsOf (probePool rows policy)) core) core
        inactive memberSince effectiveAt policy.candidateDwell 1 = .ok probe)
      (few : ((symbolsOf (stablePool rows policy)).countP
        fun symbol => symbol ∉ probe) < 55)

/-- The selection does not raise, and a shortage keeps the active roles. -/
def FailsClosed : Prop :=
  ∃ result, selectRollingUniverse active snapshot effectiveAt memberSince
      coreSince policy = .ok result ∧
    (RoleShort active effectiveAt memberSince coreSince policy rows inactive →
      KeepsRoles active result)

/-- The pools cover the inactive core members, or end the selection before. -/
def CoreCovered : Prop :=
  (symbolsOf (probePool rows policy)).length < 5 ∨
    (inactiveCore active inactive).length ≤
      (replacementPool active (symbolsOf (stablePool rows policy))).length

/--
A boundary is wanted, with a retain rank beyond the rank which stands for
none, and an active boundary member is left without a rank.
-/
def UnrankedProtected : Prop :=
  1000000000 ≤ policy.boundaryRetainRank ∧
    ∃ core probe, WantsBoundary active policy rows inactive memberSince
        coreSince effectiveAt core probe ∧
      ∃ symbol ∈ active.boundary, symbol ∉ inactive ∧ symbol ∉ probe ∧
        symbol ∉ symbolsOf (stablePool rows policy)

end Definitions

section Shortage

variable {δ : Type} [DecimalArithmetic δ]
variable {active : UniverseDecision} {snapshot : DiscoverySnapshot}
variable {effectiveAt : Int} {memberSince coreSince : Dict String Int}
variable {policy : RollingPolicy δ} {rows : List (MarketRow δ)}
variable {inactive core probe : List String}

/-! ## The boundary -/

/-- Distinct preferences which are all allowed stay as they are. -/
theorem length_allowedPreferences_ge
    {wanted sure forbidden : List String} (distinct : sure.Nodup)
    (allowed : ∀ symbol ∈ sure, symbol ∈ wanted ∧ symbol ∉ forbidden) :
    sure.length ≤ (allowedPreferences wanted forbidden).length := by
  apply (distinct.subperm _).length_le
  intro symbol member
  exact mem_allowedPreferences_iff.mpr (allowed symbol member)

/-- A core leaves five of fifty-five stable symbols to the boundary. -/
theorem length_stableOutside_ge
    {stable : List String} (distinct : stable.Nodup)
    (fifty : core.length = 50)
    (enough : 55 ≤ stable.countP fun symbol => symbol ∉ probe) :
    5 ≤ (stableOutside stable core probe).length := by
  have left : ((stable.filter fun symbol => symbol ∉ probe).filter
      fun symbol => symbol ∉ core) = stableOutside stable core probe := by
    rw [stableOutside, List.filter_filter]
    apply List.filter_congr
    intro symbol _
    simp
  have taken := countP_mem_le
    (distinct.filter fun symbol => symbol ∉ probe) core
  have split := List.length_eq_countP_add_countP
    (l := stable.filter fun symbol => symbol ∉ probe)
    fun symbol => decide (symbol ∈ core)
  rw [List.countP_eq_length_filter] at enough
  rw [← left, ← List.countP_eq_length_filter]
  simp only [decide_not, decide_eq_true_eq] at *
  omega

theorem WantsBoundary.length_core
    (wants : WantsBoundary active policy rows inactive memberSince coreSince
      effectiveAt core probe)
    (distinct : (symbolsOf (stablePool rows policy)).Nodup) :
    core.length = 50 :=
  (selectCore_spec distinct wants.selectsCore).length.trans
    active.valid.core.length

/-- The boundary fails only at a protected member without a rank. -/
theorem selectBoundary_completes_iff
    (wants : WantsBoundary active policy rows inactive memberSince coreSince
      effectiveAt core probe)
    (distinct : (symbolsOf (stablePool rows policy)).Nodup) :
    (∃ boundary, selectBoundary active policy
        (symbolsOf (stablePool rows policy)) inactive core probe memberSince
        effectiveAt = .ok boundary) ↔
      ¬ (1000000000 ≤ policy.boundaryRetainRank ∧
        ∃ symbol ∈ active.boundary, symbol ∉ inactive ∧ symbol ∉ probe ∧
          symbol ∉ symbolsOf (stablePool rows policy)) := by
  have apart := active.roles_distinct
  rw [List.nodup_append, List.nodup_append] at apart
  have coreRebuilt := selectCore_spec distinct wants.selectsCore
  have unranked : (∃ symbol ∈ protectedBoundary active policy
        (stableOutside (symbolsOf (stablePool rows policy)) core probe)
        inactive core probe,
      symbol ∉ stableOutside (symbolsOf (stablePool rows policy)) core
        probe) ↔
      1000000000 ≤ policy.boundaryRetainRank ∧
        ∃ symbol ∈ active.boundary, symbol ∉ inactive ∧ symbol ∉ probe ∧
          symbol ∉ symbolsOf (stablePool rows policy) := by
    constructor
    · rintro ⟨symbol, isProtected, outside⟩
      rcases mem_protectedBoundary_iff.mp isProtected with
        ⟨member, isActive, notCore, notProbe, retained⟩
      rw [rankIn, if_neg outside] at retained
      refine ⟨retained, symbol, member, isActive, notProbe, fun inPool => ?_⟩
      exact outside (List.mem_filter.mpr ⟨inPool, by simp [notCore, notProbe]⟩)
    · rintro ⟨wide, symbol, member, isActive, notProbe, unpooled⟩
      have outside : symbol ∉ stableOutside
          (symbolsOf (stablePool rows policy)) core probe := fun ranked =>
        unpooled (List.mem_of_mem_filter ranked)
      have notCore : symbol ∉ core := by
        intro inCore
        rcases coreRebuilt.origin symbol inCore with ⟨old, _⟩ | pooled
        · exact apart.1.2.2 symbol old symbol member rfl
        · exact unpooled pooled
      refine ⟨symbol, mem_protectedBoundary_iff.mpr
        ⟨member, isActive, notCore, notProbe, ?_⟩, outside⟩
      rw [rankIn, if_neg outside]
      exact wide
  rw [← unranked]
  constructor
  · rintro ⟨boundary, selected⟩ fails
    rw [selectBoundary_eq, if_pos fails] at selected
    cases selected
  · intro ranked
    rw [selectBoundary_eq, if_neg ranked]
    apply reconcileBucket_completes active.valid.boundary.length
    apply (length_stableOutside_ge distinct (wants.length_core distinct)
      wants.stablePooled).trans
    apply length_allowedPreferences_ge (distinct.filter _)
    intro symbol member
    rw [List.mem_append, List.mem_append]
    refine ⟨Or.inr member, ?_⟩
    simpa using (List.mem_filter.mp member).2

/-! ## The selection -/

/-- From a core and a probe role on, the selection depends on the boundary. -/
theorem selectRollingUniverse_completes_iff
    (shown : marketRows snapshot active.members policy.liquidityWindowDays =
      .ok (rows, inactive))
    (wants : WantsBoundary active policy rows inactive memberSince coreSince
      effectiveAt core probe) :
    (∃ result, selectRollingUniverse active snapshot effectiveAt memberSince
        coreSince policy = .ok result) ↔
      ∃ boundary, selectBoundary active policy
        (symbolsOf (stablePool rows policy)) inactive core probe memberSince
        effectiveAt = .ok boundary := by
  have probeLeft := wants.probeLeft
  have reconciles := wants.reconciles
  rw [probePreferred] at probeLeft reconciles
  simp only [selectRollingUniverse, shown, ok_bind]
  rw [if_neg (Nat.not_lt_of_le wants.probePooled), wants.selectsCore, ok_bind,
    if_neg (Nat.not_lt_of_le probeLeft), reconciles, ok_bind,
    if_neg (Nat.not_lt_of_le wants.stablePooled)]
  constructor
  · rintro ⟨result, selected⟩
    rcases bind_eq_ok_iff.mp selected with ⟨boundary, completed, _⟩
    exact ⟨boundary, completed⟩
  · rintro ⟨boundary, completed⟩
    exact ⟨_, bind_eq_ok_iff.mpr ⟨boundary, completed, rfl⟩⟩

/-- With fifty-five stable symbols nothing is short. -/
theorem WantsBoundary.not_roleShort
    (wants : WantsBoundary active policy rows inactive memberSince coreSince
      effectiveAt core probe)
    (covered : (inactiveCore active inactive).length ≤
      (replacementPool active (symbolsOf (stablePool rows policy))).length) :
    ¬ RoleShort active effectiveAt memberSince coreSince policy rows
      inactive := by
  intro short
  cases short with
  | probe few => exact Nat.not_lt_of_le wants.probePooled few
  | core few => exact Nat.not_lt_of_le covered few
  | probeLeft other selectsOther few =>
      cases wants.selectsCore.symm.trans selectsOther
      exact Nat.not_lt_of_le wants.probeLeft few
  | boundary other otherProbe selectsOther reconcilesOther few =>
      cases wants.selectsCore.symm.trans selectsOther
      cases wants.reconciles.symm.trans reconcilesOther
      exact Nat.not_lt_of_le wants.stablePooled few

/-- Five preferred symbols fill the probe role. -/
theorem probe_completes
    {pool : List String} {minimumDwell : Int} (distinct : pool.Nodup)
    (enough : 5 ≤ (probePreferred pool core).length) :
    ∃ probe, reconcileBucket active.probe (probePreferred pool core) core
      inactive memberSince effectiveAt minimumDwell 1 = .ok probe := by
  apply reconcileBucket_completes active.valid.probe.length
  apply enough.trans
  apply length_allowedPreferences_ge (distinct.filter _)
  intro symbol member
  exact ⟨member, by simpa using (List.mem_filter.mp member).2⟩

/-- Unless a boundary is wanted, a covered core keeps the active roles. -/
theorem keeps_or_wantsBoundary
    (shown : marketRows snapshot active.members policy.liquidityWindowDays =
      .ok (rows, inactive))
    (covered : CoreCovered active policy rows inactive) :
    (∃ result, selectRollingUniverse active snapshot effectiveAt memberSince
        coreSince policy = .ok result ∧ KeepsRoles active result) ∨
      ((inactiveCore active inactive).length ≤
          (replacementPool active
            (symbolsOf (stablePool rows policy))).length ∧
        ∃ core probe, WantsBoundary active policy rows inactive memberSince
          coreSince effectiveAt core probe) := by
  have distinct := (marketRows_shown shown).distinct
  have stableDistinct : (symbolsOf (stablePool rows policy)).Nodup :=
    symbolsOf_pool_distinct distinct
  have poolDistinct : (symbolsOf (probePool rows policy)).Nodup :=
    symbolsOf_pool_distinct distinct
  simp only [selectRollingUniverse, shown, ok_bind]
  by_cases few : (symbolsOf (probePool rows policy)).length < 5
  · rw [if_pos few]
    exact Or.inl ⟨_, rfl, rfl, rfl, rfl⟩
  · have enough := covered.resolve_left few
    rcases (selectCore_completes_iff stableDistinct).mpr enough with
      ⟨core, selectsCore⟩
    rw [if_neg few, selectsCore, ok_bind]
    by_cases fewLeft : (probePreferred (symbolsOf (probePool rows policy))
        core).length < 5
    · rw [probePreferred] at fewLeft
      rw [if_pos fewLeft]
      exact Or.inl ⟨_, rfl, rfl, rfl, rfl⟩
    · rcases probe_completes poolDistinct (Nat.le_of_not_lt fewLeft) with
        ⟨probe, reconciles⟩
      by_cases short : ((symbolsOf (stablePool rows policy)).countP
          fun symbol => symbol ∉ probe) < 55
      · apply Or.inl
        rw [probePreferred] at fewLeft reconciles
        rw [if_neg fewLeft, reconciles, ok_bind, if_pos short]
        exact ⟨_, rfl, rfl, rfl, rfl⟩
      · exact Or.inr ⟨enough, core, probe, Nat.le_of_not_lt few, selectsCore,
          Nat.le_of_not_lt fewLeft, reconciles, Nat.le_of_not_lt short⟩

/--
A selection fails closed exactly if the stable symbols outside the core cover
its inactive members, or the probe pool has ended it before, and no protected
boundary member is without a rank.
-/
theorem failsClosed_iff
    (shown : marketRows snapshot active.members policy.liquidityWindowDays =
      .ok (rows, inactive)) :
    FailsClosed active snapshot effectiveAt memberSince coreSince policy rows
        inactive ↔
      CoreCovered active policy rows inactive ∧
        ¬ UnrankedProtected active effectiveAt memberSince coreSince policy
          rows inactive := by
  have stableDistinct : (symbolsOf (stablePool rows policy)).Nodup :=
    symbolsOf_pool_distinct (marketRows_shown shown).distinct
  constructor
  · rintro ⟨result, selected, closed⟩
    constructor
    · by_contra uncovered
      rw [CoreCovered, not_or] at uncovered
      simp only [selectRollingUniverse, shown, ok_bind] at selected
      rw [if_neg uncovered.1, bind_eq_ok_iff] at selected
      rcases selected with ⟨core, selectsCore, _⟩
      exact uncovered.2
        ((selectCore_completes_iff stableDistinct).mp ⟨core, selectsCore⟩)
    · rintro ⟨wide, core, probe, wants, member⟩
      apply (selectBoundary_completes_iff wants stableDistinct).mp
      · exact (selectRollingUniverse_completes_iff shown wants).mp
          ⟨result, selected⟩
      · exact ⟨wide, member⟩
  · rintro ⟨covered, ranked⟩
    rcases keeps_or_wantsBoundary shown covered with
      ⟨result, selected, keeps⟩ | ⟨enough, core, probe, wants⟩
    · exact ⟨result, selected, fun _ => keeps⟩
    · have completes : ∃ boundary, selectBoundary active policy
          (symbolsOf (stablePool rows policy)) inactive core probe memberSince
          effectiveAt = .ok boundary := by
        rw [selectBoundary_completes_iff wants stableDistinct]
        rintro ⟨wide, member⟩
        exact ranked ⟨wide, core, probe, wants, member⟩
      rcases (selectRollingUniverse_completes_iff shown wants).mpr completes
        with ⟨result, selected⟩
      exact ⟨result, selected,
        fun short => absurd short (wants.not_roleShort enough)⟩

end Shortage

theorem failsClosed_iff_sample :
    ∃ (rows : List (MarketRow ℚ)) (inactive : List String),
      marketRows sampleSnapshot sampleActive.members
          defaultPolicy.liquidityWindowDays = .ok (rows, inactive) ∧
        (FailsClosed sampleActive sampleSnapshot (20000 * usPerDay)
            (sampleSince sampleActive.members)
            (sampleSince sampleActive.core) defaultPolicy rows inactive ↔
          CoreCovered sampleActive defaultPolicy rows inactive ∧
            ¬ UnrankedProtected sampleActive (20000 * usPerDay)
              (sampleSince sampleActive.members)
              (sampleSince sampleActive.core) defaultPolicy rows
              inactive) := by
  rcases selectRollingUniverse_stages (eq_ok_of_toOption sampleSelection_eq)
    with ⟨rows, inactive, shown, _⟩
  exact ⟨rows, inactive, shown, failsClosed_iff shown⟩

/-! ## An inactive core member without a replacement

The first core member is gone from the exchange, five young symbols qualify
for the probe, and no symbol has the days of a stable one.
-/

def youngSymbols : List String := sampleSymbols 65 5

def shortInfo : Evidence where
  payload := .object [("symbols", .array
    ((sampleSymbols 11 54).map (sampleInfo 19000) ++
      youngSymbols.map (sampleInfo 19993)))]
  sha256 := "exchange-info"

def shortKlines : Evidence where
  payload := .object [("window_end_exclusive_ms", .integer (20000 * dayMs)),
    ("symbols", .object (youngSymbols.map fun symbol =>
      (symbol, .object [("payload", .array
        ((List.range 7).map fun index => sampleBar (19993 + index)))])))]
  sha256 := "daily-klines"

def shortTickers : Json :=
  .object [("payload", .array (youngSymbols.map fun symbol =>
    .object [("symbol", .text symbol), ("bidPrice", .integer 100),
      ("askPrice", .integer 100)]))]

def shortDepth : Evidence where
  payload := .object [
    ("symbols", .object (youngSymbols.map fun symbol =>
      (symbol, .array (List.replicate 3 sampleBook)))),
    ("book_tickers", .array (List.replicate 5 shortTickers))]
  sha256 := "liquidity-depth"

def shortSnapshot : DiscoverySnapshot where
  observedAt := 19999 * usPerDay
  exchangeInfo := shortInfo
  exchangeInfoConfirmation := shortInfo
  marketTickers := ⟨.null, "market-tickers"⟩
  dailyKlines := shortKlines
  liquidityDepth := shortDepth

theorem shortage_raises :
    (marketRows (δ := ℚ) shortSnapshot sampleActive.members
        defaultPolicy.liquidityWindowDays).toOption.map
          (fun shown => shown.2) = some ["S10"] ∧
      (selectRollingUniverse sampleActive shortSnapshot (20000 * usPerDay)
        (sampleSince sampleActive.members) (sampleSince sampleActive.core)
        defaultPolicy).toOption = none ∧
      ∀ (rows : List (MarketRow ℚ)) (inactive : List String),
        ¬ FailsClosed sampleActive shortSnapshot (20000 * usPerDay)
          (sampleSince sampleActive.members) (sampleSince sampleActive.core)
          defaultPolicy rows inactive := by
  have raises : (selectRollingUniverse sampleActive shortSnapshot
      (20000 * usPerDay) (sampleSince sampleActive.members)
      (sampleSince sampleActive.core) defaultPolicy).toOption = none := by
    decide +kernel
  refine ⟨by decide +kernel, raises, ?_⟩
  rintro rows inactive ⟨result, selected, _⟩
  rw [selected] at raises
  cases raises

end ShadowDataPlane.Central
