import ShadowDataPlane.Central.CoreRotation
import ShadowDataPlane.Central.RoleReconciliation

/-!
# Turnover of the candidate roles

Two bounds on what a selection changes.  A boundary member which ranks well
among the symbols outside the new core and probe keeps its place, because it is
among the first five preferences.  And on a day on which nothing is inactive
and the core is not rotated, the universe loses at most one member of the probe
and as many members of the boundary as its limit says, which is one at least.
-/

namespace ShadowDataPlane.Central

open ShadowDataPlane.Contracts
open ShadowDataPlane.Foundation

/-! ## Members which a role keeps -/

section Kept

variable {memberSince : Dict String Int} {effectiveAt minimumDwell : Int}
variable {limit : Nat} {current preferred forbidden inactive new : List String}

/-- Whatever is kept is in the bucket which the loop starts with. -/
theorem keptMembers_subset_filledBucket
    {symbol : String} (kept : symbol ∈ keptMembers current forbidden inactive) :
    symbol ∈ filledBucket current preferred forbidden inactive := by
  rw [filledBucket, fillRole_eq (allowedPreferences_distinct _ _)]
  exact List.mem_append_left _ kept

/-- A kept member among the first five preferences is never replaced. -/
theorem leading_stays
    (reconciled : reconcileBucket current preferred forbidden inactive
      memberSince effectiveAt minimumDwell limit = .ok new)
    {symbol : String} (kept : symbol ∈ keptMembers current forbidden inactive)
    (leading : symbol ∈ (allowedPreferences preferred forbidden).take 5) :
    symbol ∈ new := by
  rw [reconcileBucket_eq_ok reconciled, mem_sortSymbols]
  exact (replacedBucket_turned preferred).immune symbol
    (keptMembers_subset_filledBucket kept) leading

/-- The kept members which lose their place are at most `limit`. -/
theorem card_replaced_le
    (reconciled : reconcileBucket current preferred forbidden inactive
      memberSince effectiveAt minimumDwell limit = .ok new) :
    ((keptMembers current forbidden inactive).toFinset \
      new.toFinset).card ≤ limit := by
  have turned := @replacedBucket_turned memberSince effectiveAt minimumDwell
    limit current forbidden inactive preferred
  calc
    _ ≤ ((filledBucket current preferred forbidden inactive).toFinset \
          (replacedBucket memberSince effectiveAt minimumDwell limit current
            preferred forbidden inactive).1.toFinset).card := by
      apply Finset.card_le_card
      intro symbol outside
      rw [Finset.mem_sdiff, List.mem_toFinset, List.mem_toFinset] at outside ⊢
      rw [reconcileBucket_eq_ok reconciled, mem_sortSymbols] at outside
      exact outside.imp_left keptMembers_subset_filledBucket
    _ ≤ _ := turned.changes
    _ ≤ _ := turned.limited

/-- A few distinct preferred symbols in front are the first five. -/
theorem front_leading
    {front others : List String} (distinct : front.Nodup)
    (few : front.length ≤ 5) (allowed : ∀ symbol ∈ front, symbol ∉ forbidden)
    {symbol : String} (member : symbol ∈ front) :
    symbol ∈ (allowedPreferences (front ++ others) forbidden).take 5 := by
  have passes : (front.filter fun symbol => symbol ∉ forbidden) = front := by
    rw [List.filter_eq_self]
    intro other inFront
    simpa using allowed other inFront
  rw [allowedPreferences, List.filter_append, passes, List.eraseDups_append,
    eraseDups_of_nodup distinct, List.take_append,
    List.take_of_length_le few]
  exact List.mem_append_left _ member

end Kept

/-! ## The boundary -/

section Boundary

variable {δ : Type} {active : UniverseDecision} {policy : RollingPolicy δ}
variable {stable inactive core probe : List String}
variable {memberSince : Dict String Int} {effectiveAt : Int}

/-- The stable symbols outside a core and a probe role, best first. -/
def stableOutside (stable core probe : List String) : List String :=
  stable.filter fun symbol => symbol ∉ core ∧ symbol ∉ probe

theorem stableOutside_congr
    {otherCore otherProbe : List String}
    (sameCore : ∀ symbol, symbol ∈ otherCore ↔ symbol ∈ core)
    (sameProbe : ∀ symbol, symbol ∈ otherProbe ↔ symbol ∈ probe) :
    stableOutside stable otherCore otherProbe =
      stableOutside stable core probe := by
  apply List.filter_congr
  intro symbol _
  simp only [sameCore, sameProbe]

/-- The boundary is reconciled with its protected members in front. -/
theorem selectBoundary_eq :
    selectBoundary active policy stable inactive core probe memberSince
        effectiveAt =
      if ∃ symbol ∈ protectedBoundary active policy
          (stableOutside stable core probe) inactive core probe,
        symbol ∉ stableOutside stable core probe then .error "KeyError"
      else
        reconcileBucket active.boundary
          (protectedBoundary active policy (stableOutside stable core probe)
            inactive core probe ++ stableOutside stable core probe)
          (core ++ probe) inactive memberSince effectiveAt
          policy.candidateDwell
          (max 1 (policy.candidateDailyReplacements - 1)) := rfl

theorem selectBoundary_reconciles
    {boundary : List String}
    (selected : selectBoundary active policy stable inactive core probe
      memberSince effectiveAt = .ok boundary) :
    reconcileBucket active.boundary
      (protectedBoundary active policy (stableOutside stable core probe)
        inactive core probe ++ stableOutside stable core probe)
      (core ++ probe) inactive memberSince effectiveAt policy.candidateDwell
      (max 1 (policy.candidateDailyReplacements - 1)) = .ok boundary := by
  rw [selectBoundary_eq] at selected
  split at selected
  next => cases selected
  next => exact selected

theorem mem_protectedBoundary_iff
    {ranked : List String} {symbol : String} :
    symbol ∈ protectedBoundary active policy ranked inactive core probe ↔
      symbol ∈ active.boundary ∧ symbol ∉ inactive ∧ symbol ∉ core ∧
        symbol ∉ probe ∧
        rankIn ranked symbol ≤ policy.boundaryRetainRank := by
  rw [protectedBoundary, (List.perm_insertionSort _ _).mem_iff,
    List.mem_filter, decide_eq_true_eq]

theorem protectedBoundary_distinct (ranked : List String) :
    (protectedBoundary active policy ranked inactive core probe).Nodup :=
  (List.perm_insertionSort _ _).nodup_iff.mpr
    (active.valid.boundary.distinct.filter _)

theorem length_protectedBoundary_le (ranked : List String) :
    (protectedBoundary active policy ranked inactive core
      probe).length ≤ 5 := by
  rw [protectedBoundary, List.length_insertionSort,
    ← active.valid.boundary.length]
  exact List.length_filter_le _ _

/-- A protected member is in every boundary which is selected. -/
theorem protected_stays
    {boundary : List String}
    (selected : selectBoundary active policy stable inactive core probe
      memberSince effectiveAt = .ok boundary)
    {symbol : String}
    (isProtected : symbol ∈ protectedBoundary active policy
      (stableOutside stable core probe) inactive core probe) :
    symbol ∈ boundary := by
  have allowed (other : String)
      (member : other ∈ protectedBoundary active policy
        (stableOutside stable core probe) inactive core probe) :
      other ∉ core ++ probe := by
    rcases mem_protectedBoundary_iff.mp member with
      ⟨_, _, notCore, notProbe, _⟩
    rw [List.mem_append, not_or]
    exact ⟨notCore, notProbe⟩
  rcases mem_protectedBoundary_iff.mp isProtected with
    ⟨isMember, isActive, _⟩
  apply leading_stays (selectBoundary_reconciles selected)
  · exact mem_keptMembers_iff.mpr
      ⟨isMember, allowed symbol isProtected, isActive⟩
  · exact front_leading (protectedBoundary_distinct _)
      (length_protectedBoundary_le _) allowed isProtected

end Boundary

section Selection

variable {δ : Type} [DecimalArithmetic δ] {active : UniverseDecision}
variable {snapshot : DiscoverySnapshot} {effectiveAt : Int}
variable {memberSince coreSince : Dict String Int} {policy : RollingPolicy δ}
variable {result : SelectionResult}

/--
A boundary member which is active, has not moved to the core or the probe, and
ranks within the retain rank of the remaining stable symbols is retained.
-/
theorem boundary_retains_ranked
    (selected : selectRollingUniverse active snapshot effectiveAt memberSince
      coreSince policy = .ok result) :
    ∃ (rows : List (MarketRow δ)) (inactive : List String),
      marketRows snapshot active.members policy.liquidityWindowDays =
          .ok (rows, inactive) ∧
        ∀ symbol ∈ active.boundary, symbol ∉ inactive →
          symbol ∉ result.core → symbol ∉ result.probe →
          rankIn (stableOutside (symbolsOf (stablePool rows policy))
            result.core result.probe) symbol ≤ policy.boundaryRetainRank →
          symbol ∈ result.boundary := by
  rcases selectRollingUniverse_stages selected with
    ⟨rows, inactive, shown, _, keeps | ⟨core, probe, boundary, stages,
      coreIs, boundaryIs, probeIs⟩⟩
  · refine ⟨rows, inactive, shown, fun symbol member _ _ _ _ => ?_⟩
    rw [keeps.2.1]
    exact member
  · refine ⟨rows, inactive, shown, ?_⟩
    intro symbol member isActive notCore notProbe ranked
    rw [coreIs, probeIs, stableOutside_congr (fun _ => mem_sortSymbols)
      fun _ => mem_sortSymbols] at ranked
    rw [coreIs, mem_sortSymbols] at notCore
    rw [probeIs, mem_sortSymbols] at notProbe
    rw [boundaryIs, mem_sortSymbols]
    apply protected_stays stages.selectsBoundary
    exact mem_protectedBoundary_iff.mpr
      ⟨member, isActive, notCore, notProbe, ranked⟩

end Selection

theorem boundary_retains_ranked_sample :
    ∃ (rows : List (MarketRow ℚ)) (inactive : List String),
      marketRows sampleSnapshot sampleActive.members
          defaultPolicy.liquidityWindowDays = .ok (rows, inactive) ∧
        ∀ symbol ∈ sampleActive.boundary, symbol ∉ inactive →
          symbol ∉ sampleResult.core → symbol ∉ sampleResult.probe →
          rankIn (stableOutside (symbolsOf (stablePool rows defaultPolicy))
            sampleResult.core sampleResult.probe) symbol ≤
              defaultPolicy.boundaryRetainRank →
          symbol ∈ sampleResult.boundary :=
  boundary_retains_ranked (eq_ok_of_toOption sampleSelection_eq)

/-! ## A quiet day -/

/-- The symbols of all roles which a selection proposes. -/
def SelectionResult.symbols (result : SelectionResult) : List String :=
  result.core ++ result.boundary ++ result.probe

/-- The members of a role which a selection drops from the universe. -/
def droppedFrom (role : List String) (result : SelectionResult) :
    Finset String :=
  role.toFinset \ result.symbols.toFinset

theorem mem_droppedFrom_iff
    {role : List String} {result : SelectionResult} {symbol : String} :
    symbol ∈ droppedFrom role result ↔
      symbol ∈ role ∧ symbol ∉ result.core ∧ symbol ∉ result.boundary ∧
        symbol ∉ result.probe := by
  rw [droppedFrom, Finset.mem_sdiff, List.mem_toFinset, List.mem_toFinset,
    SelectionResult.symbols, List.mem_append, List.mem_append, or_assoc,
    not_or, not_or]

section Quiet

variable {δ : Type} {active : UniverseDecision} {policy : RollingPolicy δ}
variable {memberSince coreSince : Dict String Int} {effectiveAt : Int}
variable {result : SelectionResult}

/-- A probe role drops at most one of its members, if none is inactive. -/
theorem card_dropped_probe_le
    {core probe : List String} {wanted : List String}
    (coreKept : ∀ symbol, symbol ∈ core ↔ symbol ∈ active.core)
    (reconciled : reconcileBucket active.probe wanted core [] memberSince
      effectiveAt policy.candidateDwell 1 = .ok probe)
    (probeIs : result.probe = sortSymbols probe) :
    (droppedFrom active.probe result).card ≤ 1 := by
  apply (Finset.card_le_card _).trans (card_replaced_le reconciled)
  intro symbol dropped
  rcases mem_droppedFrom_iff.mp dropped with ⟨member, _, _, gone⟩
  rw [probeIs, mem_sortSymbols] at gone
  rw [Finset.mem_sdiff, List.mem_toFinset, List.mem_toFinset,
    mem_keptMembers_iff, coreKept]
  have apart := active.roles_distinct
  rw [List.nodup_append] at apart
  refine ⟨⟨member, fun inCore => ?_, List.not_mem_nil⟩, gone⟩
  exact apart.2.2 symbol (List.mem_append_left _ inCore) symbol member rfl

/-- A boundary role drops at most as many members as its limit. -/
theorem card_dropped_boundary_le
    {stable core probe boundary : List String}
    (coreKept : ∀ symbol, symbol ∈ core ↔ symbol ∈ active.core)
    (selected : selectBoundary active policy stable [] core probe memberSince
      effectiveAt = .ok boundary)
    (boundaryIs : result.boundary = sortSymbols boundary)
    (probeIs : result.probe = sortSymbols probe) :
    (droppedFrom active.boundary result).card ≤
      max 1 (policy.candidateDailyReplacements - 1) := by
  apply (Finset.card_le_card _).trans
    (card_replaced_le (selectBoundary_reconciles selected))
  intro symbol dropped
  rcases mem_droppedFrom_iff.mp dropped with ⟨member, _, gone, notProbe⟩
  rw [boundaryIs, mem_sortSymbols] at gone
  rw [probeIs, mem_sortSymbols] at notProbe
  rw [Finset.mem_sdiff, List.mem_toFinset, List.mem_toFinset,
    mem_keptMembers_iff, List.mem_append, coreKept, not_or]
  have apart := active.roles_distinct
  rw [List.nodup_append, List.nodup_append] at apart
  refine ⟨⟨member, ⟨fun inCore => ?_, notProbe⟩, List.not_mem_nil⟩, gone⟩
  exact apart.1.2.2 symbol inCore symbol member rfl

/-- Whatever the universe loses, one of its roles drops. -/
theorem card_dropped_members_le
    {boundaryLimit : Nat}
    (coreKept : ∀ symbol ∈ active.core, symbol ∈ result.core)
    (boundary : (droppedFrom active.boundary result).card ≤ boundaryLimit)
    (probe : (droppedFrom active.probe result).card ≤ 1) :
    (droppedFrom active.members result).card ≤ boundaryLimit + 1 := by
  have dropped : droppedFrom active.members result ⊆
      droppedFrom active.boundary result ∪
        droppedFrom active.probe result := by
    intro symbol member
    rcases mem_droppedFrom_iff.mp member with ⟨isMember, gone⟩
    rw [Finset.mem_union, mem_droppedFrom_iff, mem_droppedFrom_iff]
    rcases DecisionDraft.mem_members.mp isMember with
      inCore | inBoundary | inProbe
    · exact absurd (coreKept symbol inCore) gone.1
    · exact Or.inl ⟨inBoundary, gone⟩
    · exact Or.inr ⟨inProbe, gone⟩
  calc
    _ ≤ _ := Finset.card_le_card dropped
    _ ≤ _ := Finset.card_union_le _ _
    _ ≤ _ := Nat.add_le_add boundary probe

end Quiet

section Quiet

variable {δ : Type} [DecimalArithmetic δ] {active : UniverseDecision}
variable {snapshot : DiscoverySnapshot} {effectiveAt : Int}
variable {memberSince coreSince : Dict String Int} {policy : RollingPolicy δ}
variable {result : SelectionResult}

/-- Where nothing is inactive, only Mondays change the core. -/
theorem core_unchanged
    {rows : List (MarketRow δ)} {core : List String}
    (shown : marketRows snapshot active.members policy.liquidityWindowDays =
      .ok (rows, []))
    (selected : selectCore active policy (symbolsOf (stablePool rows policy))
      [] coreSince effectiveAt = .ok core)
    (otherDay : ¬ IsMonday effectiveAt) (symbol : String) :
    symbol ∈ core ↔ symbol ∈ active.core := by
  have stableDistinct : (symbolsOf (stablePool rows policy)).Nodup :=
    symbolsOf_pool_distinct (marketRows_shown shown).distinct
  rcases selectCore_rotates stableDistinct selected with
    ⟨forced, weekly, rotates⟩
  have none_forced (replacement : Replacement String) :
      replacement ∉ forced := fun member =>
    nomatch rotates.forced_inactive member
  rcases rotates.obeys.otherDays otherDay with ⟨leaves, enters⟩
  rw [← @mem_sortSymbols symbol core]
  constructor
  · intro present
    by_contra isNew
    rcases enters symbol present isNew with ⟨replacement, member, _⟩
    exact none_forced replacement member
  · intro old
    by_contra gone
    cases leaves symbol old gone

/--
On a day which is no Monday, with no inactive member, the universe loses at
most two members or as many as are replaced daily, at most one of the probe
and at most the limit of the boundary.
-/
theorem daily_turnover_bounded
    {rows : List (MarketRow δ)}
    (shown : marketRows snapshot active.members policy.liquidityWindowDays =
      .ok (rows, []))
    (otherDay : ¬ IsMonday effectiveAt)
    (selected : selectRollingUniverse active snapshot effectiveAt memberSince
      coreSince policy = .ok result) :
    (droppedFrom active.members result).card ≤
        max 2 policy.candidateDailyReplacements ∧
      (droppedFrom active.probe result).card ≤ 1 ∧
      (droppedFrom active.boundary result).card ≤
        max 1 (policy.candidateDailyReplacements - 1) := by
  rcases selectRollingUniverse_stages selected with
    ⟨otherRows, inactive, otherShown, _, keeps | ⟨core, probe, boundary,
      stages, coreIs, boundaryIs, probeIs⟩⟩
  · have keepsAll (symbol : String) (member : symbol ∈ active.members) :
        symbol ∈ result.symbols := by
      rw [SelectionResult.symbols, keeps.1, keeps.2.1, keeps.2.2]
      simpa [or_assoc] using member
    have none_dropped (role : List String)
        (isRole : ∀ symbol ∈ role, symbol ∈ active.members) :
        droppedFrom role result = ∅ := by
      rw [droppedFrom, Finset.sdiff_eq_empty_iff_subset]
      intro symbol member
      rw [List.mem_toFinset] at member ⊢
      exact keepsAll symbol (isRole symbol member)
    rw [none_dropped active.members fun _ member => member,
      none_dropped active.boundary fun _ member =>
        DecisionDraft.mem_members.mpr (Or.inr (Or.inl member)),
      none_dropped active.probe fun _ member =>
        DecisionDraft.mem_members.mpr (Or.inr (Or.inr member)),
      Finset.card_empty]
    exact ⟨Nat.zero_le _, Nat.zero_le _, Nat.zero_le _⟩
  · cases shown.symm.trans otherShown
    have coreKept := core_unchanged shown stages.selectsCore otherDay
    have fromProbe := card_dropped_probe_le coreKept stages.reconciles probeIs
    have fromBoundary := card_dropped_boundary_le coreKept
      stages.selectsBoundary boundaryIs probeIs
    refine ⟨?_, fromProbe, fromBoundary⟩
    have coreStays (symbol : String) (member : symbol ∈ active.core) :
        symbol ∈ result.core := by
      rw [coreIs, mem_sortSymbols]
      exact (coreKept symbol).mpr member
    have dropped :=
      card_dropped_members_le coreStays fromBoundary fromProbe
    omega

end Quiet

theorem daily_turnover_bounded_sample :
    (droppedFrom sampleActive.members sampleResult).card ≤
        max 2 defaultPolicy.candidateDailyReplacements ∧
      (droppedFrom sampleActive.probe sampleResult).card ≤ 1 ∧
      (droppedFrom sampleActive.boundary sampleResult).card ≤
        max 1 (defaultPolicy.candidateDailyReplacements - 1) := by
  have selected := eq_ok_of_toOption sampleSelection_eq
  rcases selectRollingUniverse_stages selected with
    ⟨rows, inactive, shown, listed, _⟩
  have none : inactive = [] := by
    have counted := congrArg List.length listed
    rw [length_sortSymbols] at counted
    exact List.eq_nil_of_length_eq_zero counted.symm
  rw [none] at shown
  exact daily_turnover_bounded shown (by decide) selected

/-! ## Two members lost where one is replaced daily

A boundary member without klines gives way to a stable symbol, and the last
probe member to the youngest one.
-/

def fadedActive : UniverseDecision where
  coreGeneration := 1
  candidateRevision := 0
  decisionSequence := 1
  createdAt := 0
  effectiveAt := 0
  reason := .formalBootstrap
  core := sampleSymbols 10 50
  boundary := sampleSymbols 61 4 ++ ["S71"]
  probe := sampleSymbols 65 5
  valid := by decide +kernel

def fadedInfo : Evidence where
  payload := .object [("symbols", .array
    ((sampleSymbols 10 60).map (sampleInfo 19000) ++
      [sampleInfo 19900 "S70", sampleInfo 19000 "S71"]))]
  sha256 := "exchange-info"

def fadedSnapshot : DiscoverySnapshot :=
  { sampleSnapshot with
    exchangeInfo := fadedInfo
    exchangeInfoConfirmation := fadedInfo }

def singlePolicy : RollingPolicy ℚ :=
  { defaultPolicy with candidateDailyReplacements := 1 }

theorem fadedSelection_eq :
    (selectRollingUniverse fadedActive fadedSnapshot (20000 * usPerDay)
      (sampleSince fadedActive.members) (sampleSince fadedActive.core)
      singlePolicy).toOption = some sampleResult := by
  decide +kernel

theorem two_dropped_on_quiet_day :
    selectRollingUniverse fadedActive fadedSnapshot (20000 * usPerDay)
        (sampleSince fadedActive.members) (sampleSince fadedActive.core)
        singlePolicy = .ok sampleResult ∧
      sampleResult.inactive = [] ∧ ¬ IsMonday (20000 * usPerDay) ∧
      singlePolicy.candidateDailyReplacements = 1 ∧
      ¬ (droppedFrom fadedActive.members sampleResult).card ≤
        singlePolicy.candidateDailyReplacements := by
  refine ⟨eq_ok_of_toOption fadedSelection_eq, rfl, ?_, rfl, ?_⟩
  · decide
  · decide +kernel

end ShadowDataPlane.Central
