import ShadowDataPlane.Central.SelectionWellFormed

/-!
# The weekly core rotation

The core changes by replacements: each inactive member gives way to the next
symbol of the replacement pool, and on Mondays the best challengers take the
places of the weakest incumbents.  Both loops are described by the list of the
replacements they make, and the rules of the rotation are read off these
lists.
-/

namespace ShadowDataPlane.Central

open ShadowDataPlane.Contracts
open ShadowDataPlane.Foundation

/-! ## Inactive members -/

/-- Each inactive core member, with the pool's symbol that replaces it. -/
def inactiveReplacements (inactive pool core : List String) :
    List (Replacement String) :=
  List.zipWith Replacement.mk (core.filter fun symbol => symbol ∈ inactive)
    pool

/-- The first symbol of a pool whose used part is in the core. -/
theorem takeFirst_append
    {used rest core : List String} (taken : ∀ symbol ∈ used, symbol ∈ core)
    (free : ∀ symbol ∈ rest, symbol ∉ core) :
    takeFirst (used ++ rest) core = rest.head? := by
  have none : used.find? (fun value => value ∉ core) = none := by
    rw [List.find?_eq_none]
    intro symbol inUsed
    simpa using taken symbol inUsed
  rw [takeFirst, List.find?_append, none, Option.none_or]
  cases rest with
  | nil => rfl
  | cons symbol others =>
      have isFree := free symbol List.mem_cons_self
      simp [isFree]

/-- What is left to do replaces its inactive members from the unused pool. -/
theorem replaceInactive_pass_eq
    {inactive used rest todo core : List String}
    (distinct : core.Nodup) (todoDistinct : todo.Nodup)
    (restDistinct : rest.Nodup)
    (present : ∀ symbol ∈ todo, symbol ∈ core)
    (unpooled : ∀ symbol ∈ todo, symbol ∉ rest)
    (taken : ∀ symbol ∈ used, symbol ∈ core ∧ symbol ∉ todo)
    (free : ∀ symbol ∈ rest, symbol ∉ core) :
    (todo.foldlM (replaceIfInactive inactive (used ++ rest)) core).toOption =
      if (todo.filter fun symbol => symbol ∈ inactive).length ≤ rest.length
      then
        some (applyReplacements core
          (inactiveReplacements inactive rest todo))
      else none := by
  induction todo generalizing used rest core with
  | nil => simp [inactiveReplacements, pure, Except.pure, Except.toOption]
  | cons symbol others induction =>
      rcases List.nodup_cons.mp todoDistinct with ⟨fresh, othersDistinct⟩
      have isCore := present symbol List.mem_cons_self
      have inOthers {other : String} (member : other ∈ others) :=
        List.mem_cons_of_mem symbol member
      rw [List.foldlM_cons, replaceIfInactive]
      by_cases isInactive : symbol ∈ inactive
      · rw [if_pos isInactive,
          takeFirst_append (fun other inUsed => (taken other inUsed).1) free]
        cases rest with
        | nil => simp [isInactive, bind, Except.bind, Except.toOption]
        | cons challenger left =>
            have notCore := free challenger List.mem_cons_self
            have members (other : String) :=
              mem_replaceMember_iff distinct isCore challenger other
            rcases List.nodup_cons.mp restDistinct with
              ⟨unused, leftDistinct⟩
            have later := @induction (used ++ [challenger]) left
              (replaceMember core symbol challenger)
              (nodup_replaceMember distinct notCore)
              othersDistinct leftDistinct
              (fun other member => (members other).mpr (Or.inr
                ⟨present other (inOthers member),
                  fun same => fresh (same ▸ member)⟩))
              (fun other member inLeft => unpooled other (inOthers member)
                (List.mem_cons_of_mem _ inLeft))
              (by
                intro other inUsed
                rcases List.mem_append.mp inUsed with wasUsed | isNew
                · rcases taken other wasUsed with ⟨inCore, notTodo⟩
                  rw [List.mem_cons, not_or] at notTodo
                  exact ⟨(members other).mpr (Or.inr ⟨inCore, notTodo.1⟩),
                    notTodo.2⟩
                · rw [List.mem_singleton.mp isNew]
                  refine ⟨(members _).mpr (Or.inl rfl), fun member => ?_⟩
                  exact unpooled _ (inOthers member) List.mem_cons_self)
              (by
                intro other inLeft inMiddle
                rcases (members other).mp inMiddle with isNew | ⟨old, _⟩
                · exact unused (isNew ▸ inLeft)
                · exact free other (List.mem_cons_of_mem _ inLeft) old)
            rw [List.append_assoc, List.singleton_append] at later
            simpa [isInactive, inactiveReplacements] using later
      · rw [if_neg isInactive, ok_bind]
        have later := induction distinct othersDistinct restDistinct
          (fun other member => present other (inOthers member))
          (fun other member => unpooled other (inOthers member))
          (fun other inUsed => ⟨(taken other inUsed).1,
            fun member => (taken other inUsed).2 (inOthers member)⟩) free
        simpa [isInactive, inactiveReplacements] using later

/-- The inactive members are replaced as long as the pool suffices. -/
theorem replaceInactive_eq
    {inactive pool core : List String} (distinct : core.Nodup)
    (poolDistinct : pool.Nodup) (apart : ∀ symbol ∈ pool, symbol ∉ core) :
    (replaceInactive inactive pool core).toOption =
      if (core.filter fun symbol => symbol ∈ inactive).length ≤ pool.length
      then
        some (applyReplacements core
          (inactiveReplacements inactive pool core))
      else none := by
  apply @replaceInactive_pass_eq inactive [] pool core core distinct distinct
    poolDistinct (fun _ member => member)
  · exact fun symbol member inPool => apart symbol inPool member
  · exact fun _ inUsed => nomatch inUsed
  · exact apart

/-! ## Weekly promotions -/

/-- What a weekly replacement must satisfy. -/
structure Promotes {δ : Type} (policy : RollingPolicy δ) (stableRank : String → Nat)
    (coreSince : Dict String Int) (activeEffectiveAt effectiveAt : Int)
    (replacement : Replacement String) : Prop where
  fallen : policy.coreRetainRank < stableRank replacement.incumbent
  dwelled : DwellComplete
    ((coreSince.get? replacement.incumbent).getD activeEffectiveAt)
    effectiveAt policy.coreDwell
  better : stableRank replacement.challenger <
    stableRank replacement.incumbent

section Weekly

variable {δ : Type} {policy : RollingPolicy δ} {stableRank : String → Nat}
variable {coreSince : Dict String Int} {activeEffectiveAt effectiveAt : Int}

/-- The weekly loop makes replacements by the rules, within its limit. -/
theorem promoteWeekly_eq
    (promotable : List String) (changes : Nat) (core : List String) :
    ∃ weekly : List (Replacement String),
      promoteWeekly policy stableRank coreSince activeEffectiveAt effectiveAt
        promotable changes core = applyReplacements core weekly ∧
      changes + weekly.length ≤ max changes policy.coreWeeklyReplacements ∧
      ∀ replacement ∈ weekly, replacement.challenger ∈ promotable ∧
        Promotes policy stableRank coreSince activeEffectiveAt effectiveAt
          replacement := by
  have stops (todo : List String) (changes : Nat) (core : List String) :
      ∃ weekly : List (Replacement String),
        core = applyReplacements core weekly ∧
        changes + weekly.length ≤ max changes policy.coreWeeklyReplacements ∧
        ∀ replacement ∈ weekly, replacement.challenger ∈ todo ∧
          Promotes policy stableRank coreSince activeEffectiveAt effectiveAt
            replacement :=
    ⟨[], rfl, Nat.le_max_left _ _, fun _ member => nomatch member⟩
  induction promotable generalizing changes core with
  | nil => exact stops [] changes core
  | cons challenger rest induction =>
      simp only [promoteWeekly]
      split
      next allowed =>
        split
        next => exact stops _ changes core
        next incumbent weakest =>
          split
          next => exact stops _ changes core
          next better =>
            have removable := List.mem_filter.mp (List.argmax_mem weakest)
            have rules := of_decide_eq_true removable.2
            rcases induction (changes + 1)
              (replaceMember core incumbent challenger) with
              ⟨weekly, promoted, bounded, obey⟩
            refine ⟨⟨incumbent, challenger⟩ :: weekly, promoted, ?_, ?_⟩
            · rw [List.length_cons]
              omega
            · intro replacement member
              rcases List.mem_cons.mp member with isFirst | isLater
              · rw [isFirst]
                exact ⟨List.mem_cons_self, rules.1, rules.2,
                  Nat.lt_of_not_le better⟩
              · exact ⟨List.mem_cons_of_mem _ (obey _ isLater).1,
                  (obey _ isLater).2⟩
      next => exact stops _ changes core

end Weekly

/-! ## The rules -/

section Rules

variable {δ : Type} (active : UniverseDecision) (policy : RollingPolicy δ)
variable (stable inactive : List String) (coreSince : Dict String Int)
variable (effectiveAt : Int)

/-- The active core members which are inactive. -/
def inactiveCore : List String :=
  active.core.filter fun symbol => symbol ∈ inactive

/--
The core is the active one after `forced` replacements of inactive members and
`weekly` ones, and both obey the rules.
-/
structure RotatesCore (core : List String)
    (forced weekly : List (Replacement String)) : Prop where
  made : core = sortSymbols (applyReplacements active.core (forced ++ weekly))
  replacesInactive : (forced.map Replacement.incumbent).Sublist
    (inactiveCore active inactive)
  mondays : weekly ≠ [] → IsMonday effectiveAt
  limited : forced.length + weekly.length ≤
    max (inactiveCore active inactive).length policy.coreWeeklyReplacements
  entry : ∀ replacement ∈ weekly,
    replacement.challenger ∈ stable ∧
      rankIn stable replacement.challenger ≤ policy.coreEntryRank
  promotes : ∀ replacement ∈ weekly,
    Promotes policy (rankIn stable) coreSince active.effectiveAt effectiveAt
      replacement

/-- What the rules say of the symbols which enter and leave the core. -/
structure CoreObeys (core : List String)
    (forced weekly : List (Replacement String)) : Prop where
  changes :
    (core.toFinset \ active.core.toFinset).card ≤
        max (inactiveCore active inactive).length
          policy.coreWeeklyReplacements ∧
      (active.core.toFinset \ core.toFinset).card ≤
        max (inactiveCore active inactive).length
          policy.coreWeeklyReplacements
  leaves : ∀ symbol ∈ active.core, symbol ∉ core →
    symbol ∈ inactive ∨
      (IsMonday effectiveAt ∧
        policy.coreRetainRank < rankIn stable symbol ∧
        DwellComplete ((coreSince.get? symbol).getD active.effectiveAt)
          effectiveAt policy.coreDwell)
  enters : ∀ symbol ∈ core, symbol ∉ active.core →
    (∃ replacement ∈ forced, replacement.challenger = symbol) ∨
      (rankIn stable symbol ≤ policy.coreEntryRank ∧
        ∃ replacement ∈ weekly, replacement.challenger = symbol ∧
          rankIn stable symbol < rankIn stable replacement.incumbent)
  otherDays : ¬ IsMonday effectiveAt →
    (∀ symbol ∈ active.core, symbol ∉ core → symbol ∈ inactive) ∧
      ∀ symbol ∈ core, symbol ∉ active.core →
        ∃ replacement ∈ forced, replacement.challenger = symbol

end Rules

section Rules

variable {δ : Type} {active : UniverseDecision} {policy : RollingPolicy δ}
variable {stable inactive : List String} {coreSince : Dict String Int}
variable {effectiveAt : Int} {core : List String}
variable {forced weekly : List (Replacement String)}

theorem RotatesCore.forced_inactive
    (rotates : RotatesCore active policy stable inactive coreSince effectiveAt
      core forced weekly)
    {replacement : Replacement String} (member : replacement ∈ forced) :
    replacement.incumbent ∈ inactive := by
  have inInactive := rotates.replacesInactive.subset
    (List.mem_map_of_mem member)
  exact of_decide_eq_true (List.mem_filter.mp inInactive).2

theorem RotatesCore.mem_iff
    (rotates : RotatesCore active policy stable inactive coreSince effectiveAt
      core forced weekly) (symbol : String) :
    symbol ∈ core ↔
      symbol ∈ applyReplacements active.core (forced ++ weekly) := by
  rw [rotates.made, mem_sortSymbols]

theorem RotatesCore.toFinset_eq
    (rotates : RotatesCore active policy stable inactive coreSince effectiveAt
      core forced weekly) :
    core.toFinset =
      (applyReplacements active.core (forced ++ weekly)).toFinset := by
  ext symbol
  rw [List.mem_toFinset, List.mem_toFinset, rotates.mem_iff]

theorem RotatesCore.left
    (rotates : RotatesCore active policy stable inactive coreSince effectiveAt
      core forced weekly)
    {symbol : String} (old : symbol ∈ active.core) (gone : symbol ∉ core) :
    symbol ∈ inactive ∨
      ∃ replacement ∈ weekly, replacement.incumbent = symbol := by
  rw [rotates.mem_iff] at gone
  rcases (left_of_mem old).resolve_left gone with
    ⟨replacement, made, rfl⟩
  rcases List.mem_append.mp made with isForced | isWeekly
  · exact Or.inl (rotates.forced_inactive isForced)
  · exact Or.inr ⟨replacement, isWeekly, rfl⟩

theorem RotatesCore.entered
    (rotates : RotatesCore active policy stable inactive coreSince effectiveAt
      core forced weekly)
    {symbol : String} (present : symbol ∈ core)
    (isNew : symbol ∉ active.core) :
    (∃ replacement ∈ forced, replacement.challenger = symbol) ∨
      ∃ replacement ∈ weekly, replacement.challenger = symbol := by
  rw [rotates.mem_iff] at present
  rcases (entered_of_mem_applyReplacements present).resolve_left isNew with
    ⟨replacement, made, enters⟩
  rcases List.mem_append.mp made with isForced | isWeekly
  · exact Or.inl ⟨replacement, isForced, enters⟩
  · exact Or.inr ⟨replacement, isWeekly, enters⟩

theorem RotatesCore.obeys
    (rotates : RotatesCore active policy stable inactive coreSince effectiveAt
      core forced weekly) :
    CoreObeys active policy stable inactive coreSince effectiveAt core forced
      weekly := by
  have made : (forced ++ weekly).length ≤
      max (inactiveCore active inactive).length
        policy.coreWeeklyReplacements := by
    rw [List.length_append]
    exact rotates.limited
  have none_weekly (other : ¬ IsMonday effectiveAt) : weekly = [] := by
    by_contra some
    exact other (rotates.mondays some)
  constructor
  · rw [rotates.toFinset_eq]
    constructor
    · exact (card_entered_le _ _).trans made
    · exact (card_left_le _ _).trans made
  · intro symbol old gone
    apply (rotates.left old gone).imp_right
    rintro ⟨replacement, isWeekly, rfl⟩
    have promotes := rotates.promotes replacement isWeekly
    exact ⟨rotates.mondays (List.ne_nil_of_mem isWeekly), promotes.fallen,
      promotes.dwelled⟩
  · intro symbol present isNew
    apply (rotates.entered present isNew).imp_right
    rintro ⟨replacement, isWeekly, rfl⟩
    exact ⟨(rotates.entry replacement isWeekly).2, replacement, isWeekly, rfl,
      (rotates.promotes replacement isWeekly).better⟩
  · intro other
    have none := none_weekly other
    constructor
    · intro symbol old gone
      apply (rotates.left old gone).resolve_right
      rw [none]
      rintro ⟨_, member, _⟩
      cases member
    · intro symbol present isNew
      apply (rotates.entered present isNew).resolve_right
      rw [none]
      rintro ⟨_, member, _⟩
      cases member

/-- The core which a selection keeps. -/
theorem RotatesCore.kept :
    RotatesCore active policy stable inactive coreSince effectiveAt
      active.core [] [] where
  made := by
    rw [List.append_nil, applyReplacements_nil]
    exact (active.valid.core.sorted.insertionSort_eq).symm
  replacesInactive := List.nil_sublist _
  mondays := fun some => absurd rfl some
  limited := Nat.zero_le _
  entry := fun _ member => nomatch member
  promotes := fun _ member => nomatch member

end Rules

/-! ## The core of a selection -/

section Selection

variable {δ : Type} {active : UniverseDecision} {policy : RollingPolicy δ}
variable {stable inactive : List String} {coreSince : Dict String Int}
variable {effectiveAt : Int}

/-- The stable symbols which may replace a core member. -/
def replacementPool (active : UniverseDecision) (stable : List String) :
    List String :=
  stable.filter fun symbol => symbol ∉ active.core

theorem replaceInactive_active
    (distinct : stable.Nodup) :
    (replaceInactive inactive (replacementPool active stable)
        active.core).toOption =
      if (inactiveCore active inactive).length ≤
        (replacementPool active stable).length
      then
        some (applyReplacements active.core
          (inactiveReplacements inactive (replacementPool active stable)
            active.core))
      else none := by
  apply replaceInactive_eq active.valid.core.distinct (distinct.filter _)
  intro symbol member
  simpa using (List.mem_filter.mp member).2

/-- The core is rebuilt exactly when the pool covers its inactive members. -/
theorem selectCore_completes_iff (distinct : stable.Nodup) :
    (∃ core, selectCore active policy stable inactive coreSince effectiveAt =
        .ok core) ↔
      (inactiveCore active inactive).length ≤
        (replacementPool active stable).length := by
  have replaced := @replaceInactive_active active stable inactive distinct
  constructor
  · rintro ⟨core, selected⟩
    rw [selectCore, bind_eq_ok_iff] at selected
    rcases selected with ⟨middle, completed, _⟩
    by_contra short
    rw [if_neg short] at replaced
    have some := congrArg Except.toOption completed
    rw [← replacementPool, replaced] at some
    cases some
  · intro enough
    rw [if_pos enough] at replaced
    have completed := eq_ok_of_toOption replaced
    rw [replacementPool] at completed
    simp only [selectCore, completed, ok_bind]
    split
    next => exact ⟨_, rfl⟩
    next => exact ⟨_, rfl⟩

/-- A pool which suffices gives every inactive member its replacement. -/
theorem incumbent_inactiveReplacements
    {pool core : List String}
    (enough : (core.filter fun symbol => symbol ∈ inactive).length ≤
      pool.length) :
    (inactiveReplacements inactive pool core).map Replacement.incumbent =
      core.filter fun symbol => symbol ∈ inactive := by
  calc
    _ = ((core.filter fun symbol => symbol ∈ inactive).zip pool).map
          Prod.fst := by
      rw [inactiveReplacements, List.map_zipWith, List.zip, List.map_zipWith]
    _ = _ := List.map_fst_zip enough

/-- So many members of the core have been replaced as were inactive. -/
theorem changes_of_replaceInactive
    {middle : List String}
    (completed : replaceInactive inactive (replacementPool active stable)
      active.core = .ok middle) :
    (inactiveCore active inactive).length ≤
      (active.core.toFinset \ middle.toFinset).card := by
  have rebuilt := replaceInactive_spec active.valid.core.distinct completed
  have gone : (inactiveCore active inactive).toFinset ⊆
      active.core.toFinset \ middle.toFinset := by
    intro symbol member
    rw [List.mem_toFinset] at member
    rcases List.mem_filter.mp member with ⟨isCore, isInactive⟩
    rw [Finset.mem_sdiff, List.mem_toFinset, List.mem_toFinset]
    refine ⟨isCore, fun inMiddle => ?_⟩
    rcases rebuilt.origin symbol inMiddle with ⟨_, stays⟩ | pooled
    · exact stays (of_decide_eq_true isInactive)
    · exact of_decide_eq_true (List.mem_filter.mp pooled).2 isCore
  calc
    _ = (inactiveCore active inactive).toFinset.card :=
      (List.toFinset_card_of_nodup
        (active.valid.core.distinct.filter _)).symm
    _ ≤ _ := Finset.card_le_card gone

/-- The core of a selection comes about by the rules. -/
theorem selectCore_rotates
    {core : List String} (distinct : stable.Nodup)
    (selected : selectCore active policy stable inactive coreSince
      effectiveAt = .ok core) :
    ∃ forced weekly, RotatesCore active policy stable inactive coreSince
      effectiveAt (sortSymbols core) forced weekly := by
  have enough := (selectCore_completes_iff distinct).mp ⟨core, selected⟩
  have replaced := @replaceInactive_active active stable inactive distinct
  rw [if_pos enough] at replaced
  have completed := eq_ok_of_toOption replaced
  have incumbents := incumbent_inactiveReplacements enough
  have counted := changes_of_replaceInactive completed
  have forcedLength := congrArg List.length incumbents
  rw [List.length_map] at forcedLength
  rw [replacementPool] at completed
  simp only [selectCore, completed, ok_bind] at selected
  refine ⟨inactiveReplacements inactive (replacementPool active stable)
    active.core, ?_⟩
  split at selected
  next monday =>
    rcases promoteWeekly_eq _ _ _ with ⟨weekly, promoted, bounded, obey⟩
    rw [promoted] at selected
    have made := Except.ok.inj selected
    have left := card_left_le active.core
      (inactiveReplacements inactive (replacementPool active stable)
        active.core)
    refine ⟨weekly, ?_, ?_, fun _ => monday, ?_, ?_, ?_⟩
    · rw [applyReplacements_append, ← made, replacementPool]
    · rw [incumbents, inactiveCore]
    · simp only [inactiveCore, replacementPool] at *
      omega
    · intro replacement member
      rcases List.mem_filter.mp (obey replacement member).1 with
        ⟨pooled, allowed⟩
      exact ⟨List.mem_of_mem_filter pooled, (of_decide_eq_true allowed).2⟩
    · exact fun replacement member => (obey replacement member).2
  next =>
    have made := Except.ok.inj selected
    refine ⟨[], ?_, ?_, fun some => absurd rfl some, ?_, ?_, ?_⟩
    · rw [List.append_nil, ← made, replacementPool]
    · rw [incumbents, inactiveCore]
    · simp only [inactiveCore] at *
      rw [List.length_nil]
      omega
    · exact fun _ member => absurd member List.not_mem_nil
    · exact fun _ member => absurd member List.not_mem_nil

end Selection

/--
The core of a selection differs from the active one by at most as many symbols
as were inactive or the week allows.  Who leaves is inactive or has fallen
behind after a complete dwell, and who enters beyond the replacements of
inactive members ranks well and better than the member it replaced.
-/
theorem core_rotation_obeys
    {δ : Type} [DecimalArithmetic δ] {active : UniverseDecision}
    {snapshot : DiscoverySnapshot} {effectiveAt : Int}
    {memberSince coreSince : Dict String Int} {policy : RollingPolicy δ}
    {result : SelectionResult}
    (selected : selectRollingUniverse active snapshot effectiveAt memberSince
      coreSince policy = .ok result) :
    ∃ (rows : List (MarketRow δ)) (inactive : List String)
        (forced weekly : List (Replacement String)),
      marketRows snapshot active.members policy.liquidityWindowDays =
          .ok (rows, inactive) ∧
        RotatesCore active policy (symbolsOf (stablePool rows policy))
          inactive coreSince effectiveAt result.core forced weekly ∧
        CoreObeys active policy (symbolsOf (stablePool rows policy))
          inactive coreSince effectiveAt result.core forced weekly := by
  rcases selectRollingUniverse_stages selected with
    ⟨rows, inactive, shown, _, keeps | ⟨core, probe, boundary, stages,
      coreIs, _⟩⟩
  · refine ⟨rows, inactive, [], [], shown, ?_⟩
    rw [keeps.1]
    exact ⟨RotatesCore.kept, RotatesCore.kept.obeys⟩
  · have stableDistinct : (symbolsOf (stablePool rows policy)).Nodup :=
      symbolsOf_pool_distinct (marketRows_shown shown).distinct
    rcases selectCore_rotates stableDistinct stages.selectsCore with
      ⟨forced, weekly, rotates⟩
    refine ⟨rows, inactive, forced, weekly, shown, ?_⟩
    rw [coreIs]
    exact ⟨rotates, rotates.obeys⟩

/-! ## A promotion

The sample market on a Monday, with its best symbol in the boundary.
-/

def unrankedActive : UniverseDecision where
  coreGeneration := 1
  candidateRevision := 0
  decisionSequence := 1
  createdAt := 0
  effectiveAt := 0
  reason := .formalBootstrap
  core := sampleSymbols 11 50
  boundary := "S10" :: sampleSymbols 61 4
  probe := sampleSymbols 65 5
  valid := by decide +kernel

/-- A policy in which rank fifty-one has fallen out of the core. -/
def narrowPolicy : RollingPolicy ℚ :=
  { defaultPolicy with coreRetainRank := 50 }

theorem promotedSelection_eq :
    (selectRollingUniverse unrankedActive sampleSnapshot (20003 * usPerDay)
      (sampleSince unrankedActive.members) (sampleSince unrankedActive.core)
      narrowPolicy).toOption = some sampleResult := by
  decide +kernel

theorem core_rotation_obeys_promoted :
    ∃ (rows : List (MarketRow ℚ)) (inactive : List String)
        (forced weekly : List (Replacement String)),
      marketRows sampleSnapshot unrankedActive.members
          narrowPolicy.liquidityWindowDays = .ok (rows, inactive) ∧
        RotatesCore unrankedActive narrowPolicy
          (symbolsOf (stablePool rows narrowPolicy)) inactive
          (sampleSince unrankedActive.core) (20003 * usPerDay)
          sampleResult.core forced weekly ∧
        CoreObeys unrankedActive narrowPolicy
          (symbolsOf (stablePool rows narrowPolicy)) inactive
          (sampleSince unrankedActive.core) (20003 * usPerDay)
          sampleResult.core forced weekly :=
  core_rotation_obeys (eq_ok_of_toOption promotedSelection_eq)

end ShadowDataPlane.Central
