import Mathlib.Algebra.Order.Ring.Rat
import ShadowDataPlane.Central.Selector

/-!
# What a rolling selection returns

Each part of the selection has one specification: which members the new role
has, where they come from, and why a member of the old role is no longer one.
The specifications give that a selection is well formed, and they are what the
dwell times of the universe store rest on.
-/

namespace ShadowDataPlane.Central

open ShadowDataPlane.Contracts
open ShadowDataPlane.Foundation

/-! ## The core -/

/--
A list which replaced some members of another one.

Every member is an old one which may stay or comes from the pool, and every
old member which is gone was allowed to leave.
-/
structure Rebuilt (old new : List String) (stays : String → Prop)
    (pool : List String) (leaves : String → Prop) : Prop where
  length : new.length = old.length
  distinct : new.Nodup
  origin : ∀ symbol ∈ new, (symbol ∈ old ∧ stays symbol) ∨ symbol ∈ pool
  left : ∀ symbol ∈ old, symbol ∈ new ∨ leaves symbol

theorem Rebuilt.refl
    {old pool : List String} {stays leaves : String → Prop}
    (distinct : old.Nodup) (stay : ∀ symbol ∈ old, stays symbol) :
    Rebuilt old old stays pool leaves where
  length := rfl
  distinct := distinct
  origin symbol member := Or.inl ⟨member, stay symbol member⟩
  left _ member := Or.inl member

/-- Rebuild once more, from a part of the same pool. -/
theorem Rebuilt.trans
    {old middle new pool laterPool : List String}
    {stays leaves leavesLater : String → Prop}
    (first : Rebuilt old middle stays pool leaves)
    (second : Rebuilt middle new (fun _ => True) laterPool leavesLater)
    (fromPool : ∀ symbol ∈ laterPool, symbol ∈ pool) :
    Rebuilt old new stays pool
      (fun symbol => leaves symbol ∨ leavesLater symbol) where
  length := second.length.trans first.length
  distinct := second.distinct
  origin symbol member := by
    rcases second.origin symbol member with ⟨inMiddle, _⟩ | pooled
    · exact first.origin symbol inMiddle
    · exact Or.inr (fromPool symbol pooled)
  left symbol member := by
    rcases first.left symbol member with inMiddle | leaves
    · exact (second.left symbol inMiddle).imp_right Or.inr
    · exact Or.inr (Or.inl leaves)

theorem takeFirst_eq_some
    {values forbidden : List String} {value : String}
    (found : takeFirst values forbidden = some value) :
    value ∈ values ∧ value ∉ forbidden := by
  constructor
  · exact List.mem_of_find?_eq_some found
  · simpa using List.find?_some found

/-- One pass over the places `todo` of a core. -/
theorem replaceInactive_pass
    {inactive pool todo core final : List String}
    (distinct : core.Nodup) (todoDistinct : todo.Nodup)
    (present : ∀ symbol ∈ todo, symbol ∈ core)
    (completed :
      todo.foldlM (replaceIfInactive inactive pool) core = .ok final) :
    Rebuilt core final
      (fun symbol => symbol ∈ todo → symbol ∉ inactive) pool
      (fun symbol => symbol ∈ inactive) := by
  induction todo generalizing core with
  | nil =>
      rw [← Except.ok.inj completed]
      exact Rebuilt.refl distinct fun _ _ inTodo => nomatch inTodo
  | cons symbol rest induction =>
      rw [List.foldlM_cons] at completed
      rcases bind_eq_ok_iff.mp completed with ⟨middle, stepped, continued⟩
      rcases List.nodup_cons.mp todoDistinct with ⟨fresh, restDistinct⟩
      have isCore := present symbol List.mem_cons_self
      simp only [replaceIfInactive] at stepped
      split at stepped
      next isInactive =>
        split at stepped
        next => cases stepped
        next replacement taken =>
          rcases takeFirst_eq_some taken with ⟨inPool, notCore⟩
          cases stepped
          have members (other : String) :=
            mem_replaceMember_iff distinct isCore replacement other
          have later := induction (nodup_replaceMember distinct notCore)
            restDistinct (fun other inRest => (members other).mpr (Or.inr
              ⟨present other (List.mem_cons_of_mem _ inRest),
                fun same => fresh (same ▸ inRest)⟩)) continued
          constructor
          · rw [later.length, length_replaceMember]
          · exact later.distinct
          · intro other member
            rcases later.origin other member with ⟨inMiddle, stays⟩ | pooled
            · rcases (members other).mp inMiddle with isNew | ⟨old, different⟩
              · exact Or.inr (isNew ▸ inPool)
              · apply Or.inl
                refine ⟨old, fun inTodo => stays ?_⟩
                exact (List.mem_cons.mp inTodo).resolve_left different
            · exact Or.inr pooled
          · intro other member
            by_cases same : other = symbol
            · exact Or.inr (same ▸ isInactive)
            · exact later.left other
                ((members other).mpr (Or.inr ⟨member, same⟩))
      next isActive =>
        cases stepped
        have later := induction distinct restDistinct
          (fun other inRest => present other (List.mem_cons_of_mem _ inRest))
          continued
        constructor
        · exact later.length
        · exact later.distinct
        · intro other member
          apply (later.origin other member).imp_left
          rintro ⟨old, stays⟩
          refine ⟨old, fun inTodo => ?_⟩
          rcases List.mem_cons.mp inTodo with same | inRest
          · exact same ▸ isActive
          · exact stays inRest
        · exact later.left

theorem replaceInactive_spec
    {inactive pool core final : List String}
    (distinct : core.Nodup)
    (completed : replaceInactive inactive pool core = .ok final) :
    Rebuilt core final (fun symbol => symbol ∉ inactive) pool
      (fun symbol => symbol ∈ inactive) := by
  have passed := replaceInactive_pass distinct distinct
    (fun _ member => member) completed
  constructor
  · exact passed.length
  · exact passed.distinct
  · intro symbol member
    apply (passed.origin symbol member).imp_left
    exact fun ⟨old, stays⟩ => ⟨old, stays old⟩
  · exact passed.left

section Weekly

variable {δ : Type} {policy : RollingPolicy δ} {stableRank : String → Nat}
variable {coreSince : Dict String Int} {activeEffectiveAt effectiveAt : Int}

/-- The weekly loop replaces only members whose core dwell is complete. -/
theorem promoteWeekly_spec
    {promotable core : List String} (changes : Nat)
    (distinct : core.Nodup) (promotableDistinct : promotable.Nodup)
    (apart : ∀ symbol ∈ promotable, symbol ∉ core) :
    Rebuilt core
      (promoteWeekly policy stableRank coreSince activeEffectiveAt
        effectiveAt promotable changes core)
      (fun _ => True) promotable
      (fun symbol =>
        DwellComplete ((coreSince.get? symbol).getD activeEffectiveAt)
          effectiveAt policy.coreDwell) := by
  induction promotable generalizing changes core with
  | nil => exact Rebuilt.refl distinct fun _ _ => trivial
  | cons challenger rest induction =>
      have unchanged : Rebuilt core core (fun _ => True) (challenger :: rest)
          fun symbol =>
            DwellComplete ((coreSince.get? symbol).getD activeEffectiveAt)
              effectiveAt policy.coreDwell :=
        Rebuilt.refl distinct fun _ _ => trivial
      simp only [promoteWeekly]
      split
      next =>
        split
        next => exact unchanged
        next incumbent weakest =>
          split
          next => exact unchanged
          next =>
            have removable := List.mem_filter.mp (List.argmax_mem weakest)
            rcases List.nodup_cons.mp promotableDistinct with
              ⟨fresh, restDistinct⟩
            have members (other : String) :=
              mem_replaceMember_iff distinct removable.1 challenger other
            have later := induction (changes + 1)
              (nodup_replaceMember distinct (apart _ List.mem_cons_self))
              restDistinct (by
                intro other inRest inMiddle
                rcases (members other).mp inMiddle with isNew | ⟨old, _⟩
                · exact fresh (isNew ▸ inRest)
                · exact apart other (List.mem_cons_of_mem _ inRest) old)
            constructor
            · rw [later.length, length_replaceMember]
            · exact later.distinct
            · intro other member
              rcases later.origin other member with ⟨inMiddle, _⟩ | pooled
              · rcases (members other).mp inMiddle with isNew | ⟨old, _⟩
                · exact Or.inr (isNew ▸ List.mem_cons_self)
                · exact Or.inl ⟨old, trivial⟩
              · exact Or.inr (List.mem_cons_of_mem _ pooled)
            · intro other member
              by_cases same : other = incumbent
              · apply Or.inr
                rw [same]
                exact (of_decide_eq_true removable.2).2
              · exact later.left other
                  ((members other).mpr (Or.inr ⟨member, same⟩))
      next => exact unchanged

end Weekly

/-! ## The candidate roles -/

/-- What a role may become: preferred members in, complete dwells out. -/
structure Reconciled (old new preferred : List String)
    (leaves : String → Prop) : Prop where
  distinct : new.Nodup
  origin : ∀ symbol ∈ new, symbol ∈ old ∨ symbol ∈ preferred
  left : ∀ symbol ∈ old, symbol ∈ new ∨ leaves symbol

section Reconcile

variable {old role preferred : List String} {leaves : String → Prop}

theorem Reconciled.refl (distinct : old.Nodup) :
    Reconciled old old preferred leaves where
  distinct := distinct
  origin _ member := Or.inl member
  left _ member := Or.inl member

theorem Reconciled.append
    {symbol : String} (reconciled : Reconciled old role preferred leaves)
    (fresh : symbol ∉ role) (wanted : symbol ∈ preferred) :
    Reconciled old (role ++ [symbol]) preferred leaves where
  distinct := by
    rw [List.nodup_append]
    refine ⟨reconciled.distinct, List.nodup_singleton _, ?_⟩
    intro other inRole new isNew same
    rw [List.mem_singleton.mp isNew] at same
    exact fresh (same ▸ inRole)
  origin other member := by
    rcases List.mem_append.mp member with inRole | isNew
    · exact reconciled.origin other inRole
    · exact Or.inr (List.mem_singleton.mp isNew ▸ wanted)
  left other member :=
    (reconciled.left other member).imp_left (List.mem_append_left _)

theorem Reconciled.erase
    {symbol : String} (reconciled : Reconciled old role preferred leaves)
    (leaving : leaves symbol) :
    Reconciled old (role.erase symbol) preferred leaves where
  distinct := reconciled.distinct.erase symbol
  origin other member := reconciled.origin other (List.mem_of_mem_erase member)
  left other member := by
    rcases reconciled.left other member with inRole | left
    · by_cases same : other = symbol
      · exact Or.inr (same ▸ leaving)
      · exact Or.inl ((List.mem_erase_of_ne same).mpr inRole)
    · exact Or.inr left

/-- Every step of a loop over preferred symbols keeps a role reconciled. -/
theorem Reconciled.fillRole
    {todo : List String} (reconciled : Reconciled old role preferred leaves)
    (wanted : ∀ symbol ∈ todo, symbol ∈ preferred) :
    Reconciled old (fillRole todo role) preferred leaves := by
  unfold Central.fillRole
  induction todo generalizing role with
  | nil => exact reconciled
  | cons symbol rest induction =>
      rw [List.foldl_cons]
      apply induction
      · unfold fillStep
        split
        next => exact reconciled
        next =>
          split
          next fresh =>
            exact reconciled.append fresh (wanted symbol List.mem_cons_self)
          next => exact reconciled
      · exact fun other inRest => wanted other (List.mem_cons_of_mem _ inRest)

variable {memberSince : Dict String Int} {effectiveAt minimumDwell : Int}

theorem Reconciled.replacements
    {limit : Nat} {pool todo : List String} {state : List String × Nat}
    (reconciled : Reconciled old state.1 preferred leaves)
    (wanted : ∀ symbol ∈ todo, symbol ∈ preferred)
    (dwelled : ∀ symbol,
      DwellComplete ((memberSince.get? symbol).getD effectiveAt)
        effectiveAt minimumDwell → leaves symbol) :
    Reconciled old
      (todo.foldl
        (replacementStep memberSince effectiveAt minimumDwell limit pool)
        state).1 preferred leaves := by
  induction todo generalizing state with
  | nil => exact reconciled
  | cons symbol rest induction =>
      rw [List.foldl_cons]
      apply induction
      · unfold replacementStep
        split
        next => exact reconciled
        next free =>
          split
          next => exact reconciled
          next incumbent last =>
            have removable :=
              List.mem_filter.mp (List.mem_of_getLast? last)
            apply Reconciled.append
            · exact reconciled.erase
                (dwelled incumbent (of_decide_eq_true removable.2).2)
            · intro inErased
              exact free (Or.inl (List.mem_of_mem_erase inErased))
            · exact wanted symbol List.mem_cons_self
      · exact fun other inRest => wanted other (List.mem_cons_of_mem _ inRest)

/-- Fill the vacancies of a role, then replace members of it. -/
theorem Reconciled.rebuild
    (memberSince : Dict String Int) (effectiveAt minimumDwell : Int)
    (limit : Nat) (preferred : List String) (distinct : old.Nodup) :
    Reconciled old
      (replaceMembers memberSince effectiveAt minimumDwell limit preferred
        (Central.fillRole preferred old)) preferred fun symbol =>
      DwellComplete ((memberSince.get? symbol).getD effectiveAt)
        effectiveAt minimumDwell := by
  apply Reconciled.replacements
  · exact (Reconciled.refl distinct).fillRole fun _ member => member
  · exact fun _ member => member
  · exact fun _ complete => complete

/-- What a reconciled role is, next to the role it replaces. -/
structure RoleRebuilt (current new preferred forbidden inactive : List String)
    (dwelled : String → Prop) : Prop where
  length : new.length = 5
  distinct : new.Nodup
  sorted : new.Pairwise (· ≤ ·)
  allowed : ∀ symbol ∈ new, symbol ∉ forbidden
  origin : ∀ symbol ∈ new,
    (symbol ∈ current ∧ symbol ∉ inactive) ∨ symbol ∈ preferred
  left : ∀ symbol ∈ current,
    symbol ∈ new ∨ symbol ∈ forbidden ∨ symbol ∈ inactive ∨ dwelled symbol

theorem reconcileBucket_spec
    {current preferred forbidden inactive new : List String} {limit : Nat}
    (distinct : current.Nodup)
    (reconciled : reconcileBucket current preferred forbidden inactive
      memberSince effectiveAt minimumDwell limit = .ok new) :
    RoleRebuilt current new preferred forbidden inactive fun symbol =>
      DwellComplete ((memberSince.get? symbol).getD effectiveAt)
        effectiveAt minimumDwell := by
  have wanted (symbol : String) :
      symbol ∈ (preferred.filter fun symbol =>
        symbol ∉ forbidden).eraseDups ↔
        symbol ∈ preferred ∧ symbol ∉ forbidden := by
    simp
  have kept (symbol : String) :
      symbol ∈ (current.filter fun symbol =>
        symbol ∉ forbidden ∧ symbol ∉ inactive) ↔
        symbol ∈ current ∧ symbol ∉ forbidden ∧ symbol ∉ inactive := by
    simp
  have role := Reconciled.rebuild memberSince effectiveAt minimumDwell limit
    (preferred.filter fun symbol => symbol ∉ forbidden).eraseDups
    (distinct.filter fun symbol => symbol ∉ forbidden ∧ symbol ∉ inactive)
  simp only [reconcileBucket] at reconciled
  split at reconciled
  next => cases reconciled
  next full =>
    split at reconciled
    next => cases reconciled
    next =>
      rw [← Except.ok.inj reconciled]
      constructor
      · rw [length_sortSymbols]
        exact not_not.mp full
      · exact (sortSymbols_perm _).nodup_iff.mpr role.distinct
      · exact sortSymbols_sorted _
      · intro symbol member
        rcases role.origin symbol (mem_sortSymbols.mp member) with old | new
        · exact ((kept symbol).mp old).2.1
        · exact ((wanted symbol).mp new).2
      · intro symbol member
        rcases role.origin symbol (mem_sortSymbols.mp member) with old | new
        · exact Or.inl ⟨((kept symbol).mp old).1, ((kept symbol).mp old).2.2⟩
        · exact Or.inr ((wanted symbol).mp new).1
      · intro symbol member
        by_cases isForbidden : symbol ∈ forbidden
        · exact Or.inr (Or.inl isForbidden)
        · by_cases isInactive : symbol ∈ inactive
          · exact Or.inr (Or.inr (Or.inl isInactive))
          · have old := (kept symbol).mpr ⟨member, isForbidden, isInactive⟩
            rcases role.left symbol old with inRole | complete
            · exact Or.inl (mem_sortSymbols.mpr inRole)
            · exact Or.inr (Or.inr (Or.inr complete))

end Reconcile

/-! ## The selection -/

section Selection

variable {δ : Type} {active : UniverseDecision} {policy : RollingPolicy δ}
variable {snapshot : DiscoverySnapshot} {stable inactive : List String}
variable {memberSince coreSince : Dict String Int} {effectiveAt : Int}

theorem selectCore_spec
    {core : List String} (distinct : stable.Nodup)
    (selected : selectCore active policy stable inactive coreSince
      effectiveAt = .ok core) :
    Rebuilt active.core core (fun symbol => symbol ∉ inactive) stable
      fun symbol => symbol ∈ inactive ∨
        DwellComplete ((coreSince.get? symbol).getD active.effectiveAt)
          effectiveAt policy.coreDwell := by
  rw [selectCore, bind_eq_ok_iff] at selected
  rcases selected with ⟨middle, replaced, promoted⟩
  have first := replaceInactive_spec active.valid.core.distinct replaced
  have fromStable (symbol : String)
      (member : symbol ∈ stable.filter fun symbol => symbol ∉ active.core) :
      symbol ∈ stable :=
    List.mem_of_mem_filter member
  have second : Rebuilt middle core (fun _ => True)
      ((stable.filter fun symbol => symbol ∉ active.core).filter
        fun symbol => symbol ∉ middle ∧
          rankIn stable symbol ≤ policy.coreEntryRank)
      fun symbol =>
        DwellComplete ((coreSince.get? symbol).getD active.effectiveAt)
          effectiveAt policy.coreDwell := by
    split at promoted
    next =>
      rw [← Except.ok.inj promoted]
      apply promoteWeekly_spec _ first.distinct ((distinct.filter _).filter _)
      intro symbol member
      exact (of_decide_eq_true (List.mem_filter.mp member).2).1
    next =>
      rw [← Except.ok.inj promoted]
      exact Rebuilt.refl first.distinct fun _ _ => trivial
  have whole := first.trans second fun symbol member =>
    List.mem_of_mem_filter member
  constructor
  · exact whole.length
  · exact whole.distinct
  · intro symbol member
    exact (whole.origin symbol member).imp_right (fromStable symbol)
  · exact whole.left

theorem selectBoundary_spec
    {core probe boundary : List String}
    (selected : selectBoundary active policy stable inactive core probe
      memberSince effectiveAt = .ok boundary) :
    RoleRebuilt active.boundary boundary
      (protectedBoundary active policy
          (stable.filter fun symbol => symbol ∉ core ∧ symbol ∉ probe)
          inactive core probe ++
        stable.filter fun symbol => symbol ∉ core ∧ symbol ∉ probe)
      (core ++ probe) inactive fun symbol =>
        DwellComplete ((memberSince.get? symbol).getD effectiveAt)
          effectiveAt policy.candidateDwell := by
  simp only [selectBoundary] at selected
  split at selected
  next => cases selected
  next =>
    exact reconcileBucket_spec active.valid.boundary.distinct selected

theorem mem_protectedBoundary
    {boundaryRanked core probe : List String} {symbol : String}
    (member : symbol ∈ protectedBoundary active policy boundaryRanked
      inactive core probe) :
    symbol ∈ active.boundary ∧ symbol ∉ inactive := by
  have inBoundary := (List.perm_insertionSort _ _).mem_iff.mp member
  rcases List.mem_filter.mp inBoundary with ⟨isMember, passes⟩
  exact ⟨isMember, (of_decide_eq_true passes).1⟩

/-- The same role in order, next to sets with the same members. -/
theorem RoleRebuilt.sort
    {current new preferred pool forbidden others inactive : List String}
    {dwelled : String → Prop}
    (rebuilt : RoleRebuilt current new preferred forbidden inactive dwelled)
    (same : ∀ symbol, symbol ∈ others ↔ symbol ∈ forbidden)
    (fromPool : ∀ symbol ∈ preferred,
      (symbol ∈ current ∧ symbol ∉ inactive) ∨ symbol ∈ pool) :
    RoleRebuilt current (sortSymbols new) pool others inactive dwelled where
  length := by rw [length_sortSymbols, rebuilt.length]
  distinct := (sortSymbols_perm new).nodup_iff.mpr rebuilt.distinct
  sorted := sortSymbols_sorted new
  allowed symbol member := by
    rw [same]
    exact rebuilt.allowed symbol (mem_sortSymbols.mp member)
  origin symbol member := by
    rcases rebuilt.origin symbol (mem_sortSymbols.mp member) with old | wanted
    · exact Or.inl old
    · exact fromPool symbol wanted
  left symbol member := by
    rw [mem_sortSymbols, same]
    exact rebuilt.left symbol member

theorem Rebuilt.sort
    {old new pool : List String} {stays leaves : String → Prop}
    (rebuilt : Rebuilt old new stays pool leaves) :
    Rebuilt old (sortSymbols new) stays pool leaves where
  length := by rw [length_sortSymbols, rebuilt.length]
  distinct := (sortSymbols_perm new).nodup_iff.mpr rebuilt.distinct
  origin symbol member := rebuilt.origin symbol (mem_sortSymbols.mp member)
  left symbol member := by
    rw [mem_sortSymbols]
    exact rebuilt.left symbol member

section Pool

variable {keep : MarketRow δ → Bool}
variable {below : MarketRow δ → MarketRow δ → Prop} [DecidableRel below]
variable {rows : List (MarketRow δ)}

/-- A pool has the symbols of some of the rows, each once. -/
theorem symbolsOf_pool_distinct (distinct : (symbolsOf rows).Nodup) :
    (symbolsOf ((rows.filter keep).insertionSort below)).Nodup := by
  have sorted := (List.perm_insertionSort below (rows.filter keep)).map
    MarketRow.symbol
  exact sorted.nodup_iff.mpr
    (distinct.sublist (List.filter_sublist.map MarketRow.symbol))

theorem mem_symbolsOf_pool
    {symbol : String}
    (member : symbol ∈ symbolsOf ((rows.filter keep).insertionSort below)) :
    ∃ row ∈ rows, row.symbol = symbol := by
  rcases List.mem_map.mp member with ⟨row, inPool, named⟩
  have kept := (List.perm_insertionSort _ _).mem_iff.mp inPool
  exact ⟨row, List.mem_of_mem_filter kept, named⟩

end Pool

/-- Old members which stay and members of a pool are eligible. -/
theorem eligible_of_origin
    {rows : List (MarketRow δ)} {current pool : List String}
    {symbol : String}
    (shown : MarketShown snapshot active.members rows inactive)
    (members : ∀ symbol ∈ current, symbol ∈ active.members)
    (pooled : ∀ symbol ∈ pool, ∃ row ∈ rows, row.symbol = symbol)
    (origin : (symbol ∈ current ∧ symbol ∉ inactive) ∨ symbol ∈ pool) :
    DoublyEligible snapshot symbol := by
  rcases origin with ⟨old, isActive⟩ | inPool
  · by_contra failed
    exact isActive
      ((shown.inactive_iff symbol).mpr ⟨members symbol old, failed⟩)
  · rcases pooled symbol inPool with ⟨row, isRow, rfl⟩
    exact shown.eligible row isRow

end Selection

section Rolling

variable {δ : Type} [DecimalArithmetic δ]
variable (active : UniverseDecision) (policy : RollingPolicy δ)
variable (rows : List (MarketRow δ)) (inactive : List String)
variable (memberSince coreSince : Dict String Int) (effectiveAt : Int)

/-- The proposed roles are the active ones. -/
def KeepsRoles (result : SelectionResult) : Prop :=
  result.core = active.core ∧ result.boundary = active.boundary ∧
    result.probe = active.probe

/-- The symbols of the probe pool which the core leaves over. -/
def probePreferred (pool core : List String) : List String :=
  pool.filter fun symbol => symbol ∉ core

/-- The core and the probe role are selected, and a boundary is wanted. -/
structure WantsBoundary (core probe : List String) : Prop where
  probePooled : 5 ≤ (symbolsOf (probePool rows policy)).length
  selectsCore : selectCore active policy (symbolsOf (stablePool rows policy))
    inactive coreSince effectiveAt = .ok core
  probeLeft :
    5 ≤ (probePreferred (symbolsOf (probePool rows policy)) core).length
  reconciles : reconcileBucket active.probe
    (probePreferred (symbolsOf (probePool rows policy)) core) core
    inactive memberSince effectiveAt policy.candidateDwell 1 = .ok probe
  stablePooled : 55 ≤ (symbolsOf (stablePool rows policy)).countP
    fun symbol => symbol ∉ probe

/-- No stage of the selection fails, and none keeps the active roles. -/
structure SelectionStages (core probe boundary : List String) : Prop
    extends WantsBoundary active policy rows inactive memberSince coreSince
      effectiveAt core probe where
  selectsBoundary : selectBoundary active policy
    (symbolsOf (stablePool rows policy)) inactive core probe memberSince
    effectiveAt = .ok boundary

/-- The proposed roles were rebuilt from the active ones, one by one. -/
structure Rebalanced (result : SelectionResult) : Prop where
  core : Rebuilt active.core result.core (fun symbol => symbol ∉ inactive)
    (symbolsOf (stablePool rows policy)) fun symbol =>
      symbol ∈ inactive ∨
        DwellComplete ((coreSince.get? symbol).getD active.effectiveAt)
          effectiveAt policy.coreDwell
  coreSorted : result.core.Pairwise (· ≤ ·)
  probe : RoleRebuilt active.probe result.probe
    (symbolsOf (probePool rows policy)) result.core inactive fun symbol =>
      DwellComplete ((memberSince.get? symbol).getD effectiveAt)
        effectiveAt policy.candidateDwell
  boundary : RoleRebuilt active.boundary result.boundary
    (symbolsOf (stablePool rows policy)) (result.core ++ result.probe)
    inactive fun symbol =>
      DwellComplete ((memberSince.get? symbol).getD effectiveAt)
        effectiveAt policy.candidateDwell

end Rolling

section Rolling

variable {δ : Type} [DecimalArithmetic δ]
variable {active : UniverseDecision} {policy : RollingPolicy δ}
variable {snapshot : DiscoverySnapshot}
variable {memberSince coreSince : Dict String Int} {effectiveAt : Int}

/-- A selection keeps the roles or passes all its stages. -/
theorem selectRollingUniverse_stages
    {result : SelectionResult}
    (selected : selectRollingUniverse active snapshot effectiveAt memberSince
      coreSince policy = .ok result) :
    ∃ (rows : List (MarketRow δ)) (inactive : List String),
      marketRows snapshot active.members policy.liquidityWindowDays =
        .ok (rows, inactive) ∧
      result.inactive = sortSymbols inactive ∧
      (KeepsRoles active result ∨
        ∃ core probe boundary, SelectionStages active policy rows inactive
          memberSince coreSince effectiveAt core probe boundary ∧
          result.core = sortSymbols core ∧
          result.boundary = sortSymbols boundary ∧
          result.probe = sortSymbols probe) := by
  rw [selectRollingUniverse, bind_eq_ok_iff] at selected
  rcases selected with ⟨⟨rows, inactive⟩, shown, selected⟩
  refine ⟨rows, inactive, shown, ?_⟩
  dsimp only at selected
  split at selected
  next =>
    cases selected
    exact ⟨rfl, Or.inl ⟨rfl, rfl, rfl⟩⟩
  next pooled =>
    rcases bind_eq_ok_iff.mp selected with ⟨core, coreSelected, continued⟩
    split at continued
    next =>
      cases continued
      exact ⟨rfl, Or.inl ⟨rfl, rfl, rfl⟩⟩
    next preferred =>
      rcases bind_eq_ok_iff.mp continued with ⟨probe, probeSelected, rest⟩
      split at rest
      next =>
        cases rest
        exact ⟨rfl, Or.inl ⟨rfl, rfl, rfl⟩⟩
      next stable =>
        rcases bind_eq_ok_iff.mp rest with ⟨boundary, boundarySelected, built⟩
        cases built
        exact ⟨rfl, Or.inr ⟨core, probe, boundary,
          ⟨⟨Nat.le_of_not_lt pooled, coreSelected,
            Nat.le_of_not_lt preferred, probeSelected,
            Nat.le_of_not_lt stable⟩, boundarySelected⟩, rfl, rfl, rfl⟩⟩

theorem selectRollingUniverse_spec
    {result : SelectionResult}
    (selected : selectRollingUniverse active snapshot effectiveAt memberSince
      coreSince policy = .ok result) :
    ∃ (rows : List (MarketRow δ)) (inactive : List String),
      marketRows snapshot active.members policy.liquidityWindowDays =
        .ok (rows, inactive) ∧
      result.inactive = sortSymbols inactive ∧
      (KeepsRoles active result ∨
        Rebalanced active policy rows inactive memberSince coreSince
          effectiveAt result) := by
  rcases selectRollingUniverse_stages selected with
    ⟨rows, inactive, shown, listed, keeps | ⟨core, probe, boundary, stages,
      coreIs, boundaryIs, probeIs⟩⟩
  · exact ⟨rows, inactive, shown, listed, Or.inl keeps⟩
  · refine ⟨rows, inactive, shown, listed, Or.inr ?_⟩
    have stableDistinct : (symbolsOf (stablePool rows policy)).Nodup :=
      symbolsOf_pool_distinct (marketRows_shown shown).distinct
    have coreRebuilt := selectCore_spec stableDistinct stages.selectsCore
    have probeRebuilt :=
      reconcileBucket_spec active.valid.probe.distinct stages.reconciles
    have boundaryRebuilt := selectBoundary_spec stages.selectsBoundary
    constructor
    · rw [coreIs]
      exact coreRebuilt.sort
    · rw [coreIs]
      exact sortSymbols_sorted core
    · rw [coreIs, probeIs]
      apply probeRebuilt.sort
      · exact fun _ => mem_sortSymbols
      · exact fun _ member => Or.inr (List.mem_of_mem_filter member)
    · rw [coreIs, boundaryIs, probeIs]
      apply boundaryRebuilt.sort
      · intro symbol
        simp only [List.mem_append, mem_sortSymbols]
      · intro symbol member
        rcases List.mem_append.mp member with kept | ranked
        · exact Or.inl (mem_protectedBoundary kept)
        · exact Or.inr (List.mem_of_mem_filter ranked)

/-- Sixty distinct eligible symbols, the new ones from the right pools. -/
structure WellFormedSelection (active : UniverseDecision)
    (snapshot : DiscoverySnapshot) (rows : List (MarketRow δ))
    (policy : RollingPolicy δ) (result : SelectionResult) : Prop where
  coreLength : result.core.length = 50
  boundaryLength : result.boundary.length = 5
  probeLength : result.probe.length = 5
  coreSorted : result.core.Pairwise (· ≤ ·)
  boundarySorted : result.boundary.Pairwise (· ≤ ·)
  probeSorted : result.probe.Pairwise (· ≤ ·)
  distinct : (result.core ++ result.boundary ++ result.probe).Nodup
  eligible : ∀ symbol ∈ result.core ++ result.boundary ++ result.probe,
    DoublyEligible snapshot symbol
  newCore : ∀ symbol ∈ result.core,
    symbol ∉ active.core → symbol ∈ symbolsOf (stablePool rows policy)
  newBoundary : ∀ symbol ∈ result.boundary,
    symbol ∉ active.boundary → symbol ∈ symbolsOf (stablePool rows policy)
  newProbe : ∀ symbol ∈ result.probe,
    symbol ∉ active.probe → symbol ∈ symbolsOf (probePool rows policy)

theorem Rebalanced.wellFormed
    {rows : List (MarketRow δ)} {inactive : List String}
    {result : SelectionResult}
    (shown : MarketShown snapshot active.members rows inactive)
    (rebalanced : Rebalanced active policy rows inactive memberSince
      coreSince effectiveAt result) :
    WellFormedSelection active snapshot rows policy result := by
  have stablePooled (symbol : String)
      (inPool : symbol ∈ symbolsOf (stablePool rows policy)) :
      ∃ row ∈ rows, row.symbol = symbol :=
    mem_symbolsOf_pool inPool
  have probePooled (symbol : String)
      (inPool : symbol ∈ symbolsOf (probePool rows policy)) :
      ∃ row ∈ rows, row.symbol = symbol :=
    mem_symbolsOf_pool inPool
  constructor
  · exact rebalanced.core.length.trans active.valid.core.length
  · exact rebalanced.boundary.length
  · exact rebalanced.probe.length
  · exact rebalanced.coreSorted
  · exact rebalanced.boundary.sorted
  · exact rebalanced.probe.sorted
  · rw [List.append_assoc, List.nodup_append, List.nodup_append]
    refine ⟨rebalanced.core.distinct,
      ⟨rebalanced.boundary.distinct, rebalanced.probe.distinct, ?_⟩, ?_⟩
    · rintro symbol inBoundary other inProbe rfl
      exact rebalanced.boundary.allowed symbol inBoundary
        (List.mem_append_right _ inProbe)
    · rintro symbol inCore other inCandidates rfl
      rcases List.mem_append.mp inCandidates with inBoundary | inProbe
      · exact rebalanced.boundary.allowed symbol inBoundary
          (List.mem_append_left _ inCore)
      · exact rebalanced.probe.allowed symbol inProbe inCore
  · intro symbol member
    rcases List.mem_append.mp member with member | inProbe
    · rcases List.mem_append.mp member with inCore | inBoundary
      · exact eligible_of_origin shown
          (fun _ inRole => DecisionDraft.mem_members.mpr (Or.inl inRole))
          stablePooled (rebalanced.core.origin symbol inCore)
      · exact eligible_of_origin shown
          (fun _ inRole =>
            DecisionDraft.mem_members.mpr (Or.inr (Or.inl inRole)))
          stablePooled (rebalanced.boundary.origin symbol inBoundary)
    · exact eligible_of_origin shown
        (fun _ inRole =>
          DecisionDraft.mem_members.mpr (Or.inr (Or.inr inRole)))
        probePooled (rebalanced.probe.origin symbol inProbe)
  · intro symbol member isNew
    exact (rebalanced.core.origin symbol member).resolve_left
      fun old => isNew old.1
  · intro symbol member isNew
    exact (rebalanced.boundary.origin symbol member).resolve_left
      fun old => isNew old.1
  · intro symbol member isNew
    exact (rebalanced.probe.origin symbol member).resolve_left
      fun old => isNew old.1

/--
A rolling selection which returns proposes the active roles or a well-formed
universe, whatever the evidence, the history and the policy.
-/
theorem selection_well_formed
    {active : UniverseDecision} {snapshot : DiscoverySnapshot}
    {effectiveAt : Int} {memberSince coreSince : Dict String Int}
    {policy : RollingPolicy δ} {result : SelectionResult}
    (selected : selectRollingUniverse active snapshot effectiveAt memberSince
      coreSince policy = .ok result) :
    KeepsRoles active result ∨
      ∃ (rows : List (MarketRow δ)) (inactive : List String),
        marketRows snapshot active.members policy.liquidityWindowDays =
          .ok (rows, inactive) ∧
        WellFormedSelection active snapshot rows policy result := by
  rcases selectRollingUniverse_spec selected with
    ⟨rows, inactive, shown, _, keeps | rebalanced⟩
  · exact Or.inl keeps
  · exact Or.inr ⟨rows, inactive, shown,
      rebalanced.wellFormed (marketRows_shown shown)⟩

end Rolling

/-! ## A probe member which is replaced

Sixty symbols are active and a younger sixty-first one is in the evidence of
day 20000, with fourteen days of history and a book without spread.
-/

/-- The value of a text of digits. -/
def readDigits (text : String) : Option Nat :=
  if text = "" then none
  else
    text.toList.foldl (fun value? letter =>
      value?.bind fun value =>
        if '0' ≤ letter ∧ letter ≤ '9' then
          some (value * 10 + (letter.toNat - '0'.toNat))
        else none) (some 0)

/-- Exact rational numbers, for figures without rounding or sign. -/
instance rationalArithmetic : DecimalArithmetic ℚ where
  ofScaled digits scale := digits / 10 ^ scale
  infinity := 10 ^ 30
  neg := Neg.neg
  add left right := left + right
  sub left right := left - right
  mul left right := left * right
  div left right := left / right
  pow base exponent := base ^ exponent
  -- Only the root of a vanishing variance is taken below.
  sqrt value := value
  isFinite _ := true
  readDecimal text := (readDigits text).map fun value => (value : ℚ)
  readInteger text := (readDigits text).map fun value => (value : Int)

/-- Consecutive symbols of the example: `S10`, `S11` and so on. -/
def sampleSymbols (first count : Nat) : List String :=
  (List.range count).map fun index => "S" ++ toString (first + index)

def sampleActive : UniverseDecision where
  coreGeneration := 1
  candidateRevision := 0
  decisionSequence := 1
  createdAt := 0
  effectiveAt := 0
  reason := .formalBootstrap
  core := sampleSymbols 10 50
  boundary := sampleSymbols 60 5
  probe := sampleSymbols 65 5
  valid := by decide +kernel

def sampleInfo (onboardDay : Int) (symbol : String) : Json :=
  .object [("symbol", .text symbol), ("status", .text "TRADING"),
    ("contractType", .text "PERPETUAL"), ("quoteAsset", .text "USDT"),
    ("marginAsset", .text "USDT"),
    ("onboardDate", .integer (onboardDay * dayMs))]

def sampleExchangeInfo : Evidence where
  payload := .object [("symbols", .array
    ((sampleSymbols 10 60).map (sampleInfo 19000) ++
      [sampleInfo 19900 "S70"]))]
  sha256 := "exchange-info"

def sampleBar (day : Nat) : Json :=
  .array [.integer (day * dayMs), .null, .null, .null, .null, .null,
    .integer (day * dayMs + 1), .integer 20000000, .integer 200000]

def sampleKlines : Evidence where
  payload := .object [("window_end_exclusive_ms", .integer (20000 * dayMs)),
    ("symbols", .object ((sampleSymbols 10 61).map fun symbol =>
      (symbol, .object [("payload", .array
        ((List.range 14).map fun index => sampleBar (19986 + index)))])))]
  sha256 := "daily-klines"

def sampleBook : Json :=
  .object [("payload", .object [
    ("bids", .array [.array [.integer 100, .integer 1000]]),
    ("asks", .array [.array [.integer 100, .integer 1000]])])]

def sampleTickers : Json :=
  .object [("payload", .array ((sampleSymbols 10 61).map fun symbol =>
    .object [("symbol", .text symbol), ("bidPrice", .integer 100),
      ("askPrice", .integer 100)]))]

def sampleDepth : Evidence where
  payload := .object [
    ("symbols", .object ((sampleSymbols 10 61).map fun symbol =>
      (symbol, .array (List.replicate 3 sampleBook)))),
    ("book_tickers", .array (List.replicate 5 sampleTickers))]
  sha256 := "liquidity-depth"

def sampleSnapshot : DiscoverySnapshot where
  observedAt := 19999 * usPerDay
  exchangeInfo := sampleExchangeInfo
  exchangeInfoConfirmation := sampleExchangeInfo
  marketTickers := ⟨.null, "market-tickers"⟩
  dailyKlines := sampleKlines
  liquidityDepth := sampleDepth

/-- The policy with the defaults of the source. -/
def defaultPolicy : RollingPolicy ℚ where
  liquidityWindowDays := 14
  probeMinimumCompleteDays := 7
  minimumMedianDailyQuoteVolume := 10000000
  minimumQ25DailyQuoteVolume := 5000000
  minimumDailyQuoteVolume := 3000000
  maximumQuoteVolumeCv := 12 / 10
  minimumMedianDailyTrades := 100000
  minimumQ25DailyTrades := 50000
  minimumDailyTrades := 25000
  liquidityDepthSamples := 3
  liquidityBookTickerSamples := 5
  maximumSpreadBps := 10
  minimumThinDepth10bps := 800
  minimumThinDepth50bps := 10000
  candidateMinimumDwellHours := 48
  coreMinimumDwellDays := 14
  candidateDailyReplacements := 2
  coreWeeklyReplacements := 5
  coreMinimumAgeDays := 30
  coreEntryRank := 45
  coreRetainRank := 55
  boundaryRetainRank := 10

/-- All members joined at the epoch. -/
def sampleSince (symbols : List String) : Dict String Int :=
  symbols.foldl (fun since symbol => since.set symbol 0) Dict.empty

def sampleSelection : Except String SelectionResult :=
  selectRollingUniverse sampleActive sampleSnapshot (20000 * usPerDay)
    (sampleSince sampleActive.members) (sampleSince sampleActive.core)
    defaultPolicy

/-- The youngest symbol replaces the last probe member. -/
def sampleResult : SelectionResult where
  core := sampleSymbols 10 50
  boundary := sampleSymbols 60 5
  probe := sampleSymbols 65 4 ++ ["S70"]
  inactive := []
  sourceHashes := sampleSnapshot.sourceHashes
  stablePoolCount := 56
  probePoolCount := 11

theorem sampleSelection_eq : sampleSelection.toOption = some sampleResult := by
  decide +kernel

theorem selection_well_formed_replaced :
    KeepsRoles sampleActive sampleResult ∨
      ∃ (rows : List (MarketRow ℚ)) (inactive : List String),
        marketRows sampleSnapshot sampleActive.members
          defaultPolicy.liquidityWindowDays = .ok (rows, inactive) ∧
        WellFormedSelection sampleActive sampleSnapshot rows defaultPolicy
          sampleResult :=
  selection_well_formed (eq_ok_of_toOption sampleSelection_eq)

end ShadowDataPlane.Central
