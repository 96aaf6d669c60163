import ShadowDataPlane.Central.RoleReconciliation

/-!
# Which incumbent a replacement drops

The weekly core rotation replaces the incumbent of the worst rank.  A candidate
role is reconciled otherwise: a replacement drops the removable member which
comes last in the role, whatever its rank.  Roles are sorted by symbol, so the
weakest member is dropped only if the order of the symbols agrees with it.

The removable members are dropped from the last one on, because newcomers are
never removable, and each replacement is made by one of the first five
preferred symbols.  So it is known before the loop which members it drops.
-/

namespace ShadowDataPlane.Central

open ShadowDataPlane.Contracts
open ShadowDataPlane.Foundation

section Definitions

variable (memberSince : Dict String Int) (effectiveAt minimumDwell : Int)
variable (limit : Nat) (current preferred forbidden inactive : List String)

/-- The state of the loop after some of the preferred symbols. -/
def bucketAfter (before : List String) : List String × Nat :=
  before.foldl
    (replacementStep memberSince effectiveAt minimumDwell limit
      (allowedPreferences preferred forbidden))
    (filledBucket current preferred forbidden inactive, 0)

/--
Whenever the loop makes a replacement, no other member which was removable
then has a worse rank; members which are not preferred rank last.
-/
def DropsWeakest : Prop :=
  ∀ before symbol after,
    allowedPreferences preferred forbidden = before ++ symbol :: after →
    ∀ incumbent,
      Replaces memberSince effectiveAt minimumDwell limit
        (allowedPreferences preferred forbidden)
        (bucketAfter memberSince effectiveAt minimumDwell limit current
          preferred forbidden inactive before) symbol incumbent →
      ∀ other ∈ removableMembers memberSince effectiveAt minimumDwell
          (allowedPreferences preferred forbidden)
          (bucketAfter memberSince effectiveAt minimumDwell limit current
            preferred forbidden inactive before).1,
        preferred.idxOf other ≤ preferred.idxOf incumbent

/-- The kept members which are removable, in the order of the bucket. -/
def removableKept : List String :=
  removableMembers memberSince effectiveAt minimumDwell
    (allowedPreferences preferred forbidden)
    (keptMembers current forbidden inactive)

/-- The first five preferred symbols which are not kept members. -/
def leadingOutsiders : List String :=
  ((allowedPreferences preferred forbidden).take 5).filter fun symbol =>
    symbol ∉ keptMembers current forbidden inactive

/-- How many of them are left when the vacancies are filled. -/
def newcomerCount : Nat :=
  (leadingOutsiders current preferred forbidden inactive).length -
    (5 - (keptMembers current forbidden inactive).length)

end Definitions

/-- The last `count` items rank no better than any item before them. -/
def EndsWeakest (rank : String → Nat) (items : List String) (count : Nat) :
    Prop :=
  ∀ before last after, items = before ++ last :: after →
    after.length < count → ∀ other ∈ before, rank other ≤ rank last

section Replacing

variable {memberSince : Dict String Int} {effectiveAt minimumDwell : Int}
variable {limit : Nat} {current preferred forbidden inactive : List String}

/-! ## The filled bucket -/

/-- The vacancies go to symbols among the first five. -/
theorem filled_leading
    (fits : (keptMembers current forbidden inactive).length ≤ 5)
    {symbol : String}
    (filled : symbol ∈ ((allowedPreferences preferred forbidden).filter
      fun symbol => symbol ∉ keptMembers current forbidden inactive).take
        (5 - (keptMembers current forbidden inactive).length)) :
    symbol ∈ (allowedPreferences preferred forbidden).take 5 := by
  have passed := countP_mem_le (allowedPreferences_distinct preferred forbidden)
    (keptMembers current forbidden inactive)
  have leading := take_filter_subset _ _ _ filled
  simp only [decide_not, Bool.not_not] at leading
  apply List.take_subset_take_left _ _ leading
  omega

theorem removableMembers_filledBucket
    (fits : (keptMembers current forbidden inactive).length ≤ 5) :
    removableMembers memberSince effectiveAt minimumDwell
        (allowedPreferences preferred forbidden)
        (filledBucket current preferred forbidden inactive) =
      removableKept memberSince effectiveAt minimumDwell current preferred
        forbidden inactive := by
  rw [filledBucket, fillRole_eq (allowedPreferences_distinct _ _),
    removableKept, removableMembers, removableMembers, List.filter_append]
  refine (congrArg _ ?_).trans (List.append_nil _)
  rw [List.filter_eq_nil_iff]
  intro symbol filled
  simp [filled_leading fits filled]

/-- The first five preferred symbols which find no place in the bucket. -/
theorem countP_outside_filledBucket
    (fits : (keptMembers current forbidden inactive).length ≤ 5) :
    (((allowedPreferences preferred forbidden).take 5).countP fun symbol =>
        symbol ∉ filledBucket current preferred forbidden inactive) =
      newcomerCount current preferred forbidden inactive := by
  have distinct := allowedPreferences_distinct preferred forbidden
  have leading (symbol : String) :=
    @filled_leading current preferred forbidden inactive fits symbol
  rw [newcomerCount, leadingOutsiders, List.countP_eq_length_filter,
    filledBucket, fillRole_eq distinct]
  generalize keptMembers current forbidden inactive = kept at *
  generalize allowedPreferences preferred forbidden = wanted at *
  generalize isFilled : (wanted.filter fun symbol => symbol ∉ kept).take
    (5 - kept.length) = filled at *
  generalize isOutside : ((wanted.take 5).filter fun symbol =>
    symbol ∉ kept) = outside
  have outsideDistinct : outside.Nodup :=
    isOutside ▸ (distinct.sublist (List.take_sublist _ _)).filter _
  have filledDistinct : filled.Nodup :=
    isFilled ▸ (distinct.filter _).sublist (List.take_sublist _ _)
  have unplaced : ((wanted.take 5).filter fun symbol =>
      symbol ∉ kept ++ filled) =
      outside.filter fun symbol => symbol ∉ filled := by
    rw [← isOutside, List.filter_filter]
    apply List.filter_congr
    intro symbol _
    simp [Bool.and_comm]
  have placed : (outside.filter fun symbol => symbol ∈ filled).length =
      filled.length := by
    apply Nat.le_antisymm
    · rw [← List.countP_eq_length_filter]
      exact countP_mem_le outsideDistinct filled
    · apply (filledDistinct.subperm _).length_le
      intro symbol member
      have unkept : symbol ∉ kept := by
        rw [← isFilled] at member
        simpa using (List.mem_filter.mp (List.mem_of_mem_take member)).2
      simp [← isOutside, leading symbol member, unkept, member]
  have split := List.length_eq_length_filter_add (l := outside)
    fun symbol => decide (symbol ∈ filled)
  have shorter : outside.length ≤
      (wanted.filter fun symbol => symbol ∉ kept).length := by
    rw [← isOutside]
    exact ((List.take_sublist 5 wanted).filter _).length_le
  have filledLength := congrArg List.length isFilled
  rw [List.length_take] at filledLength
  simp only [decide_not] at unplaced shorter filledLength ⊢
  rw [unplaced]
  omega

/-! ## Up to the fifth preferred symbol -/

/-- The loop after some of the first five preferred symbols. -/
structure Underway (memberSince : Dict String Int)
    (effectiveAt minimumDwell : Int) (limit : Nat)
    (role preferred before : List String) (state : List String × Nat) :
    Prop where
  removable :
    removableMembers memberSince effectiveAt minimumDwell preferred state.1 =
      (removableMembers memberSince effectiveAt minimumDwell preferred
        role).take ((removableMembers memberSince effectiveAt minimumDwell
          preferred role).length - state.2)
  made : state.2 = min limit (min
    (removableMembers memberSince effectiveAt minimumDwell preferred
      role).length
    (before.countP fun symbol => symbol ∉ role))
  origin : ∀ symbol ∈ state.1, symbol ∈ role ∨ symbol ∈ before

section Underway

variable {role wanted before : List String} {state : List String × Nat}

theorem Underway.refl :
    Underway memberSince effectiveAt minimumDwell limit role wanted []
      (role, 0) where
  removable := by rw [Nat.sub_zero, List.take_length]
  made := by simp
  origin _ member := Or.inl member

/-- A replacement takes the last removable member away. -/
theorem removableMembers_replaced
    {symbol incumbent : String} (leading : symbol ∈ wanted.take 5)
    (distinct : (removableMembers memberSince effectiveAt minimumDwell wanted
      state.1).Nodup)
    (last : (removableMembers memberSince effectiveAt minimumDwell wanted
      state.1).getLast? = some incumbent) :
    removableMembers memberSince effectiveAt minimumDwell wanted
        (state.1.erase incumbent ++ [symbol]) =
      (removableMembers memberSince effectiveAt minimumDwell wanted
        state.1).dropLast := by
  rcases List.getLast?_eq_some_iff.mp last with ⟨others, split⟩
  have fresh : incumbent ∉ others := by
    rw [split, List.nodup_append] at distinct
    exact fun member =>
      distinct.2.2 incumbent member incumbent List.mem_cons_self rfl
  have unremovable : removableMembers memberSince effectiveAt minimumDwell
      wanted [symbol] = [] := by
    simp [removableMembers, leading]
  calc
    _ = removableMembers memberSince effectiveAt minimumDwell wanted
          (state.1.erase incumbent) ++
        removableMembers memberSince effectiveAt minimumDwell wanted
          [symbol] := List.filter_append _ _
    _ = (removableMembers memberSince effectiveAt minimumDwell wanted
          state.1).erase incumbent := by
      rw [unremovable, List.append_nil, removableMembers, removableMembers,
        List.erase_filter]
    _ = _ := by
      rw [split, List.erase_append_right _ fresh]
      simp

theorem Underway.step
    {symbol : String}
    (underway : Underway memberSince effectiveAt minimumDwell limit role
      wanted before state)
    (turned : Turned role limit wanted state) (distinct : role.Nodup)
    (fresh : symbol ∉ before) (leading : symbol ∈ wanted.take 5) :
    Underway memberSince effectiveAt minimumDwell limit role wanted
      (before ++ [symbol])
      (replacementStep memberSince effectiveAt minimumDwell limit wanted
        state symbol) := by
  have made := underway.made
  have counted : ((before ++ [symbol]).countP fun other => other ∉ role) =
      (before.countP fun other => other ∉ role) +
        if symbol ∈ role then 0 else 1 := by
    rw [List.countP_append, List.countP_singleton]
    simp
  have origin (other : String) (member : other ∈ state.1) :
      other ∈ role ∨ other ∈ before ++ [symbol] :=
    (underway.origin other member).imp_right (List.mem_append_left _)
  have bound := congrArg List.length underway.removable
  rw [List.length_take] at bound
  rcases @replacementStep_cases memberSince effectiveAt minimumDwell limit
    wanted state symbol with ⟨same, never⟩ | ⟨incumbent, replaces, replaced⟩
  · rw [same]
    refine ⟨underway.removable, ?_, origin⟩
    rw [counted]
    by_cases inRole : symbol ∈ role
    · rw [if_pos inRole, Nat.add_zero]
      exact made
    · have absent : symbol ∉ state.1 := fun member =>
        (underway.origin symbol member).elim inRole fresh
      have stuck : limit ≤ state.2 ∨ (removableMembers memberSince effectiveAt
          minimumDwell wanted state.1).length = 0 := by
        by_contra open_
        rw [not_or, Nat.not_le] at open_
        have nonempty := List.ne_nil_of_length_pos
          (Nat.pos_of_ne_zero open_.2)
        exact never _ ⟨absent, open_.1, List.getLast?_eq_getLast_of_ne_nil
          nonempty⟩
      rw [if_neg inRole]
      omega
  · have nonempty := List.length_pos_of_mem
      (List.mem_of_getLast? replaces.2.2)
    have exhausting := replaces.2.1
    have absent : symbol ∉ role := fun inRole =>
      replaces.1 (turned.immune symbol inRole leading)
    rw [replaced]
    constructor
    · have removableDistinct : (removableMembers memberSince effectiveAt
          minimumDwell wanted state.1).Nodup := by
        rw [underway.removable]
        exact (distinct.filter _).sublist (List.take_sublist _ _)
      rw [removableMembers_replaced leading removableDistinct replaces.2.2,
        underway.removable, List.dropLast_eq_take, List.take_take,
        List.length_take]
      congr 1
      dsimp only
      omega
    · rw [counted, if_neg absent]
      dsimp only
      omega
    · intro other member
      rcases List.mem_append.mp member with stayed | isNew
      · exact origin other (List.mem_of_mem_erase stayed)
      · exact Or.inr (List.mem_append_right _ isNew)

theorem Underway.foldl
    (before todo : List String) (distinct : role.Nodup)
    (todoDistinct : (before ++ todo).Nodup)
    (leading : ∀ symbol ∈ todo, symbol ∈ wanted.take 5)
    (underway : Underway memberSince effectiveAt minimumDwell limit role
      wanted before state)
    (turned : Turned role limit wanted state) :
    Underway memberSince effectiveAt minimumDwell limit role wanted
      (before ++ todo)
      (todo.foldl (replacementStep memberSince effectiveAt minimumDwell limit
        wanted) state) := by
  induction todo generalizing before state with
  | nil =>
      rw [List.append_nil]
      exact underway
  | cons symbol rest induction =>
      have moved : before ++ symbol :: rest = (before ++ [symbol]) ++ rest :=
        by simp
      rw [moved] at todoDistinct ⊢
      have fresh : symbol ∉ before := by
        intro member
        rw [List.append_assoc, List.nodup_append] at todoDistinct
        exact todoDistinct.2.2 symbol member symbol List.mem_cons_self rfl
      exact induction (before ++ [symbol]) todoDistinct
        (fun other member => leading other (List.mem_cons_of_mem _ member))
        (underway.step turned distinct fresh
          (leading symbol List.mem_cons_self))
        (turned.step symbol)

end Underway

/-! ## The loop over all preferred symbols -/

theorem filledBucket_distinct (distinct : current.Nodup) :
    (filledBucket current preferred forbidden inactive).Nodup := by
  have kept : (keptMembers current forbidden inactive).Nodup :=
    distinct.filter _
  have filled := (@Reconciled.refl _ (allowedPreferences preferred forbidden)
    (fun _ => True) kept).fillRole fun _ member => member
  exact filled.distinct

theorem bucketAfter_turned (before : List String) :
    Turned (filledBucket current preferred forbidden inactive) limit
      (allowedPreferences preferred forbidden)
      (bucketAfter memberSince effectiveAt minimumDwell limit current
        preferred forbidden inactive before) :=
  (Turned.refl _).foldl before

theorem underway_of_leading
    {before after : List String} (distinct : current.Nodup)
    (leading : (allowedPreferences preferred forbidden).take 5 =
      before ++ after) :
    Underway memberSince effectiveAt minimumDwell limit
      (filledBucket current preferred forbidden inactive)
      (allowedPreferences preferred forbidden) before
      (bucketAfter memberSince effectiveAt minimumDwell limit current
        preferred forbidden inactive before) := by
  have leadingDistinct := (allowedPreferences_distinct preferred
    forbidden).sublist (List.take_sublist 5 _)
  rw [leading, List.nodup_append] at leadingDistinct
  apply Underway.foldl [] before (filledBucket_distinct distinct)
    leadingDistinct.1 _ Underway.refl (Turned.refl _)
  intro symbol member
  rw [leading]
  exact List.mem_append_left _ member

/-- The first five preferred symbols leave nothing to replace. -/
theorem settled_after_leading
    (five : current.length = 5) (distinct : current.Nodup)
    {symbol : String}
    (later : symbol ∈ (allowedPreferences preferred forbidden).drop 5)
    (incumbent : String) :
    ¬ Replaces memberSince effectiveAt minimumDwell limit
      (allowedPreferences preferred forbidden)
      (bucketAfter memberSince effectiveAt minimumDwell limit current
        preferred forbidden inactive
        ((allowedPreferences preferred forbidden).take 5))
      symbol incumbent := by
  intro replaces
  have wantedDistinct := allowedPreferences_distinct preferred forbidden
  have fits : (keptMembers current forbidden inactive).length ≤ 5 := by
    rw [← five]
    exact List.length_filter_le _ _
  have enough : 5 ≤ (allowedPreferences preferred forbidden).length := by
    have some := List.length_pos_of_mem later
    rw [List.length_drop] at some
    omega
  have full := length_fillRole wantedDistinct fits enough
  have underway := @underway_of_leading memberSince effectiveAt minimumDwell
    limit current preferred forbidden inactive _ [] distinct
    (List.append_nil _).symm
  have nonempty := List.length_pos_of_mem
    (List.mem_of_getLast? replaces.2.2)
  have bound := congrArg List.length underway.removable
  rw [List.length_take] at bound
  have made := underway.made
  have limited := replaces.2.1
  rw [← filledBucket] at full
  generalize bucketAfter memberSince effectiveAt minimumDwell limit current
    preferred forbidden inactive
    ((allowedPreferences preferred forbidden).take 5) = state at *
  generalize filledBucket current preferred forbidden inactive = role at *
  generalize allowedPreferences preferred forbidden = wanted at *
  -- Every removable member leaves one of the five without a place.
  have placed : ((wanted.take 5).countP fun symbol => symbol ∈ role) ≤
      role.countP fun symbol => symbol ∈ wanted.take 5 := by
    rw [List.countP_eq_length_filter, List.countP_eq_length_filter]
    apply (List.Nodup.subperm _ _).length_le
    · exact (wantedDistinct.sublist (List.take_sublist 5 _)).filter _
    · intro other member
      rw [List.mem_filter, decide_eq_true_eq] at member ⊢
      exact member.symm
  have outside : (removableMembers memberSince effectiveAt minimumDwell wanted
      role).length ≤ role.countP fun symbol => symbol ∉ wanted.take 5 := by
    rw [removableMembers, ← List.countP_eq_length_filter]
    apply List.countP_mono_left
    intro other _ removable
    rw [decide_eq_true_eq] at removable ⊢
    exact removable.1
  have leading := List.length_eq_countP_add_countP (l := wanted.take 5)
    fun symbol => decide (symbol ∈ role)
  have members := List.length_eq_countP_add_countP (l := role)
    fun symbol => decide (symbol ∈ wanted.take 5)
  rw [List.length_take] at leading
  simp only [decide_not, decide_eq_true_eq] at *
  omega

/-- Symbols after the fifth change nothing. -/
theorem bucketAfter_past
    (five : current.length = 5) (distinct : current.Nodup)
    {more : List String}
    (later : ∀ symbol ∈ more,
      symbol ∈ (allowedPreferences preferred forbidden).drop 5) :
    bucketAfter memberSince effectiveAt minimumDwell limit current preferred
        forbidden inactive
        ((allowedPreferences preferred forbidden).take 5 ++ more) =
      bucketAfter memberSince effectiveAt minimumDwell limit current preferred
        forbidden inactive
        ((allowedPreferences preferred forbidden).take 5) := by
  rw [bucketAfter, List.foldl_append, ← bucketAfter]
  induction more with
  | nil => rfl
  | cons symbol rest induction =>
      have never := @settled_after_leading memberSince effectiveAt
        minimumDwell limit current preferred forbidden inactive five distinct
        symbol (later symbol List.mem_cons_self)
      rw [List.foldl_cons]
      rcases replacementStep_cases _ symbol with
        ⟨same, _⟩ | ⟨incumbent, replaces, _⟩
      · rw [same]
        exact induction fun other member =>
          later other (List.mem_cons_of_mem _ member)
      · exact absurd replaces (never incumbent)

/-- A replacement is made by one of the first five preferred symbols. -/
theorem leading_of_replaces
    (five : current.length = 5) (distinct : current.Nodup)
    {before after : List String} {symbol incumbent : String}
    (split : allowedPreferences preferred forbidden =
      before ++ symbol :: after)
    (replaces : Replaces memberSince effectiveAt minimumDwell limit
      (allowedPreferences preferred forbidden)
      (bucketAfter memberSince effectiveAt minimumDwell limit current
        preferred forbidden inactive before) symbol incumbent) :
    ∃ rest, (allowedPreferences preferred forbidden).take 5 =
      before ++ symbol :: rest := by
  by_cases early : before.length < 5
  · refine ⟨after.take (5 - (before.length + 1)), ?_⟩
    have places : 5 - before.length = (5 - (before.length + 1)) + 1 := by
      omega
    rw [split, List.take_append, List.take_of_length_le early.le, places,
      List.take_succ_cons]
  · have taken : (allowedPreferences preferred forbidden).take 5 =
        before.take 5 := by
      rw [split, List.take_append_of_le_length (Nat.le_of_not_lt early)]
    have dropped : (allowedPreferences preferred forbidden).drop 5 =
        before.drop 5 ++ symbol :: after := by
      rw [split, List.drop_append_of_le_length (Nat.le_of_not_lt early)]
    have walked : before =
        (allowedPreferences preferred forbidden).take 5 ++ before.drop 5 := by
      rw [taken, List.take_append_drop]
    rw [walked, bucketAfter_past five distinct] at replaces
    · apply absurd replaces
      apply settled_after_leading five distinct
      rw [dropped]
      simp
    · intro other member
      rw [dropped]
      exact List.mem_append_left _ member

/-! ## When the weakest is dropped -/

theorem endsWeakest_of_dropsWeakest
    (fits : (keptMembers current forbidden inactive).length ≤ 5)
    (distinct : current.Nodup)
    (drops : DropsWeakest memberSince effectiveAt minimumDwell limit current
      preferred forbidden inactive) :
    EndsWeakest preferred.idxOf
      (removableKept memberSince effectiveAt minimumDwell current preferred
        forbidden inactive)
      (min limit (newcomerCount current preferred forbidden inactive)) := by
  intro before last after split few other member
  have counted := @countP_outside_filledBucket current preferred forbidden
    inactive fits
  have more : after.length < ((allowedPreferences preferred
      forbidden).take 5).countP fun symbol =>
        symbol ∉ filledBucket current preferred forbidden inactive := by
    omega
  -- The newcomer which comes after as many others drops `last`.
  rcases exists_split_of_lt_countP more with
    ⟨passed, symbol, rest, leading, outside, passedCount⟩
  have underway := @underway_of_leading memberSince effectiveAt minimumDwell
    limit current preferred forbidden inactive passed _ distinct leading
  have made := underway.made
  have removable := underway.removable
  rw [removableMembers_filledBucket fits, split] at made removable
  rw [passedCount, List.length_append, List.length_cons] at made
  have done : (bucketAfter memberSince effectiveAt minimumDwell limit current
      preferred forbidden inactive passed).2 = after.length := by
    omega
  have size : (before ++ last :: after).length - after.length =
      before.length + 1 := by
    rw [List.length_append, List.length_cons]
    omega
  rw [done, size, List.take_append, Nat.add_sub_cancel_left,
    List.take_of_length_le (Nat.le_succ _), List.take_succ_cons,
    List.take_zero] at removable
  have whole : allowedPreferences preferred forbidden = passed ++ symbol ::
      (rest ++ (allowedPreferences preferred forbidden).drop 5) := by
    rw [← List.cons_append, ← List.append_assoc, ← leading,
      List.take_append_drop]
  have absent : symbol ∉ (bucketAfter memberSince effectiveAt minimumDwell
      limit current preferred forbidden inactive passed).1 := by
    intro present
    rcases underway.origin symbol present with inRole | inPassed
    · exact of_decide_eq_true outside inRole
    · have leadingDistinct := allowedPreferences_distinct preferred forbidden
      rw [whole, List.nodup_append] at leadingDistinct
      exact leadingDistinct.2.2 symbol inPassed symbol List.mem_cons_self rfl
  apply drops passed symbol _ whole last
  · refine ⟨absent, ?_, ?_⟩
    · omega
    · rw [removable, List.getLast?_concat]
  · rw [removable]
    exact List.mem_append_left _ member

theorem dropsWeakest_of_endsWeakest
    (five : current.length = 5) (distinct : current.Nodup)
    (ends : EndsWeakest preferred.idxOf
      (removableKept memberSince effectiveAt minimumDwell current preferred
        forbidden inactive)
      (min limit (newcomerCount current preferred forbidden inactive))) :
    DropsWeakest memberSince effectiveAt minimumDwell limit current preferred
      forbidden inactive := by
  intro before symbol after split incumbent replaces other member
  have fits : (keptMembers current forbidden inactive).length ≤ 5 := by
    rw [← five]
    exact List.length_filter_le _ _
  rcases leading_of_replaces five distinct split replaces with ⟨rest, leading⟩
  have underway := @underway_of_leading memberSince effectiveAt minimumDwell
    limit current preferred forbidden inactive before _ distinct leading
  have absent : symbol ∉ filledBucket current preferred forbidden inactive := by
    intro present
    apply replaces.1
    apply (bucketAfter_turned before).immune symbol present
    rw [leading]
    exact List.mem_append_right _ List.mem_cons_self
  have more : (before.countP fun symbol =>
      symbol ∉ filledBucket current preferred forbidden inactive) <
        newcomerCount current preferred forbidden inactive := by
    rw [← countP_outside_filledBucket fits, leading, List.countP_append,
      List.countP_cons_of_pos (by simpa using absent)]
    omega
  have made := underway.made
  have removable := underway.removable
  rw [removableMembers_filledBucket fits] at made removable
  rcases List.getLast?_eq_some_iff.mp replaces.2.2 with ⟨others, isLast⟩
  have bound := congrArg List.length removable
  rw [isLast, List.length_append, List.length_singleton,
    List.length_take] at bound
  have limited := replaces.2.1
  rw [isLast] at removable member
  have whole : removableKept memberSince effectiveAt minimumDwell current
      preferred forbidden inactive = others ++ incumbent ::
        (removableKept memberSince effectiveAt minimumDwell current preferred
          forbidden inactive).drop
            ((removableKept memberSince effectiveAt minimumDwell current
              preferred forbidden inactive).length -
              (bucketAfter memberSince effectiveAt minimumDwell limit current
                preferred forbidden inactive before).2) := by
    rw [← List.singleton_append, ← List.append_assoc, removable,
      List.take_append_drop]
  rcases List.mem_append.mp member with earlier | isIncumbent
  · apply ends others incumbent _ whole _ other earlier
    rw [List.length_drop]
    omega
  · rw [List.mem_singleton.mp isIncumbent]

/--
The replacements drop the weakest members exactly if, in the order of the
bucket, the last removable members rank no better than those before them, as
far as there are newcomers and the limit allows.
-/
theorem dropsWeakest_iff
    (five : current.length = 5) (distinct : current.Nodup) :
    DropsWeakest memberSince effectiveAt minimumDwell limit current preferred
        forbidden inactive ↔
      EndsWeakest preferred.idxOf
        (removableKept memberSince effectiveAt minimumDwell current preferred
          forbidden inactive)
        (min limit (newcomerCount current preferred forbidden inactive)) := by
  have fits : (keptMembers current forbidden inactive).length ≤ 5 := by
    rw [← five]
    exact List.length_filter_le _ _
  constructor
  · exact endsWeakest_of_dropsWeakest fits distinct
  · exact dropsWeakest_of_endsWeakest five distinct

end Replacing

/-! ## A qualified member dropped before an unqualified one -/

/-- The members of the bucket, all of them since the epoch. -/
def fiveMembers : List String := ["A", "B", "C", "D", "E"]

/-- `C` is not qualified any more, and `E` ranks sixth. -/
def sixPreferred : List String := ["A", "B", "D", "F", "G", "E"]

theorem dropsWeakest_iff_fiveMembers :
    DropsWeakest (sampleSince fiveMembers) (3 * usPerDay)
        defaultPolicy.candidateDwell 1 fiveMembers sixPreferred [] [] ↔
      EndsWeakest sixPreferred.idxOf
        (removableKept (sampleSince fiveMembers) (3 * usPerDay)
          defaultPolicy.candidateDwell fiveMembers sixPreferred [] [])
        (min 1 (newcomerCount fiveMembers sixPreferred [] [])) :=
  dropsWeakest_iff (by decide) (by decide)

theorem qualified_dropped_first :
    reconcileBucket fiveMembers sixPreferred [] [] (sampleSince fiveMembers)
        (3 * usPerDay) defaultPolicy.candidateDwell 1 =
          .ok ["A", "B", "C", "D", "F"] ∧
      ¬ DropsWeakest (sampleSince fiveMembers) (3 * usPerDay)
        defaultPolicy.candidateDwell 1 fiveMembers sixPreferred [] [] := by
  constructor
  · exact eq_ok_of_toOption (by decide +kernel)
  · intro drops
    have worse := drops ["A", "B", "D"] "F" ["G", "E"] (by decide +kernel) "E"
      ⟨by decide +kernel, by decide +kernel, by decide +kernel⟩ "C"
      (by decide +kernel)
    exact absurd worse (by decide)

end ShadowDataPlane.Central
