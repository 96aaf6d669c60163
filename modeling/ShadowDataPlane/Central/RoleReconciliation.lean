import ShadowDataPlane.Central.SelectionWellFormed

/-!
# How a candidate role is reconciled

`reconcileBucket` keeps the members which may stay, fills the vacancies from
the preference list and then lets preferred symbols replace removable members.
This module says what the filled role is, what one replacement does, and what
the loop of replacements therefore preserves.
-/

namespace ShadowDataPlane.Central

open ShadowDataPlane.Contracts
open ShadowDataPlane.Foundation

/-! ## Filling the vacancies -/

/-- The preference list without forbidden symbols and repetitions. -/
def allowedPreferences (preferred forbidden : List String) : List String :=
  (preferred.filter fun symbol => symbol ∉ forbidden).eraseDups

/-- The members of a bucket which are neither forbidden nor inactive. -/
def keptMembers (current forbidden inactive : List String) : List String :=
  current.filter fun symbol => symbol ∉ forbidden ∧ symbol ∉ inactive

theorem allowedPreferences_distinct (preferred forbidden : List String) :
    (allowedPreferences preferred forbidden).Nodup :=
  nodup_eraseDups _

theorem mem_allowedPreferences_iff
    {preferred forbidden : List String} {symbol : String} :
    symbol ∈ allowedPreferences preferred forbidden ↔
      symbol ∈ preferred ∧ symbol ∉ forbidden := by
  simp [allowedPreferences]

theorem mem_keptMembers_iff
    {current forbidden inactive : List String} {symbol : String} :
    symbol ∈ keptMembers current forbidden inactive ↔
      symbol ∈ current ∧ symbol ∉ forbidden ∧ symbol ∉ inactive := by
  simp [keptMembers]

/-- The vacancies go to the first preferred symbols which are not members. -/
theorem fillRole_eq
    {preferred : List String} (distinct : preferred.Nodup)
    (kept : List String) :
    fillRole preferred kept = kept ++
      (preferred.filter fun symbol => symbol ∉ kept).take
        (5 - kept.length) := by
  induction preferred generalizing kept with
  | nil => simp [fillRole]
  | cons symbol rest induction =>
      rcases List.nodup_cons.mp distinct with ⟨fresh, restDistinct⟩
      have stepped : fillRole (symbol :: rest) kept =
          fillRole rest (fillStep kept symbol) := rfl
      rw [stepped, induction restDistinct, fillStep]
      by_cases full : 5 ≤ kept.length
      · rw [if_pos full]
        simp [Nat.sub_eq_zero_of_le full]
      · rw [if_neg full]
        by_cases member : symbol ∈ kept
        · simp [member]
        · have others :
              (rest.filter fun other => other ∉ kept ++ [symbol]) =
                rest.filter fun other => other ∉ kept := by
            apply List.filter_congr
            intro other inRest
            have different : other ≠ symbol := fun same =>
              fresh (same ▸ inRest)
            simp [different]
          have vacancies : 5 - kept.length = (5 - (kept.length + 1)) + 1 := by
            omega
          rw [if_pos member, others, List.length_append,
            List.length_singleton]
          simp [member, vacancies]

/-- A role is filled when as many symbols are preferred as it has places. -/
theorem length_fillRole
    {preferred kept : List String} (distinct : preferred.Nodup)
    (fits : kept.length ≤ 5) (enough : 5 ≤ preferred.length) :
    (fillRole preferred kept).length = 5 := by
  have members := countP_mem_le distinct kept
  have split := List.length_eq_length_filter_add (l := preferred)
    fun symbol => decide (symbol ∈ kept)
  rw [fillRole_eq distinct, List.length_append, List.length_take]
  rw [List.countP_eq_length_filter] at members
  simp only [decide_not]
  omega

/-! ## One replacement -/

section Replacing

variable (memberSince : Dict String Int) (effectiveAt minimumDwell : Int)
variable (limit : Nat) (preferred : List String)

/-- The members a preferred symbol may replace, in the order of the role. -/
def removableMembers (role : List String) : List String :=
  role.filter fun incumbent => incumbent ∉ preferred.take 5 ∧
    DwellComplete ((memberSince.get? incumbent).getD effectiveAt)
      effectiveAt minimumDwell

/-- A preferred symbol takes the place of an incumbent. -/
def Replaces (state : List String × Nat) (symbol incumbent : String) : Prop :=
  symbol ∉ state.1 ∧ state.2 < limit ∧
    (removableMembers memberSince effectiveAt minimumDwell preferred
      state.1).getLast? = some incumbent

end Replacing

section Replacing

variable {memberSince : Dict String Int} {effectiveAt minimumDwell : Int}
variable {limit : Nat} {preferred : List String}

theorem mem_removableMembers_iff {role : List String} {incumbent : String} :
    incumbent ∈ removableMembers memberSince effectiveAt minimumDwell
        preferred role ↔
      incumbent ∈ role ∧ incumbent ∉ preferred.take 5 ∧
        DwellComplete ((memberSince.get? incumbent).getD effectiveAt)
          effectiveAt minimumDwell := by
  rw [removableMembers, List.mem_filter, decide_eq_true_eq]

/-- A step of the loop changes nothing or makes one replacement. -/
theorem replacementStep_cases (state : List String × Nat) (symbol : String) :
    (replacementStep memberSince effectiveAt minimumDwell limit preferred
        state symbol = state ∧
      ∀ incumbent, ¬ Replaces memberSince effectiveAt minimumDwell limit
        preferred state symbol incumbent) ∨
    ∃ incumbent,
      Replaces memberSince effectiveAt minimumDwell limit preferred state
        symbol incumbent ∧
      replacementStep memberSince effectiveAt minimumDwell limit preferred
        state symbol = (state.1.erase incumbent ++ [symbol], state.2 + 1) := by
  unfold replacementStep
  split
  next blocked =>
    apply Or.inl
    refine ⟨rfl, fun incumbent replaces => ?_⟩
    rcases blocked with member | exhausted
    · exact replaces.1 member
    · exact Nat.not_lt_of_le exhausted replaces.2.1
  next open_ =>
    rw [not_or, Nat.not_le] at open_
    split
    next none =>
      apply Or.inl
      refine ⟨rfl, fun incumbent replaces => ?_⟩
      rw [Replaces, removableMembers, none] at replaces
      cases replaces.2.2
    next incumbent last =>
      exact Or.inr ⟨incumbent, ⟨open_.1, open_.2, last⟩, rfl⟩

/-! ## The loop -/

/-- What the loop has made of a role. -/
structure Turned (role : List String) (limit : Nat) (preferred : List String)
    (state : List String × Nat) : Prop where
  length : state.1.length = role.length
  limited : state.2 ≤ limit
  changes : (role.toFinset \ state.1.toFinset).card ≤ state.2
  immune : ∀ symbol ∈ role, symbol ∈ preferred.take 5 → symbol ∈ state.1

theorem Turned.refl (role : List String) :
    Turned role limit preferred (role, 0) where
  length := rfl
  limited := Nat.zero_le _
  changes := by simp
  immune _ member _ := member

theorem Turned.step
    {role : List String} {state : List String × Nat}
    (turned : Turned role limit preferred state) (symbol : String) :
    Turned role limit preferred
      (replacementStep memberSince effectiveAt minimumDwell limit preferred
        state symbol) := by
  rcases @replacementStep_cases memberSince effectiveAt minimumDwell limit
    preferred state symbol with ⟨same, _⟩ | ⟨incumbent, replaces, made⟩
  · rw [same]
    exact turned
  · rcases mem_removableMembers_iff.mp (List.mem_of_getLast? replaces.2.2) with
      ⟨member, unpreferred, _⟩
    have stays {other : String} (present : other ∈ state.1)
        (different : other ≠ incumbent) :
        other ∈ state.1.erase incumbent ++ [symbol] :=
      List.mem_append_left _ ((List.mem_erase_of_ne different).mpr present)
    rw [made]
    constructor
    · have positive := List.length_pos_of_mem member
      rw [List.length_append, List.length_erase_of_mem member,
        List.length_singleton, ← turned.length]
      omega
    · exact replaces.2.1
    · have left : role.toFinset \
            (state.1.erase incumbent ++ [symbol]).toFinset ⊆
          insert incumbent (role.toFinset \ state.1.toFinset) := by
        intro other outside
        rw [Finset.mem_sdiff, List.mem_toFinset, List.mem_toFinset] at outside
        rw [Finset.mem_insert, Finset.mem_sdiff, List.mem_toFinset,
          List.mem_toFinset]
        by_cases same : other = incumbent
        · exact Or.inl same
        · exact Or.inr ⟨outside.1,
            fun present => outside.2 (stays present same)⟩
      calc
        _ ≤ (insert incumbent (role.toFinset \ state.1.toFinset)).card :=
          Finset.card_le_card left
        _ ≤ (role.toFinset \ state.1.toFinset).card + 1 :=
          Finset.card_insert_le _ _
        _ ≤ state.2 + 1 := Nat.succ_le_succ turned.changes
    · intro other inRole isPreferred
      apply stays (turned.immune other inRole isPreferred)
      rintro rfl
      exact unpreferred isPreferred

theorem Turned.foldl
    {role : List String} {state : List String × Nat}
    (turned : Turned role limit preferred state) (todo : List String) :
    Turned role limit preferred
      (todo.foldl (replacementStep memberSince effectiveAt minimumDwell limit
        preferred) state) := by
  induction todo generalizing state with
  | nil => exact turned
  | cons symbol rest induction => exact induction (turned.step symbol)

/-! ## The reconciled bucket -/

/-- The bucket of a call, with its vacancies filled. -/
def filledBucket (current preferred forbidden inactive : List String) :
    List String :=
  fillRole (allowedPreferences preferred forbidden)
    (keptMembers current forbidden inactive)

/-- The state of the loop when its work is done. -/
def replacedBucket (memberSince : Dict String Int)
    (effectiveAt minimumDwell : Int) (limit : Nat)
    (current preferred forbidden inactive : List String) :
    List String × Nat :=
  (allowedPreferences preferred forbidden).foldl
    (replacementStep memberSince effectiveAt minimumDwell limit
      (allowedPreferences preferred forbidden))
    (filledBucket current preferred forbidden inactive, 0)

variable {current forbidden inactive : List String}

theorem replacedBucket_turned (wanted : List String) :
    Turned (filledBucket current wanted forbidden inactive) limit
      (allowedPreferences wanted forbidden)
      (replacedBucket memberSince effectiveAt minimumDwell limit current
        wanted forbidden inactive) :=
  (Turned.refl _).foldl _

theorem reconcileBucket_eq (wanted : List String) :
    reconcileBucket current wanted forbidden inactive memberSince effectiveAt
        minimumDwell limit =
      if (replacedBucket memberSince effectiveAt minimumDwell limit current
          wanted forbidden inactive).1.length ≠ 5 then
        .error "not enough qualified instruments to fill candidate role"
      else if (5 - (keptMembers current forbidden inactive).length : Int) = 0 ∧
          limit < (current.toFinset \ (replacedBucket memberSince effectiveAt
            minimumDwell limit current wanted forbidden
            inactive).1.toFinset).card then
        .error "candidate replacement limit exceeded"
      else .ok (sortSymbols (replacedBucket memberSince effectiveAt
        minimumDwell limit current wanted forbidden inactive).1) := rfl

/-- What is returned is the role which the loop has left. -/
theorem reconcileBucket_eq_ok
    {wanted new : List String}
    (reconciled : reconcileBucket current wanted forbidden inactive
      memberSince effectiveAt minimumDwell limit = .ok new) :
    new = sortSymbols (replacedBucket memberSince effectiveAt minimumDwell
      limit current wanted forbidden inactive).1 := by
  rw [reconcileBucket_eq] at reconciled
  split at reconciled
  next => cases reconciled
  next =>
    split at reconciled
    next => cases reconciled
    next => exact (Except.ok.inj reconciled).symm

/-- A bucket is reconciled whenever five symbols are preferred. -/
theorem reconcileBucket_completes
    {wanted : List String} (five : current.length = 5)
    (enough : 5 ≤ (allowedPreferences wanted forbidden).length) :
    ∃ new, reconcileBucket current wanted forbidden inactive memberSince
      effectiveAt minimumDwell limit = .ok new := by
  have fits : (keptMembers current forbidden inactive).length ≤ 5 := by
    rw [← five]
    exact List.length_filter_le _ _
  have distinct := allowedPreferences_distinct wanted forbidden
  have turned := @replacedBucket_turned memberSince effectiveAt minimumDwell
    limit current forbidden inactive wanted
  have full := turned.length
  rw [filledBucket, length_fillRole distinct fits enough] at full
  rw [reconcileBucket_eq, if_neg (not_not.mpr full), if_neg]
  · exact ⟨_, rfl⟩
  · rintro ⟨unforced, exceeded⟩
    -- Nothing was filled, so the loop started with the current bucket.
    have kept : keptMembers current forbidden inactive = current := by
      have asLong : (keptMembers current forbidden inactive).length =
          current.length := by omega
      exact List.Sublist.eq_of_length List.filter_sublist asLong
    have started : filledBucket current wanted forbidden inactive =
        current := by
      rw [filledBucket, fillRole_eq distinct, kept, five]
      simp
    have changes := turned.changes
    rw [started] at changes
    exact Nat.not_lt_of_le (changes.trans turned.limited) exceeded

end Replacing

end ShadowDataPlane.Central
