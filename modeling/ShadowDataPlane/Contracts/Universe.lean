import Mathlib.Data.Finset.Card
import Mathlib.Data.List.Sort
import Mathlib.Data.String.Basic

/-!
# Universe decisions

A universe decision names sixty symbols in three roles and the midnight from
which they are collected.  Its validators are fields: a decision whose roles
overlap, are unsorted or have the wrong size cannot be built, and `validate`
is the constructor which the source runs on every decision it reads or makes.

Instants of the control plane are `datetime` values, here the integer count of
microseconds since the Unix epoch, their exact resolution.  Symbol texts are
taken after the validators' `upper()`.  The version text and the universe hash
are functions of the other fields, which the source checks and never uses
otherwise.
-/

namespace ShadowDataPlane.Contracts

/-- Microseconds in one hour. -/
def usPerHour : Int := 3600000000

/-- Microseconds in one UTC day. -/
def usPerDay : Int := 86400000000

/-- An instant at 00:00 UTC. -/
def IsMidnight (instant : Int) : Prop := instant % usPerDay = 0

/-- `instant.weekday() == 0`; the epoch was a Thursday. -/
def IsMonday (instant : Int) : Prop := (instant / usPerDay + 3) % 7 = 0

instance (instant : Int) : Decidable (IsMidnight instant) :=
  inferInstanceAs (Decidable (_ = _))

instance (instant : Int) : Decidable (IsMonday instant) :=
  inferInstanceAs (Decidable (_ = _))

/-- A capital letter or a digit. -/
def PatternLetter (letter : Char) : Prop :=
  ('A' ≤ letter ∧ letter ≤ 'Z') ∨ ('0' ≤ letter ∧ letter ≤ '9')

instance (letter : Char) : Decidable (PatternLetter letter) :=
  inferInstanceAs (Decidable (_ ∨ _))

/-- `SYMBOL_PATTERN`: one to thirty capital letters and digits. -/
def SymbolPattern (symbol : String) : Prop :=
  1 ≤ symbol.toList.length ∧ symbol.toList.length ≤ 30 ∧
    ∀ letter ∈ symbol.toList, PatternLetter letter

instance (symbol : String) : Decidable (SymbolPattern symbol) :=
  -- Only the letters of the symbol are to be tried, not all characters.
  have : Decidable (∀ letter ∈ symbol.toList, PatternLetter letter) :=
    List.decidableBAll PatternLetter symbol.toList
  inferInstanceAs (Decidable (_ ∧ _ ∧ _))

/-- Python's `tuple(sorted(symbols))`. -/
def sortSymbols (symbols : List String) : List String :=
  symbols.insertionSort (· ≤ ·)

theorem sortSymbols_perm (symbols : List String) :
    (sortSymbols symbols).Perm symbols :=
  List.perm_insertionSort _ symbols

@[simp]
theorem mem_sortSymbols {symbol : String} {symbols : List String} :
    symbol ∈ sortSymbols symbols ↔ symbol ∈ symbols :=
  (sortSymbols_perm symbols).mem_iff

theorem sortSymbols_sorted (symbols : List String) :
    (sortSymbols symbols).Pairwise (· ≤ ·) :=
  List.pairwise_insertionSort _ symbols

theorem length_sortSymbols (symbols : List String) :
    (sortSymbols symbols).length = symbols.length :=
  (sortSymbols_perm symbols).length_eq

/-- As many distinct members as members: there is no duplicate. -/
theorem nodup_of_card_toFinset
    {α : Type*} [DecidableEq α] {items : List α}
    (same : items.toFinset.card = items.length) : items.Nodup := by
  rw [List.card_toFinset] at same
  rw [← (List.dedup_sublist items).eq_of_length same]
  exact List.nodup_dedup items

/-- Why a decision was made. -/
inductive UniverseDecisionReason where
  | formalBootstrap
  | dailyCandidate
  | weeklyCore
  | inactiveReplacement
  | manualCandidateOverride
deriving DecidableEq, Repr

/-- What the members of a role must be, `count` of them. -/
structure ValidRole (count : Nat) (symbols : List String) : Prop where
  length : symbols.length = count
  pattern : ∀ symbol ∈ symbols, SymbolPattern symbol
  distinct : symbols.Nodup
  sorted : symbols.Pairwise (· ≤ ·)

instance (count : Nat) (symbols : List String) :
    Decidable (ValidRole count symbols) :=
  decidable_of_iff
    (symbols.length = count ∧ (∀ symbol ∈ symbols, SymbolPattern symbol) ∧
      symbols.Nodup ∧ symbols.Pairwise (· ≤ ·))
    ⟨fun ⟨length, pattern, distinct, sorted⟩ =>
        ⟨length, pattern, distinct, sorted⟩,
      fun ⟨length, pattern, distinct, sorted⟩ =>
        ⟨length, pattern, distinct, sorted⟩⟩

/-- The fields of a decision, before they are validated. -/
structure DecisionDraft where
  coreGeneration : Nat
  candidateRevision : Nat
  decisionSequence : Nat
  createdAt : Int
  effectiveAt : Int
  reason : UniverseDecisionReason
  core : List String
  boundary : List String
  probe : List String
  sourceHashes : List String := []
deriving DecidableEq

namespace DecisionDraft

/-- `members`: the symbols of all roles, sorted. -/
def members (draft : DecisionDraft) : List String :=
  sortSymbols (draft.core ++ draft.boundary ++ draft.probe)

@[simp]
theorem mem_members {draft : DecisionDraft} {symbol : String} :
    symbol ∈ draft.members ↔
      symbol ∈ draft.core ∨ symbol ∈ draft.boundary ∨ symbol ∈ draft.probe := by
  simp only [members, mem_sortSymbols, List.mem_append, or_assoc]

/-- What the validators of a universe decision ask for. -/
structure Valid (draft : DecisionDraft) : Prop where
  coreGeneration : 1 ≤ draft.coreGeneration
  decisionSequence : 1 ≤ draft.decisionSequence
  core : ValidRole 50 draft.core
  boundary : ValidRole 5 draft.boundary
  probe : ValidRole 5 draft.probe
  schedule : draft.createdAt ≤ draft.effectiveAt
  members :
    (draft.core ++ draft.boundary ++ draft.probe).toFinset.card = 60
  midnight :
    draft.reason ≠ .formalBootstrap → IsMidnight draft.effectiveAt

instance (draft : DecisionDraft) : Decidable draft.Valid :=
  decidable_of_iff
    ((1 ≤ draft.coreGeneration ∧ 1 ≤ draft.decisionSequence) ∧
      (ValidRole 50 draft.core ∧ ValidRole 5 draft.boundary ∧
        ValidRole 5 draft.probe) ∧
      draft.createdAt ≤ draft.effectiveAt ∧
      (draft.core ++ draft.boundary ++ draft.probe).toFinset.card = 60 ∧
      (draft.reason ≠ .formalBootstrap → IsMidnight draft.effectiveAt))
    ⟨fun ⟨⟨generation, sequence⟩, ⟨core, boundary, probe⟩, schedule,
          members, midnight⟩ =>
        ⟨generation, sequence, core, boundary, probe, schedule, members,
          midnight⟩,
      fun ⟨generation, sequence, core, boundary, probe, schedule, members,
          midnight⟩ =>
        ⟨⟨generation, sequence⟩, ⟨core, boundary, probe⟩, schedule, members,
          midnight⟩⟩

end DecisionDraft

/-- A validated universe decision. -/
structure UniverseDecision extends DecisionDraft where
  valid : toDecisionDraft.Valid
deriving DecidableEq

namespace UniverseDecision

/-- The model constructor: it raises unless the fields are valid. -/
def validate (draft : DecisionDraft) : Except String UniverseDecision :=
  if valid : draft.Valid then .ok { draft with valid }
  else .error "universe decision is invalid"

theorem validate_eq_ok_iff
    {draft : DecisionDraft} {decision : UniverseDecision} :
    validate draft = .ok decision ↔ decision.toDecisionDraft = draft := by
  unfold validate
  split
  next valid =>
    constructor
    · intro built
      rw [← Except.ok.inj built]
    · rintro rfl
      rfl
  next invalid =>
    constructor
    · rintro ⟨⟩
    · rintro rfl
      exact absurd decision.valid invalid

/-- The roles of a decision have no member in common. -/
theorem roles_distinct (decision : UniverseDecision) :
    (decision.core ++ decision.boundary ++ decision.probe).Nodup := by
  apply nodup_of_card_toFinset
  rw [decision.valid.members, List.length_append, List.length_append,
    decision.valid.core.length, decision.valid.boundary.length,
    decision.valid.probe.length]

theorem length_members (decision : UniverseDecision) :
    decision.members.length = 60 := by
  rw [DecisionDraft.members, length_sortSymbols, List.length_append,
    List.length_append, decision.valid.core.length,
    decision.valid.boundary.length, decision.valid.probe.length]

theorem pattern_of_mem_members (decision : UniverseDecision) :
    ∀ symbol ∈ decision.members, SymbolPattern symbol := by
  intro symbol member
  rcases DecisionDraft.mem_members.mp member with inCore | inBoundary | inProbe
  · exact decision.valid.core.pattern symbol inCore
  · exact decision.valid.boundary.pattern symbol inBoundary
  · exact decision.valid.probe.pattern symbol inProbe

end UniverseDecision

/-- An operator's replacement of both candidate roles. -/
structure CandidateOverride where
  createdAt : Int
  effectiveAt : Int
  boundary : List String
  probe : List String
  validBoundary : ValidRole 5 boundary
  validProbe : ValidRole 5 probe
  schedule : createdAt ≤ effectiveAt
  midnight : IsMidnight effectiveAt
  distinct : (boundary ++ probe).toFinset.card = 10
deriving DecidableEq

end ShadowDataPlane.Contracts
