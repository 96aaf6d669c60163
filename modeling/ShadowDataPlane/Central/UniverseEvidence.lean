import Mathlib.Data.List.MinMax
import Mathlib.Data.Prod.Lex
import ShadowDataPlane.Contracts.Universe
import ShadowDataPlane.Contracts.UtcDay

/-!
# The universe of a day

`DayNormalizer.run` learns from the raw rows of a day when the formal
collection started and which universe was collected: it takes the decision
with the highest sequence among those which are effective when the collection
window begins, and compares it with the chunk it was found in and with the
formal start.

`universeEvidence` is that part of `run`.  A row is given with the
`universe_hash` of its chunk.  The instants of decisions are microseconds and
those of rows are nanoseconds.
-/

namespace ShadowDataPlane.Central

open ShadowDataPlane.Contracts

/-- Nanoseconds of an instant given in microseconds. -/
def microsecondsNs (instant : Int) : Int := instant * 1000

/-- The payload of a formal start, as it is parsed. -/
structure FormalStart where
  event : String
  experimentId : String
  coreGeneration : Int
  candidateRevision : Int
  decisionSequence : Int
  universeVersion : String
  universeHash : String
deriving DecidableEq

/-- A formal start, when it was received, and the hash of its chunk. -/
structure FormalStartRow where
  observedNs : Nat
  payload : FormalStart
  chunkUniverseHash : String
deriving DecidableEq

/-- A decision with the universe hash of the chunk it was found in. -/
structure UniverseRow where
  decision : UniverseDecision
  chunkUniverseHash : String
deriving DecidableEq

/-- Why a day has no usable universe. -/
inductive EvidenceError where
  | invalidFormalStart
  | noExperimentId
  | invalidVersion
  | noActiveUniverse
  | chunkHashMismatch
  | identityMismatch
deriving DecidableEq, Repr

/-- What `_NORMALIZED.json` says of the universe. -/
structure UniverseMarker where
  collectionWindowStartNs : Nat
  formalStart : Option (Nat × String)
  active : Option UniverseDecision
deriving DecidableEq

/-- `universe_version` of a generation and a revision. -/
def versionText (coreGeneration candidateRevision : Int) : String :=
  toString coreGeneration ++ "." ++ toString candidateRevision

section Source

variable (universeHash : List String → List String → List String → String)

/-- `universe_hash` of a decision. -/
def decisionHash (decision : UniverseDecision) : String :=
  universeHash decision.core decision.boundary decision.probe

/-- `_formal_start_payload`, after the fields have been read. -/
def formalStartPayload (payload : FormalStart) : Except EvidenceError Unit :=
  if payload.event ≠ "FORMAL_COLLECTION_STARTED" then
    .error .invalidFormalStart
  else if payload.experimentId = "" then .error .noExperimentId
  else if payload.coreGeneration < 1 ∨ payload.candidateRevision < 0 ∨
      payload.decisionSequence < 1 ∨
      payload.universeVersion ≠
        versionText payload.coreGeneration payload.candidateRevision then
    .error .invalidVersion
  else .ok ()

/-- The order in which `_active_universe` takes the latest decision. -/
def latestKey (row : UniverseRow) : Nat ×ₗ Int :=
  toLex (row.decision.decisionSequence, row.decision.effectiveAt)

/-- The decisions which are effective at an instant. -/
def effectiveRows (rows : List UniverseRow) (atNs : Nat) :
    List UniverseRow :=
  rows.filter fun row => microsecondsNs row.decision.effectiveAt ≤ atNs

/-- `_active_universe`. -/
def activeUniverse (rows : List UniverseRow) (atNs : Nat) :
    Except EvidenceError (Option UniverseDecision) :=
  match (effectiveRows rows atNs).maxOn? latestKey with
  | none => .ok none
  | some row =>
      if decisionHash universeHash row.decision ≠ row.chunkUniverseHash then
        .error .chunkHashMismatch
      else .ok (some row.decision)

/-- `_validate_formal_start`. -/
def validateFormalStart (row : FormalStartRow) (active : UniverseDecision) :
    Except EvidenceError Unit :=
  if row.payload.coreGeneration = active.coreGeneration ∧
      row.payload.candidateRevision = active.candidateRevision ∧
      row.payload.decisionSequence = active.decisionSequence ∧
      row.payload.universeVersion =
        versionText active.coreGeneration active.candidateRevision ∧
      row.payload.universeHash = decisionHash universeHash active ∧
      row.chunkUniverseHash = decisionHash universeHash active then
    .ok ()
  else .error .identityMismatch

/-- `collection_window_start_ns`, where an instant of 0 counts as none. -/
def windowStartNs (formalStart : Option FormalStartRow) (dayStartNs : Nat) :
    Nat :=
  match formalStart with
  | none => dayStartNs
  | some row => if row.observedNs = 0 then dayStartNs else row.observedNs

/-- The payloads are checked row by row. -/
def checkFormalStarts : List FormalStartRow → Except EvidenceError Unit
  | [] => .ok ()
  | row :: rest =>
      match formalStartPayload row.payload with
      | .error problem => .error problem
      | .ok _ => checkFormalStarts rest

/-- The formal start of the day is compared with its universe. -/
def checkedUniverse (formalStart : Option FormalStartRow)
    (active : Option UniverseDecision) : Except EvidenceError Unit :=
  match formalStart, active with
  | none, _ => .ok ()
  | some _, none => .error .noActiveUniverse
  | some row, some decision => validateFormalStart universeHash row decision

/-- What `run` makes of the formal starts and decisions of a day. -/
def universeEvidence (starts : List FormalStartRow) (rows : List UniverseRow)
    (utcDate : Nat) : Except EvidenceError UniverseMarker :=
  let formalStart := starts.argmin FormalStartRow.observedNs
  let startNs := windowStartNs formalStart (midnightNs utcDate)
  match checkFormalStarts starts with
  | .error problem => .error problem
  | .ok _ =>
      match activeUniverse universeHash rows startNs with
      | .error problem => .error problem
      | .ok active =>
          match checkedUniverse universeHash formalStart active with
          | .error problem => .error problem
          | .ok _ =>
              .ok
                { collectionWindowStartNs := startNs
                  formalStart := formalStart.map fun row =>
                    (row.observedNs, row.payload.experimentId)
                  active }

variable {universeHash}

/-! ## The decision which is taken -/

theorem mem_effectiveRows {rows : List UniverseRow} {atNs : Nat}
    {row : UniverseRow} :
    row ∈ effectiveRows rows atNs ↔
      row ∈ rows ∧ microsecondsNs row.decision.effectiveAt ≤ atNs := by
  simp [effectiveRows]

/-- Without an effective decision there is no universe. -/
theorem activeUniverse_eq_none
    {rows : List UniverseRow} {atNs : Nat}
    (later : ∀ row ∈ rows, (atNs : Int) <
      microsecondsNs row.decision.effectiveAt) :
    activeUniverse universeHash rows atNs = .ok none := by
  have empty : effectiveRows rows atNs = [] := by
    refine List.filter_eq_nil_iff.mpr ?_
    intro row isRow
    simpa using later row isRow
  rw [activeUniverse, empty, List.maxOn?_nil]

/-- The decision which is taken is the latest one. -/
theorem latestKey_le_of_maxOn?
    {rows : List UniverseRow} {row other : UniverseRow}
    (taken : rows.maxOn? latestKey = some row) (isRow : other ∈ rows) :
    latestKey other ≤ latestKey row := by
  have latest := List.le_apply_get_maxOn?_of_mem (f := latestKey) isRow
  simpa only [taken, Option.get_some] using latest

/-- A decision with the highest sequence is taken. -/
theorem activeUniverse_eq_some
    {rows : List UniverseRow} {atNs : Nat} {last : UniverseRow}
    (isEffective : last ∈ effectiveRows rows atNs)
    (highest : ∀ row ∈ effectiveRows rows atNs,
      row.decision.decisionSequence ≤ last.decision.decisionSequence)
    (hashes : ∀ row ∈ effectiveRows rows atNs,
      decisionHash universeHash row.decision = row.chunkUniverseHash) :
    ∃ row ∈ effectiveRows rows atNs,
      row.decision.decisionSequence = last.decision.decisionSequence ∧
        activeUniverse universeHash rows atNs = .ok (some row.decision) := by
  rcases Option.isSome_iff_exists.mp
    (List.isSome_maxOn?_of_mem (f := latestKey) isEffective) with ⟨row, taken⟩
  have isRow := List.maxOn?_mem taken
  have reaches : last.decision.decisionSequence ≤
      row.decision.decisionSequence := by
    rcases Prod.Lex.toLex_le_toLex.mp
      (latestKey_le_of_maxOn? taken isEffective) with below | ⟨same, _⟩
    · exact below.le
    · exact same.le
  refine ⟨row, isRow, le_antisymm (highest row isRow) reaches, ?_⟩
  rw [activeUniverse, taken]
  exact if_neg (not_not.mpr (hashes row isRow))

/-! ## The whole evidence -/

theorem checkFormalStarts_eq_ok
    {starts : List FormalStartRow}
    (valid : ∀ row ∈ starts, formalStartPayload row.payload = .ok ()) :
    checkFormalStarts starts = .ok () := by
  induction starts with
  | nil => rfl
  | cons row rest induction =>
      rw [checkFormalStarts, valid row List.mem_cons_self]
      exact induction fun other inRest =>
        valid other (List.mem_cons_of_mem _ inRest)

/-- The evidence of a day once its universe is known. -/
theorem universeEvidence_eq_ok_iff
    {starts : List FormalStartRow} {rows : List UniverseRow} {utcDate : Nat}
    {active : Option UniverseDecision} {marker : UniverseMarker}
    (valid : ∀ row ∈ starts, formalStartPayload row.payload = .ok ())
    (isActive : activeUniverse universeHash rows
      (windowStartNs (starts.argmin FormalStartRow.observedNs)
        (midnightNs utcDate)) = .ok active) :
    universeEvidence universeHash starts rows utcDate = .ok marker ↔
      checkedUniverse universeHash
          (starts.argmin FormalStartRow.observedNs) active = .ok () ∧
        marker =
          { collectionWindowStartNs :=
              windowStartNs (starts.argmin FormalStartRow.observedNs)
                (midnightNs utcDate)
            formalStart :=
              (starts.argmin FormalStartRow.observedNs).map fun row =>
                (row.observedNs, row.payload.experimentId)
            active } := by
  simp only [universeEvidence, checkFormalStarts_eq_ok valid, isActive]
  cases checkedUniverse universeHash
      (starts.argmin FormalStartRow.observedNs) active with
  | error problem => simp
  | ok _ => simp [eq_comm]

theorem validateFormalStart_eq_ok_iff
    {row : FormalStartRow} {active : UniverseDecision} :
    validateFormalStart universeHash row active = .ok () ↔
      row.payload.coreGeneration = active.coreGeneration ∧
        row.payload.candidateRevision = active.candidateRevision ∧
        row.payload.decisionSequence = active.decisionSequence ∧
        row.payload.universeVersion =
          versionText active.coreGeneration active.candidateRevision ∧
        row.payload.universeHash = decisionHash universeHash active ∧
        row.chunkUniverseHash = decisionHash universeHash active := by
  unfold validateFormalStart
  split <;> simp_all

end Source

end ShadowDataPlane.Central
