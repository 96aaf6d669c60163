import ShadowDataPlane.Central.TypedRow
import ShadowDataPlane.Foundation.StableSort

/-!
# Replays of a row

Two connections which overlap deliver the same event twice, each in a wrapper of
its own and with the members of its objects in an order of its own.  The two
rows then have the same identity and the same payload hash.
-/

namespace ShadowDataPlane.Central

open ShadowDataPlane.Contracts
open ShadowDataPlane.Foundation

/-- A value which is neither an array nor an object. -/
def Json.scalar? : Json → Option Json
  | .array _ | .object _ => none
  | value => some value

namespace Json.Reordered

/-! ## What a reordered document shows -/

/-- Either both values are missing, or the one is a reordering of the other. -/
def Missing (left right : Option Json) : Prop :=
  match left, right with
  | none, none => True
  | some value, some other => Json.Reordered value other
  | _, _ => False

theorem missing_refl (value : Option Json) : Missing value value := by
  cases value with
  | none => trivial
  | some value => exact .refl value

theorem missing_trans
    {first second third : Option Json} (before : Missing first second)
    (after : Missing second third) : Missing first third := by
  cases first <;> cases second <;> cases third <;>
    first | trivial | exact before.elim | exact after.elim |
      exact .trans before after

theorem getEntry_perm
    {members others : List (String × Json)} (perm : members.Perm others)
    (distinct : (members.map Prod.fst).Nodup) (name : String) :
    getEntry name members = getEntry name others := by
  have othersDistinct : (others.map Prod.fst).Nodup :=
    (perm.map Prod.fst).nodup_iff.mp distinct
  cases found : getEntry name members with
  | some value =>
      exact (getEntry_of_mem othersDistinct
        (perm.mem_iff.mp (mem_of_getEntry_eq_some found))).symm
  | none =>
      rw [getEntry_eq_none_iff, (perm.map Prod.fst).mem_iff] at found
      exact (getEntry_eq_none_iff.mpr found).symm

theorem getEntry_member
    {name : String} {value other : Json}
    (before after : List (String × Json))
    (inner : Json.Reordered value other) (asked : String) :
    Missing (getEntry asked (before ++ (name, value) :: after))
      (getEntry asked (before ++ (name, other) :: after)) := by
  induction before with
  | nil =>
      rw [List.nil_append, List.nil_append, getEntry, getEntry]
      split
      next => exact inner
      next => exact missing_refl _
  | cons head rest induction =>
      rw [List.cons_append, List.cons_append, getEntry, getEntry]
      split
      next => exact missing_refl _
      next => exact induction

/-- Members are found by name. -/
theorem get?
    {value other : Json} (reordered : Json.Reordered value other)
    (name : String) : Missing (value.get? name) (other.get? name) := by
  induction reordered with
  | refl => exact missing_refl _
  | trans _ _ first second => exact missing_trans first second
  | permute distinct perm =>
      rw [Json.get?, Json.get?, getEntry_perm perm distinct]
      exact missing_refl _
  | member before after inner _ => exact getEntry_member before after inner name
  | item => trivial

theorem isObject_iff
    {value other : Json} (reordered : Json.Reordered value other) :
    value.IsObject ↔ other.IsObject := by
  induction reordered with
  | refl => exact Iff.rfl
  | trans _ _ first second => exact first.trans second
  | permute | member | item => exact Iff.rfl

/-- A value which is no container is left as it is. -/
theorem scalar?
    {value other : Json} (reordered : Json.Reordered value other) :
    value.scalar? = other.scalar? := by
  induction reordered with
  | refl => rfl
  | trans _ _ first second => exact first.trans second
  | permute | member | item => rfl

/-- An array keeps the order of its items. -/
theorem items
    {value other : Json} (reordered : Json.Reordered value other) :
    ∀ items, value = .array items →
      ∃ others, other = .array others ∧
        List.Forall₂ Json.Reordered items others := by
  induction reordered with
  | refl =>
      rintro items rfl
      exact ⟨items, rfl, List.forall₂_same.mpr fun item _ => .refl item⟩
  | trans _ _ first second =>
      intro items isArray
      rcases first items isArray with ⟨middle, isMiddle, before⟩
      rcases second middle isMiddle with ⟨others, isOther, after⟩
      refine ⟨others, isOther, ?_⟩
      clear first second isArray isMiddle isOther
      induction before generalizing others with
      | nil =>
          cases after
          exact List.Forall₂.nil
      | cons head _ induction =>
          cases after with
          | cons next rest =>
              exact List.Forall₂.cons (.trans head next) (induction _ rest)
  | permute => rintro items ⟨⟩
  | member => rintro items ⟨⟩
  | @item value other before after inner _ =>
      rintro _ ⟨⟩
      refine ⟨_, rfl, ?_⟩
      apply List.rel_append
      · exact List.forall₂_same.mpr fun item _ => .refl item
      · exact List.Forall₂.cons inner
          (List.forall₂_same.mpr fun item _ => .refl item)

theorem symm
    {value other : Json} (reordered : Json.Reordered value other) :
    Json.Reordered other value := by
  induction reordered with
  | refl value => exact .refl value
  | trans _ _ first second => exact .trans second first
  | permute distinct perm =>
      exact .permute ((perm.map Prod.fst).nodup_iff.mp distinct) perm.symm
  | member before after _ inner => exact .member before after inner
  | item before after _ inner => exact .item before after inner

theorem numeral?
    {value other : Json} (reordered : Json.Reordered value other) :
    value.numeral? = other.numeral? := by
  have numeral (value : Json) :
      value.numeral? = value.scalar?.bind Json.numeral? := by
    cases value <;> rfl
  rw [numeral value, numeral other, reordered.scalar?]

/-- A value is the same, or a container again. -/
theorem eq_or_containers
    {value other : Json} (reordered : Json.Reordered value other) :
    value = other ∨ value.scalar? = none ∧ other.scalar? = none := by
  have same := reordered.scalar?
  cases isScalar : value.scalar? with
  | none => exact Or.inr ⟨rfl, same.symm.trans isScalar⟩
  | some scalar =>
      rw [isScalar] at same
      have itself (value scalar : Json) (is : value.scalar? = some scalar) :
          value = scalar := by
        cases value <;> cases is <;> rfl
      exact Or.inl ((itself value scalar isScalar).trans
        (itself other scalar same.symm).symm)

end Json.Reordered

/-! ## The payload hash -/

section Dumps

variable (builtins : Builtins)

theorem dumpsMembers_eq_map (members : List (String × Json)) :
    dumpsMembers builtins members =
      members.map fun member => (member.1, dumps builtins member.2) := by
  induction members with
  | nil => rfl
  | cons member rest induction => rw [dumpsMembers, induction, List.map_cons]

theorem dumpsItems_eq_map (items : List Json) :
    dumpsItems builtins items = items.map (dumps builtins) := by
  induction items with
  | nil => rfl
  | cons item rest induction => rw [dumpsItems, induction, List.map_cons]

/-- The hash of a payload does not depend on the order of members. -/
theorem dumps_reordered
    {value other : Json} (reordered : Json.Reordered value other) :
    dumps builtins value = dumps builtins other := by
  induction reordered with
  | refl => rfl
  | trans _ _ first second => exact first.trans second
  | permute distinct perm =>
      rw [dumps, dumps, dumpMembers, dumpMembers, dumpsMembers_eq_map,
        dumpsMembers_eq_map, sortMembers, sortMembers,
        insertionSort_perm (perm.map _)]
      rw [List.map_map]
      exact distinct
  | member before after _ same =>
      rw [dumps, dumps, dumpsMembers_eq_map, dumpsMembers_eq_map]
      simp only [List.map_append, List.map_cons, same]
  | item before after _ same =>
      rw [dumps, dumps, dumpsItems_eq_map, dumpsItems_eq_map]
      simp only [List.map_append, List.map_cons, same]

end Dumps

/-! ## The fields -/

section Fields

variable {builtins : Builtins} {δ : Type} [DecimalArithmetic δ]
  {data other : Json}

/-- A member is missing from both documents, equal, or a container in both. -/
theorem get?_cases
    (reordered : Json.Reordered data other) (key : String) :
    data.get? key = other.get? key ∨
      ∃ value container, data.get? key = some value ∧
        other.get? key = some container ∧
        Json.Reordered value container ∧
        value.scalar? = none ∧ container.scalar? = none := by
  have shown := reordered.get? key
  cases isValue : data.get? key with
  | none =>
      cases isOther : other.get? key with
      | none => exact Or.inl rfl
      | some => rw [isValue, isOther] at shown; exact shown.elim
  | some value =>
      cases isOther : other.get? key with
      | none => rw [isValue, isOther] at shown; exact shown.elim
      | some container =>
          rw [isValue, isOther] at shown
          rcases Json.Reordered.eq_or_containers shown with rfl | ⟨left, right⟩
          · exact Or.inl rfl
          · exact Or.inr ⟨value, container, rfl, rfl, shown, left, right⟩

theorem intField_reordered
    (reordered : Json.Reordered data other) (key : String) :
    intField builtins δ data key = intField builtins δ other key := by
  unfold intField
  rcases get?_cases reordered key with
    same | ⟨value, container, isValue, isOther, _, left, right⟩
  · rw [same]
  · rw [isValue, isOther]
    cases value <;> cases left <;> cases container <;> cases right <;> rfl

theorem boolField_reordered
    (reordered : Json.Reordered data other) (key : String) :
    boolField data key = boolField other key := by
  unfold boolField
  rcases get?_cases reordered key with
    same | ⟨value, container, isValue, isOther, _, left, right⟩
  · rw [same]
  · rw [isValue, isOther]
    cases value <;> cases left <;> cases container <;> cases right <;> rfl

theorem decimalValue_reordered
    {value container : Json} (reordered : Json.Reordered value container)
    (key : String) (allowZero allowNegative : Bool) :
    decimalValue (δ := δ) (some value) key allowZero allowNegative =
      decimalValue (some container) key allowZero allowNegative := by
  rw [decimalValue, decimalValue, Option.bind_some, Option.bind_some,
    reordered.numeral?]

theorem decimalField_reordered
    (reordered : Json.Reordered data other) (key : String)
    (allowZero allowNegative : Bool) :
    decimalField (δ := δ) data key allowZero allowNegative =
      decimalField other key allowZero allowNegative := by
  rw [decimalField, decimalField]
  rcases get?_cases reordered key with
    same | ⟨value, container, isValue, isOther, inner, _, _⟩
  · rw [same]
  · rw [isValue, isOther, decimalValue_reordered inner]

theorem optionalDecimalField_reordered
    (reordered : Json.Reordered data other) (key : String) :
    optionalDecimalField (δ := δ) data key =
      optionalDecimalField other key := by
  rw [optionalDecimalField, optionalDecimalField,
    decimalField_reordered reordered]
  rcases get?_cases reordered key with
    same | ⟨value, container, isValue, isOther, _, _, _⟩
  · rw [same]
  · rw [isValue, isOther]

theorem levelOf_reordered
    {level replayed : Json} (reordered : Json.Reordered level replayed)
    (key : String) :
    levelOf (δ := δ) key level = levelOf key replayed := by
  rcases reordered.eq_or_containers with rfl | ⟨left, right⟩
  · rfl
  · cases level with
    | array items =>
        rcases reordered.items items rfl with ⟨others, rfl, each⟩
        cases each with
        | nil => rfl
        | cons price rest =>
            cases rest with
            | nil => rfl
            | cons quantity _ =>
                rw [levelOf, levelOf, decimalValue_reordered price,
                  decimalValue_reordered quantity]
    | object members =>
        cases replayed with
        | array items =>
            rcases reordered.symm.items items rfl with ⟨_, isArray, _⟩
            cases isArray
        | object => rfl
        | _ => cases right
    | _ => cases left

theorem levelsField_reordered
    (reordered : Json.Reordered data other) (key : String) :
    levelsField (δ := δ) data key = levelsField other key := by
  unfold levelsField
  rcases get?_cases reordered key with
    same | ⟨value, container, isValue, isOther, inner, left, right⟩
  · rw [same]
  · rw [isValue, isOther]
    cases value with
    | array levels =>
        rcases inner.items levels rfl with ⟨others, rfl, each⟩
        clear inner isOther isValue left right
        induction each with
        | nil => rfl
        | cons level _ induction =>
            dsimp only at induction ⊢
            rw [List.mapM_cons, List.mapM_cons, levelOf_reordered level,
              induction]
    | object =>
        cases container with
        | array items =>
            rcases inner.symm.items items rfl with ⟨_, isArray, _⟩
            cases isArray
        | object => rfl
        | _ => cases right
    | _ => cases left

theorem requireEvent_reordered
    (reordered : Json.Reordered data other) {expected : String}
    (required : requireEvent builtins data expected = .ok ()) :
    requireEvent builtins other expected = .ok () := by
  unfold requireEvent at required ⊢
  rcases get?_cases reordered "e" with
    same | ⟨value, container, isValue, isOther, _, left, _⟩
  · rw [← same]
    split at required
    next isText => rw [if_pos isText]
    next => cases required
  · rw [isValue] at required
    cases value <;> cases left <;> cases required

/-! ## Bodies -/

theorem tradeBody_reordered
    (reordered : Json.Reordered data other) {body : RowBody δ}
    (parsed : tradeBody builtins data = .ok body) :
    tradeBody builtins other = .ok body := by
  rw [tradeBody] at parsed ⊢
  rcases bind_eq_ok_iff.mp parsed with ⟨_, required, rest⟩
  rw [requireEvent_reordered reordered required, ok_bind]
  simpa only [intField_reordered reordered, decimalField_reordered reordered,
    boolField_reordered reordered] using rest

theorem aggTradeBody_reordered
    (reordered : Json.Reordered data other) {body : RowBody δ}
    (parsed : aggTradeBody builtins data = .ok body) :
    aggTradeBody builtins other = .ok body := by
  rw [aggTradeBody] at parsed ⊢
  rcases bind_eq_ok_iff.mp parsed with ⟨_, required, rest⟩
  rw [requireEvent_reordered reordered required, ok_bind]
  simpa only [intField_reordered reordered, decimalField_reordered reordered,
    boolField_reordered reordered, optionalDecimalField_reordered reordered]
    using rest

theorem depthBody_reordered
    (reordered : Json.Reordered data other) {body : RowBody δ}
    (parsed : depthBody builtins data = .ok body) :
    depthBody builtins other = .ok body := by
  rw [depthBody] at parsed ⊢
  rcases bind_eq_ok_iff.mp parsed with ⟨_, required, rest⟩
  rw [requireEvent_reordered reordered required, ok_bind]
  simpa only [intField_reordered reordered, levelsField_reordered reordered]
    using rest

end Fields

/-! ## Replays -/

/-- The streams which are audited by their totals. -/
def auditStreams : List StreamType := [.trade, .aggTrade, .depth, .rpiDepth]

section Parse

variable {builtins : Builtins} {δ : Type} [DecimalArithmetic δ]

/--
The same event once more, on whichever connection, in whichever wrapper and
with its members in whichever order.
-/
structure IsReplay (builtins : Builtins) (original replay : RawRow) : Prop where
  streamType : replay.streamType = original.streamType
  symbol : rowSymbol builtins replay = rowSymbol builtins original
  data : Json.Reordered (eventData original.payload) (eventData replay.payload)

theorem rowBody_reordered
    {data other : Json} (reordered : Json.Reordered data other)
    {stream : StreamType} (audited : stream ∈ auditStreams)
    {body : RowBody δ} (parsed : rowBody builtins stream data = .ok (some body)) :
    rowBody builtins stream other = .ok (some body) := by
  have mapped (read : Json → Except RowError (RowBody δ))
      (kept : ∀ {body}, read data = .ok body → read other = .ok body)
      (some : (read data).map some = .ok (some body)) :
      (read other).map Option.some = .ok (Option.some body) := by
    cases isRead : read data with
    | error problem => rw [isRead] at some; cases some
    | ok value =>
        rw [isRead] at some
        cases some
        rw [kept isRead]
        rfl
  simp only [auditStreams, List.mem_cons, List.not_mem_nil, or_false] at audited
  rcases audited with rfl | rfl | rfl | rfl
  · exact mapped _ (tradeBody_reordered reordered) parsed
  · exact mapped _ (aggTradeBody_reordered reordered) parsed
  · exact mapped _ (depthBody_reordered reordered) parsed
  · exact mapped _ (depthBody_reordered reordered) parsed

/-- The body of an audited stream has an identity. -/
theorem rowBody_audited
    {stream : StreamType} (audited : stream ∈ auditStreams) {data : Json}
    {body : Option (RowBody δ)}
    (parsed : rowBody builtins stream data = .ok body) (payloadHash : String) :
    ∃ columns event,
      body = some columns ∧ columns.eventId payloadHash = some event := by
  have mapped {computed : Except RowError (RowBody δ)}
      (some : computed.map some = .ok body) :
      ∃ columns, computed = .ok columns ∧ body = Option.some columns := by
    cases computed with
    | error problem => cases some
    | ok columns =>
        cases some
        exact ⟨columns, rfl, rfl⟩
  simp only [auditStreams, List.mem_cons, List.not_mem_nil, or_false] at audited
  rcases audited with rfl | rfl | rfl | rfl <;>
    rcases mapped parsed with ⟨columns, isBody, rfl⟩
  · simp only [tradeBody, bind_eq_ok_iff] at isBody
    rcases isBody with ⟨_, _, _, _, _, _, _, _, _, _, _, _, _, _, ⟨⟩⟩
    exact ⟨_, _, rfl, rfl⟩
  · simp only [aggTradeBody, bind_eq_ok_iff] at isBody
    rcases isBody with ⟨_, _, _, _, _, _, _, _, _, _, _, _, _, _, _, _, _, _,
      _, _, ⟨⟩⟩
    exact ⟨_, _, rfl, rfl⟩
  · simp only [depthBody, bind_eq_ok_iff] at isBody
    rcases isBody with ⟨_, _, _, _, _, _, _, _, _, _, _, _, _, _, _, _, ⟨⟩⟩
    exact ⟨_, _, rfl, rfl⟩
  · simp only [depthBody, bind_eq_ok_iff] at isBody
    rcases isBody with ⟨_, _, _, _, _, _, _, _, _, _, _, _, _, _, _, _, ⟨⟩⟩
    exact ⟨_, _, rfl, rfl⟩

/-- A row of a typed stream is its header and what its stream reads. -/
theorem parseTypedRow_typed
    {row : RawRow} {parsed : Option (TypedRow δ)}
    (isTyped : row.streamType ∈ typedStreams)
    (isParsed : parseTypedRow builtins row = .ok parsed) :
    ∃ body, rowBody builtins row.streamType (eventData row.payload) = .ok body ∧
      parsed = body.map (TypedRow.mk (rowHeader builtins row)) := by
  unfold parseTypedRow at isParsed
  dsimp only at isParsed
  rw [if_neg (not_not.mpr isTyped)] at isParsed
  split at isParsed
  next => cases isParsed
  next =>
    split at isParsed
    next => cases isParsed
    next =>
      split at isParsed
      next => cases isParsed
      next =>
        rcases bind_eq_ok_iff.mp isParsed with ⟨body, isBody, ⟨⟩⟩
        exact ⟨body, isBody, rfl⟩

/-- A row of an audited stream is typed and has an identity. -/
theorem parseTypedRow_audited
    {row : RawRow} {parsed : Option (TypedRow δ)}
    (audited : row.streamType ∈ auditStreams)
    (isParsed : parseTypedRow builtins row = .ok parsed) :
    ∃ typed identity,
      parsed = some typed ∧ logicalIdentity typed = some identity := by
  have isTyped : row.streamType ∈ typedStreams := by
    revert audited
    cases row.streamType <;> decide
  rcases parseTypedRow_typed isTyped isParsed with ⟨body, isBody, rfl⟩
  rcases rowBody_audited audited isBody (rowHeader builtins row).payloadHash
    with ⟨columns, event, rfl, isEvent⟩
  have isIdentity :
      logicalIdentity ⟨rowHeader builtins row, columns⟩ =
        some ⟨row.streamType, rowSymbol builtins row, event⟩ := by
    rw [logicalIdentity, isEvent]
    rfl
  exact ⟨_, _, rfl, isIdentity⟩

/-- A typed row is the header and the body of its raw row. -/
theorem parseTypedRow_eq_some_iff
    {row : RawRow} {typed : TypedRow δ} :
    parseTypedRow builtins row = .ok (some typed) ↔
      row.streamType ∈ typedStreams ∧ row.payload.IsObject ∧
        (eventData row.payload).IsObject ∧
        ((rowSymbol builtins row).getD "" = "" → row.streamType = .clockSample) ∧
        typed.header = rowHeader builtins row ∧
        rowBody builtins row.streamType (eventData row.payload) =
          .ok (some typed.body) := by
  have assembled (parsed : Except RowError (Option (RowBody δ))) :
      (do
        let body ← parsed
        return body.map fun body => TypedRow.mk (rowHeader builtins row) body) =
          .ok (some typed) ↔
        typed.header = rowHeader builtins row ∧
          parsed = .ok (some typed.body) := by
    rcases typed with ⟨header, columns⟩
    rw [bind_eq_ok_iff]
    constructor
    · rintro ⟨body, rfl, isBody⟩
      cases body with
      | none => cases isBody
      | some body =>
          cases isBody
          exact ⟨rfl, rfl⟩
    · rintro ⟨rfl, rfl⟩
      exact ⟨_, rfl, rfl⟩
  unfold parseTypedRow
  dsimp only
  by_cases isTyped : row.streamType ∈ typedStreams
  · rw [if_neg (not_not.mpr isTyped)]
    by_cases isObject : row.payload.IsObject
    · rw [if_neg (not_not.mpr isObject)]
      by_cases isData : (eventData row.payload).IsObject
      · rw [if_neg (not_not.mpr isData)]
        by_cases isNamed : (rowSymbol builtins row).getD "" = "" ∧
            row.streamType ≠ .clockSample
        · rw [if_pos isNamed]
          constructor
          · rintro ⟨⟩
          · rintro ⟨_, _, _, named, _, _⟩
            exact absurd (named isNamed.1) isNamed.2
        · rw [if_neg isNamed, assembled]
          have named : (rowSymbol builtins row).getD "" = "" →
              row.streamType = .clockSample :=
            fun missing => by_contra fun other => isNamed ⟨missing, other⟩
          simp only [isTyped, isObject, isData, true_and]
          rw [and_iff_right named]
      · simp [isData]
    · simp [isObject]
  · rw [if_pos isTyped]
    simp only [isTyped, false_and, iff_false]
    split
    · rintro ⟨⟩
    · split
      · rintro ⟨⟩
      · rintro ⟨⟩

/-- A replay is read as its original, but for where it was received. -/
theorem parseTypedRow_replay
    {original replay : RawRow} {typed : TypedRow δ}
    (audited : original.streamType ∈ auditStreams)
    (again : IsReplay builtins original replay)
    (parsed : parseTypedRow builtins original = .ok (some typed)) :
    parseTypedRow builtins replay =
      .ok (some ⟨rowHeader builtins replay, typed.body⟩) := by
  rcases parseTypedRow_eq_some_iff.mp parsed with
    ⟨isTyped, _, isData, named, _, isBody⟩
  have replayData : (eventData replay.payload).IsObject :=
    again.data.isObject_iff.mp isData
  apply parseTypedRow_eq_some_iff.mpr
  rw [again.streamType, again.symbol]
  refine ⟨isTyped, ?_, replayData, named, rfl,
    rowBody_reordered again.data audited isBody⟩
  by_contra notObject
  -- A payload which is no object has no members, so it is its own event.
  have bare : eventData replay.payload = replay.payload := by
    rw [eventData]
    cases isPayload : replay.payload with
    | object members => rw [isPayload] at notObject; exact absurd trivial notObject
    | _ => rfl
  rw [bare] at replayData
  exact notObject replayData

omit [DecimalArithmetic δ] in
/-- A replay is the same event, with the same payload. -/
theorem logicalIdentity_replay
    {original replay : RawRow} {typed : TypedRow δ}
    (again : IsReplay builtins original replay)
    (header : typed.header = rowHeader builtins original) :
    (rowHeader builtins replay).payloadHash = typed.header.payloadHash ∧
      logicalIdentity ⟨rowHeader builtins replay, typed.body⟩ =
        logicalIdentity typed := by
  have payloadHash :
      (rowHeader builtins replay).payloadHash = typed.header.payloadHash := by
    rw [header]
    exact (dumps_reordered builtins again.data).symm
  refine ⟨payloadHash, ?_⟩
  rw [logicalIdentity, logicalIdentity, payloadHash, header]
  simp only [rowHeader, again.streamType, again.symbol]

end Parse

end ShadowDataPlane.Central
