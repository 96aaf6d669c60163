import ShadowDataPlane.Central.TypedRow
import ShadowDataPlane.Contracts.Universe

/-!
# Received messages

A websocket message is decoded far enough to know its stream and its symbol,
and becomes a raw event with its bytes as they are.  `decode_websocket` never
raises: what it cannot read is `UNKNOWN`, a control reply is `WS_CONTROL`.
`RawEventV1` checks what it is built from, the symbol against the pattern of
symbols among it, and neither `SourceIdentity.event` nor its caller expects
that check to fail.

The symbol is what the exchange sends.  So a message is recorded exactly if
the symbol it names fits the pattern (`received_iff`), and a message for a
contract with another name, as `!contractInfo` brings it for every contract
with a delivery date, is lost with the connection (`deliveryContract_breaks`).

`orjson.loads` is a parameter: the document of some bytes, or nothing where it
raises `JSONDecodeError`.
-/

namespace ShadowDataPlane.Edge

open ShadowDataPlane.Foundation
open ShadowDataPlane.Contracts
open ShadowDataPlane.Central

/-! ## Raw events -/

/-- What a `RawEventV1` is built from. -/
structure RawEventFields where
  schemaVersion : Int := 1
  exchangeSymbol : Option String
  streamType : StreamType
  collectorId : String
  bootId : String
  segmentId : String
  connectionId : String
  receiveSeq : Int
  appReceiveRealtimeNs : Int
  appReceiveMonotonicNs : Int
  payloadBytes : List UInt8
  requestId : Option String := none
  requestRealtimeNs : Option Int := none
deriving DecidableEq

/-- `RawEventV1.__post_init__`, with the text of its `ValueError`. -/
def RawEventFields.postInit (fields : RawEventFields) : Except String Unit :=
  if fields.schemaVersion ≠ 1 then
    .error "RawEventV1 requires schema_version=1"
  else if ∃ symbol ∈ fields.exchangeSymbol, ¬ SymbolPattern symbol then
    .error "invalid exchange_symbol"
  else if fields.collectorId = "" ∨ fields.bootId = "" ∨
      fields.segmentId = "" then
    .error "collector, boot, and segment identities are required"
  else if fields.connectionId = "" then
    .error "connection_id is required"
  else if fields.receiveSeq < 1 then
    .error "receive_seq must be positive"
  else if min fields.appReceiveRealtimeNs fields.appReceiveMonotonicNs < 0 then
    .error "receive timestamps cannot be negative"
  else if fields.payloadBytes = [] then
    .error "payload_bytes cannot be empty"
  else if fields.requestId.isNone ≠ fields.requestRealtimeNs.isNone then
    .error "REST request identity and timestamp must be supplied together"
  else .ok ()

/-- A raw event exists only with fields which pass. -/
structure RawEventV1 where
  fields : RawEventFields
  valid : fields.postInit = .ok ()

def RawEventFields.build (fields : RawEventFields) :
    Except String RawEventV1 :=
  match valid : fields.postInit with
  | .ok () => .ok ⟨fields, valid⟩
  | .error message => .error message

/-- Where events come from; the ids are those of the configuration and new. -/
structure SourceIdentity where
  collectorId : String
  bootId : String
  segmentId : String
  connectionId : String
  sequence : Nat := 0
  collectorGiven : collectorId ≠ ""
  bootGiven : bootId ≠ ""
  segmentGiven : segmentId ≠ ""
  connectionGiven : connectionId ≠ ""

namespace SourceIdentity

/-- The fields of the next event; no request belongs to a message. -/
def nextFields (identity : SourceIdentity) (streamType : StreamType)
    (exchangeSymbol : Option String) (payload : List UInt8)
    (realtimeNs monotonicNs : Nat) : RawEventFields where
  exchangeSymbol
  streamType
  collectorId := identity.collectorId
  bootId := identity.bootId
  segmentId := identity.segmentId
  connectionId := identity.connectionId
  receiveSeq := identity.sequence + 1
  appReceiveRealtimeNs := realtimeNs
  appReceiveMonotonicNs := monotonicNs
  payloadBytes := payload

/-- `SourceIdentity.event`; the sequence number is spent in any case. -/
def event (identity : SourceIdentity) (streamType : StreamType)
    (exchangeSymbol : Option String) (payload : List UInt8)
    (realtimeNs monotonicNs : Nat) :
    SourceIdentity × Except String RawEventV1 :=
  ({ identity with sequence := identity.sequence + 1 },
    (identity.nextFields streamType exchangeSymbol payload realtimeNs
      monotonicNs).build)

end SourceIdentity

/-! ## Decoding -/

/-- `if value`. -/
def Truthy : Json → Prop
  | .null => False
  | .boolean value => value = true
  | .integer value => value ≠ 0
  | .real repr => repr ≠ "0.0" ∧ repr ≠ "-0.0"
  | .text value => value ≠ ""
  | .array items => items ≠ []
  | .object members => members ≠ []

instance : (value : Json) → Decidable (Truthy value)
  | .null => inferInstanceAs (Decidable False)
  | .boolean _ => inferInstanceAs (Decidable (_ = _))
  | .integer _ => inferInstanceAs (Decidable (_ ≠ _))
  | .real _ => inferInstanceAs (Decidable (_ ∧ _))
  | .text _ => inferInstanceAs (Decidable (_ ≠ _))
  | .array [] => isFalse (not_not.mpr rfl)
  | .array (_ :: _) => isTrue (List.cons_ne_nil _ _)
  | .object [] => isFalse (not_not.mpr rfl)
  | .object (_ :: _) => isTrue (List.cons_ne_nil _ _)

/-- What is read of a message before it becomes an event. -/
structure DecodedWebSocket where
  streamType : StreamType
  symbol : Option String
  message : Option Json
  data : Option Json

section Decode

variable (builtins : Builtins) (lower : String → String)
  (loads : List UInt8 → Option Json)

/-- The streams which an event type names. -/
def eventStreams : List (String × StreamType) :=
  [("bookTicker", .bookTicker), ("aggTrade", .aggTrade), ("trade", .trade),
    ("markPriceUpdate", .markPrice), ("forceOrder", .forceOrder),
    ("contractInfo", .contractInfo)]

/-- `str(value.get(name, ""))`. -/
def memberText (value : Json) (name : String) : String :=
  pythonStr builtins ((value.get? name).getD (.text ""))

/-- A reply to a request on the connection. -/
def IsControl (message : Json) : Prop :=
  (message.get? "result").isSome ∨
    (message.get? "id").isSome ∧ (message.get? "data").isNone

instance (message : Json) : Decidable (IsControl message) :=
  inferInstanceAs (Decidable (_ ∨ _))

/-- The value an event has for its symbol, in its order if it is one. -/
def symbolValue (data : Json) : Option Json :=
  if memberText builtins data "e" = "forceOrder" then
    match data.get? "o" with
    | some (.object order) => getEntry "s" order
    | _ => data.get? "s"
  else data.get? "s"

/-- `str(symbol_value).upper() if symbol_value else None`. -/
def decodedSymbol (data : Json) : Option String :=
  match symbolValue builtins data with
  | none => none
  | some value =>
      if Truthy value then
        some (builtins.upper (pythonStr builtins value))
      else none

/-- The stream of an event. -/
def decodedStream (stream eventType : String) : StreamType :=
  if eventType = "depthUpdate" then
    if "@rpidepth@".toList <:+: stream.toList then .rpiDepth else .depth
  else (getEntry eventType eventStreams).getD .unknown

/-- `decode_websocket`, after the message was found to be an object. -/
def decodeObject (message : Json) : DecodedWebSocket :=
  if IsControl message then ⟨.wsControl, none, some message, none⟩
  else
    let stream := lower (memberText builtins message "stream")
    let data := eventData message
    if ¬ data.IsObject then ⟨.unknown, none, some message, none⟩
    else
      ⟨decodedStream stream (memberText builtins data "e"),
        decodedSymbol builtins data, some message, some data⟩

/-- `decode_websocket`. -/
def decodeWebsocket (raw : List UInt8) : DecodedWebSocket :=
  match loads raw with
  | none => ⟨.unknown, none, none, none⟩
  | some message =>
      if ¬ message.IsObject then ⟨.unknown, none, none, none⟩
      else decodeObject builtins lower message

/-- What the receive loop makes of a message. -/
def receiveMessage (identity : SourceIdentity) (raw : List UInt8)
    (realtimeNs monotonicNs : Nat) :
    SourceIdentity × Except String RawEventV1 :=
  let decoded := decodeWebsocket builtins lower loads raw
  identity.event decoded.streamType decoded.symbol raw realtimeNs monotonicNs

end Decode

/-! ## Building an event -/

theorem RawEventFields.build_of_valid
    {fields : RawEventFields} (valid : fields.postInit = .ok ()) :
    fields.build = .ok ⟨fields, valid⟩ := by
  unfold RawEventFields.build
  split
  next => rfl
  next message failed =>
    rw [valid] at failed
    cases failed

theorem RawEventFields.build_of_invalid
    {fields : RawEventFields} {message : String}
    (failed : fields.postInit = .error message) :
    fields.build = .error message := by
  unfold RawEventFields.build
  split
  next valid =>
    rw [failed] at valid
    cases valid
  next other otherwise =>
    rw [failed] at otherwise
    cases otherwise
    rfl

namespace SourceIdentity

variable (identity : SourceIdentity) (streamType : StreamType)
  (exchangeSymbol : Option String) {payload : List UInt8}
  (realtimeNs monotonicNs : Nat)

/-- Of all checks only that of the symbol can fail. -/
theorem postInit_nextFields (nonempty : payload ≠ []) :
    (identity.nextFields streamType exchangeSymbol payload realtimeNs
        monotonicNs).postInit =
      if ∃ symbol ∈ exchangeSymbol, ¬ SymbolPattern symbol then
        .error "invalid exchange_symbol"
      else .ok () := by
  have positive : ¬ ((identity.sequence : Int) + 1 < 1) := by omega
  have notNegative : ¬ min (realtimeNs : Int) monotonicNs < 0 := by omega
  simp [RawEventFields.postInit, nextFields, identity.collectorGiven,
    identity.bootGiven, identity.segmentGiven, identity.connectionGiven,
    positive, notNegative, nonempty]

theorem event_of_fitting
    (nonempty : payload ≠ [])
    (fits : ∀ symbol ∈ exchangeSymbol, SymbolPattern symbol) :
    ∃ built : RawEventV1,
      built.fields = identity.nextFields streamType exchangeSymbol payload
        realtimeNs monotonicNs ∧
      (identity.event streamType exchangeSymbol payload realtimeNs
        monotonicNs).2 = .ok built := by
  have valid := identity.postInit_nextFields streamType exchangeSymbol
    realtimeNs monotonicNs nonempty
  rw [if_neg (by simpa using fits)] at valid
  exact ⟨_, rfl, RawEventFields.build_of_valid valid⟩

theorem event_of_unfitting
    (nonempty : payload ≠ []) {symbol : String}
    (isSymbol : symbol ∈ exchangeSymbol) (unfit : ¬ SymbolPattern symbol) :
    (identity.event streamType exchangeSymbol payload realtimeNs
      monotonicNs).2 = .error "invalid exchange_symbol" := by
  have failed := identity.postInit_nextFields streamType exchangeSymbol
    realtimeNs monotonicNs nonempty
  rw [if_pos ⟨symbol, isSymbol, unfit⟩] at failed
  exact RawEventFields.build_of_invalid failed

end SourceIdentity

/-! ## What a message names -/

/-- A message which brings an event. -/
structure BringsEvent (message : Json) : Prop where
  isObject : message.IsObject
  notControl : ¬ IsControl message
  dataIsObject : (eventData message).IsObject

section Names

variable (builtins : Builtins) (lower : String → String)
  (loads : List UInt8 → Option Json)

/-- The value which a message has for a symbol. -/
inductive NamesSymbol (message value : Json) : Prop where
  | inOrder {order : List (String × Json)} (brings : BringsEvent message)
      (forced : memberText builtins (eventData message) "e" = "forceOrder")
      (isOrder : (eventData message).get? "o" = some (.object order))
      (named : getEntry "s" order = some value)
  | inEvent (brings : BringsEvent message)
      (plain : memberText builtins (eventData message) "e" = "forceOrder" →
        ∀ order, (eventData message).get? "o" ≠ some (.object order))
      (named : (eventData message).get? "s" = some value)

/-- Whatever symbol a message names, it is one in capital letters and digits. -/
def SymbolFits (raw : List UInt8) : Prop :=
  ∀ message value, loads raw = some message →
    NamesSymbol builtins message value → Truthy value →
      SymbolPattern (builtins.upper (pythonStr builtins value))

/-- One event, with the bytes of the message and the next number. -/
def Recorded (identity : SourceIdentity) (raw : List UInt8)
    (outcome : SourceIdentity × Except String RawEventV1) : Prop :=
  outcome.1.sequence = identity.sequence + 1 ∧
    ∃ event, outcome.2 = .ok event ∧ event.fields.payloadBytes = raw ∧
      event.fields.receiveSeq = identity.sequence + 1

variable {builtins lower loads}

theorem symbolValue_eq_some_iff {message value : Json}
    (brings : BringsEvent message) :
    symbolValue builtins (eventData message) = some value ↔
      NamesSymbol builtins message value := by
  rw [symbolValue]
  constructor
  · intro named
    split at named
    next forced =>
      split at named
      next order isOrder => exact .inOrder brings forced isOrder named
      next noOrder =>
        exact .inEvent brings (fun _ order => noOrder order) named
    next notForced =>
      exact .inEvent brings (fun forced => absurd forced notForced) named
  · intro names
    cases names with
    | inOrder _ forced isOrder named =>
        rw [if_pos forced, isOrder]
        exact named
    | inEvent _ plain named =>
        split
        next forced =>
          split
          next order isOrder => exact absurd isOrder (plain forced order)
          next => exact named
        next => exact named

theorem NamesSymbol.brings {message value : Json}
    (names : NamesSymbol builtins message value) : BringsEvent message := by
  cases names with
  | inOrder brings => exact brings
  | inEvent brings => exact brings

/-- The decoded symbol is the value which the message names, in capitals. -/
theorem mem_symbol_iff {raw : List UInt8} {symbol : String} :
    symbol ∈ (decodeWebsocket builtins lower loads raw).symbol ↔
      ∃ message value, loads raw = some message ∧
        NamesSymbol builtins message value ∧ Truthy value ∧
          builtins.upper (pythonStr builtins value) = symbol := by
  constructor
  · intro decoded
    rw [decodeWebsocket] at decoded
    split at decoded
    next => cases decoded
    next message loaded =>
      split at decoded
      next => cases decoded
      next isObject =>
        rw [decodeObject] at decoded
        split at decoded
        next => cases decoded
        next notControl =>
          dsimp only at decoded
          split at decoded
          next => cases decoded
          next dataIsObject =>
            have brings : BringsEvent message :=
              ⟨not_not.mp isObject, notControl, not_not.mp dataIsObject⟩
            dsimp only [decodedSymbol] at decoded
            split at decoded
            next => cases decoded
            next value named =>
              split at decoded
              next truthy =>
                exact ⟨message, value, loaded,
                  (symbolValue_eq_some_iff brings).mp named, truthy,
                  Option.some.inj decoded⟩
              next => cases decoded
  · rintro ⟨message, value, loaded, names, truthy, rfl⟩
    have named := (symbolValue_eq_some_iff names.brings).mpr names
    have decoded : decodedSymbol builtins (eventData message) =
        some (builtins.upper (pythonStr builtins value)) := by
      rw [decodedSymbol, named]
      exact if_pos truthy
    simp only [decodeWebsocket, loaded, decodeObject,
      if_neg names.brings.notControl,
      if_neg (not_not.mpr names.brings.isObject),
      if_neg (not_not.mpr names.brings.dataIsObject), decoded]
    rfl

/--
A message becomes one event with its bytes and the next number if and only if
the symbol it names fits the pattern.
-/
theorem received_iff
    (identity : SourceIdentity) {raw : List UInt8} (nonempty : raw ≠ [])
    (realtimeNs monotonicNs : Nat) :
    Recorded identity raw (receiveMessage builtins lower loads identity raw
        realtimeNs monotonicNs) ↔
      SymbolFits builtins loads raw := by
  constructor
  · rintro ⟨_, event, received, _⟩ message value loaded names truthy
    by_contra unfit
    have isSymbol : builtins.upper (pythonStr builtins value) ∈
        (decodeWebsocket builtins lower loads raw).symbol :=
      mem_symbol_iff.mpr ⟨message, value, loaded, names, truthy, rfl⟩
    have failed := identity.event_of_unfitting
      (decodeWebsocket builtins lower loads raw).streamType _ realtimeNs
      monotonicNs nonempty isSymbol unfit
    rw [receiveMessage, failed] at received
    cases received
  · intro fits
    refine ⟨rfl, ?_⟩
    have fitting (symbol : String)
        (isSymbol : symbol ∈
          (decodeWebsocket builtins lower loads raw).symbol) :
        SymbolPattern symbol := by
      rcases mem_symbol_iff.mp isSymbol with
        ⟨message, value, loaded, names, truthy, rfl⟩
      exact fits message value loaded names truthy
    rcases identity.event_of_fitting
      (decodeWebsocket builtins lower loads raw).streamType _ realtimeNs
      monotonicNs nonempty fitting with ⟨event, isNext, received⟩
    refine ⟨event, received, ?_⟩
    rw [isNext]
    exact ⟨rfl, rfl⟩

end Names

/-! ## A contract with a delivery date

`!contractInfo` brings the changes of all contracts.  Those with a delivery
date have it in their symbol, after an underscore.
-/

/-- A change of a contract, as `!contractInfo` brings it. -/
def contractInfo (symbol : String) : Json :=
  .object [("stream", .text "!contractInfo"),
    ("data", .object [("e", .text "contractInfo"),
      ("E", .integer 1790323200000), ("s", .text symbol),
      ("ct", .text "CURRENT_QUARTER"), ("dt", .integer 1790323200000),
      ("ot", .integer 1774598400000), ("cs", .text "SETTLING")])]

/-- The bytes of that document. -/
def contractInfoBytes (symbol : String) : List UInt8 :=
  ("\x7b\"stream\":\"!contractInfo\",\"data\":\x7b\"e\":\"contractInfo\"," ++
    "\"E\":1790323200000,\"s\":\"" ++ symbol ++
    "\",\"ct\":\"CURRENT_QUARTER\",\"dt\":1790323200000," ++
    "\"ot\":1774598400000,\"cs\":\"SETTLING\"\x7d\x7d").toList.map
      fun letter => UInt8.ofNat letter.toNat

/-- A reader which knows one document. -/
def loadsContractInfo (symbol : String) (raw : List UInt8) : Option Json :=
  if raw = contractInfoBytes symbol then some (contractInfo symbol) else none

theorem namesSymbol_contractInfo
    {builtins : Builtins} {symbol : String} {value : Json} :
    NamesSymbol builtins (contractInfo symbol) value ↔
      value = .text symbol := by
  have brings : BringsEvent (contractInfo symbol) := by
    constructor
    · trivial
    · rintro (isThere | ⟨isThere, _⟩) <;> cases isThere
    · trivial
  rw [← symbolValue_eq_some_iff brings]
  show some (Json.text symbol) = some value ↔ _
  rw [Option.some.injEq, eq_comm]

theorem marketId_given : "market" ≠ "" := by decide

def marketIdentity : SourceIdentity where
  collectorId := "market"
  bootId := "market"
  segmentId := "market"
  connectionId := "market"
  collectorGiven := marketId_given
  bootGiven := marketId_given
  segmentGiven := marketId_given
  connectionGiven := marketId_given

theorem sample_recorded :
    Recorded marketIdentity (contractInfoBytes "BTCUSDT")
      (receiveMessage plainBuiltins String.toLower
        (loadsContractInfo "BTCUSDT") marketIdentity
        (contractInfoBytes "BTCUSDT") 1000 1000) := by
  apply (received_iff marketIdentity (by decide +kernel) 1000 1000).mpr
  intro message value loaded names _
  rw [loadsContractInfo, if_pos rfl] at loaded
  cases loaded
  cases namesSymbol_contractInfo.mp names
  decide +kernel

/-- The event is not built, and nothing on the way catches the error. -/
theorem deliveryContract_breaks :
    let raw := contractInfoBytes "BTCUSDT_260925"
    let outcome := receiveMessage plainBuiltins String.toLower
      (loadsContractInfo "BTCUSDT_260925") marketIdentity raw 1000 1000
    raw ≠ [] ∧ outcome.2 = .error "invalid exchange_symbol" ∧
      ¬ Recorded marketIdentity raw outcome := by
  intro raw outcome
  have nonempty : raw ≠ [] := by decide +kernel
  have named : "BTCUSDT_260925" ∈ (decodeWebsocket plainBuiltins
      String.toLower (loadsContractInfo "BTCUSDT_260925") raw).symbol := by
    apply mem_symbol_iff.mpr
    refine ⟨contractInfo "BTCUSDT_260925", .text "BTCUSDT_260925",
      if_pos rfl, namesSymbol_contractInfo.mpr rfl, by decide, ?_⟩
    decide +kernel
  have failed : outcome.2 = .error "invalid exchange_symbol" :=
    marketIdentity.event_of_unfitting _ _ 1000 1000 nonempty named
      (by decide +kernel)
  refine ⟨nonempty, failed, ?_⟩
  rintro ⟨_, event, received, _⟩
  rw [failed] at received
  cases received

end ShadowDataPlane.Edge
