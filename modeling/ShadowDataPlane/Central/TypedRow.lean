import ShadowDataPlane.Central.Discovery
import ShadowDataPlane.Contracts.Gap

/-!
# Typed rows

`parse_typed_row` reads a raw event into the columns of its stream, and
`logical_identity` says which rows are the same event.  A payload is given
decoded; its hash is kept by value, as the text which is hashed.

`Json.Reordered` relates documents which differ in the order of the members of
their objects.  A row reads members by name and hashes them sorted, so it does
not depend on that order.
-/

namespace ShadowDataPlane.Central

open ShadowDataPlane.Contracts
open ShadowDataPlane.Foundation
open DecimalArithmetic

/-- What the code uses of the built-in functions of Python and of `orjson`. -/
structure Builtins where
  /-- `str.upper`. -/
  upper : String → String
  /-- `str` of an array or an object. -/
  str : Json → String
  /-- `repr` of a value which may be missing. -/
  repr : Option Json → String
  /-- `int` of a floating point number, given by its `repr`. -/
  truncate : String → Option Int
  /-- The text of a string in a JSON document. -/
  quote : String → String

/-- They are used on plain texts only. -/
def plainBuiltins : Builtins where
  upper := String.toUpper
  str _ := ""
  repr _ := ""
  truncate _ := none
  quote text := "\"" ++ text ++ "\""

/-- What `parse_typed_row` raises, itself or through a built-in function. -/
inductive RowError where
  | value (message : String)
  | builtin
deriving DecidableEq, Repr

/-! ## Sorted documents -/

/-- Members in the order of their names. -/
def sortMembers (members : List (String × String)) : List (String × String) :=
  members.insertionSort fun left right => left.1 ≤ right.1

section Dumps

variable (builtins : Builtins)

/-- Members which are already written out. -/
def dumpMembers (members : List (String × String)) : String :=
  "\x7b" ++ String.intercalate ","
    ((sortMembers members).map fun member =>
      builtins.quote member.1 ++ ":" ++ member.2) ++ "\x7d"

mutual

/-- `orjson.dumps(value, option=orjson.OPT_SORT_KEYS)`. -/
def dumps : Json → String
  | .null => "null"
  | .boolean value => if value then "true" else "false"
  | .integer value => toString value
  | .real repr => repr
  | .text value => builtins.quote value
  | .array items => "[" ++ String.intercalate "," (dumpsItems items) ++ "]"
  | .object members => dumpMembers builtins (dumpsMembers members)

def dumpsItems : List Json → List String
  | [] => []
  | item :: rest => dumps item :: dumpsItems rest

def dumpsMembers : List (String × Json) → List (String × String)
  | [] => []
  | member :: rest => (member.1, dumps member.2) :: dumpsMembers rest

end

end Dumps

/-- Documents which differ in the order of the members of their objects. -/
inductive Json.Reordered : Json → Json → Prop where
  | refl (value : Json) : Json.Reordered value value
  | trans {first second third : Json} (before : Json.Reordered first second)
      (after : Json.Reordered second third) : Json.Reordered first third
  | permute {members others : List (String × Json)}
      (distinct : (members.map Prod.fst).Nodup) (perm : members.Perm others) :
      Json.Reordered (.object members) (.object others)
  | member {name : String} {value other : Json}
      (before after : List (String × Json))
      (inner : Json.Reordered value other) :
      Json.Reordered (.object (before ++ (name, value) :: after))
        (.object (before ++ (name, other) :: after))
  | item {value other : Json} (before after : List Json)
      (inner : Json.Reordered value other) :
      Json.Reordered (.array (before ++ value :: after))
        (.array (before ++ other :: after))

/-! ## Reading fields -/

section Fields

variable (builtins : Builtins) {δ : Type} [DecimalArithmetic δ]

/-- `str(value)`. -/
def pythonStr : Json → String
  | .null => "None"
  | .boolean value => if value then "True" else "False"
  | .integer value => toString value
  | .real repr => repr
  | .text value => value
  | container => builtins.str container

/-- `_int`. -/
def intField (δ : Type) [DecimalArithmetic δ] (data : Json) (key : String) :
    Except RowError Int :=
  match data.get? key with
  | some (.boolean _) => .error (.value (key ++ " must be an integer"))
  | some (.integer value) => .ok value
  | some (.real repr) =>
      match builtins.truncate repr with
      | none => .error .builtin
      | some value => .ok value
  | some (.text value) =>
      match readInteger δ value with
      | none => .error .builtin
      | some value => .ok value
  | _ => .error .builtin

/-- `_optional_int`. -/
def optionalIntField (δ : Type) [DecimalArithmetic δ] (data : Json)
    (key : String) : Except RowError (Option Int) :=
  match data.get? key with
  | none => .ok none
  | some _ => (intField builtins δ data key).map some

/-- `_bool`. -/
def boolField (data : Json) (key : String) : Except RowError Bool :=
  match data.get? key with
  | none => .error .builtin
  | some (.boolean value) => .ok value
  | some _ => .error (.value (key ++ " must be a boolean"))

/-- The checks of `_decimal` on a value which may be missing. -/
def decimalValue (value : Option Json) (key : String)
    (allowZero allowNegative : Bool) : Except RowError δ :=
  match (value.bind Json.numeral?).bind readDecimal with
  | none => .error (.value (key ++ " must be a decimal"))
  | some (parsed : δ) =>
      if ¬ isFinite parsed then .error (.value (key ++ " must be finite"))
      else if parsed < ofInteger 0 ∧ ¬ allowNegative then
        .error (.value (key ++ " cannot be negative"))
      else if parsed = ofInteger 0 ∧ ¬ allowZero then
        .error (.value (key ++ " must be positive"))
      else .ok parsed

/-- `_decimal`. -/
def decimalField (data : Json) (key : String)
    (allowZero allowNegative : Bool := false) : Except RowError δ :=
  decimalValue (data.get? key) key allowZero allowNegative

/-- `_optional_decimal`. -/
def optionalDecimalField (data : Json) (key : String) :
    Except RowError (Option δ) :=
  match data.get? key with
  | none => .ok none
  | some _ => (decimalField data key true).map some

/-- One level of a book side. -/
def levelOf (key : String) : Json → Except RowError (δ × δ)
  | .array (price :: quantity :: _) => do
      let price ← decimalValue (some price) "p" false false
      let quantity ← decimalValue (some quantity) "q" true false
      return (price, quantity)
  | _ => .error (.value ("invalid level in " ++ key))

/-- `_levels`. -/
def levelsField (data : Json) (key : String) :
    Except RowError (List (δ × δ)) :=
  match data.get? key with
  | some (.array levels) => levels.mapM (levelOf key)
  | _ => .error (.value (key ++ " must be an array"))

/-- `_require_event`. -/
def requireEvent (data : Json) (expected : String) : Except RowError Unit :=
  if Json.isText expected (data.get? "e") then .ok ()
  else
    .error (.value ("expected Binance event '" ++ expected ++ "', got " ++
      builtins.repr (data.get? "e")))

/-- `str(data[key])`. -/
def textField (data : Json) (key : String) : Except RowError String :=
  match data.get? key with
  | none => .error .builtin
  | some value => .ok (pythonStr builtins value)

end Fields

/-! ## Rows -/

/-- A raw event, its payload decoded. -/
structure RawRow where
  exchangeSymbol : Option String := none
  streamType : StreamType
  connectionId : String
  receiveSeq : Int
  appReceiveRealtimeNs : Nat
  appReceiveMonotonicNs : Int
  requestRealtimeNs : Option Int := none
  payload : Json

/-- The columns which every stream fills. -/
structure RowHeader where
  exchangeSymbol : Option String
  streamType : StreamType
  connectionId : String
  receiveSeq : Int
  appReceiveRealtimeNs : Nat
  appReceiveMonotonicNs : Int
  requestRealtimeNs : Option Int
  payloadHash : String
  isDuplicate : Bool := false
deriving DecidableEq

/-- The columns of a stream. -/
inductive RowBody (δ : Type) where
  | depth (eventTimeMs transactionTimeMs : Int)
      (firstUpdateId finalUpdateId previousFinalUpdateId : Int)
      (bids asks : List (δ × δ))
  | depthSnapshot (eventTimeMs transactionTimeMs : Option Int)
      (lastUpdateId : Int) (bids asks : List (δ × δ))
  | bookTicker (eventTimeMs transactionTimeMs updateId : Int)
      (bidPrice bidQuantity askPrice askQuantity : δ)
  | aggTrade (eventTimeMs transactionTimeMs : Int) (price quantity : δ)
      (buyerIsMaker : Bool)
      (aggregateTradeId firstTradeId lastTradeId : Int)
      (nonRpiQuantity : Option δ)
  | trade (eventTimeMs transactionTimeMs : Int) (price quantity : δ)
      (buyerIsMaker : Bool) (tradeId : Int)
  | markPrice (eventTimeMs : Int)
      (markPrice indexPrice estimatedSettlePrice fundingRate : δ)
      (nextFundingTimeMs : Int)
  | forceOrder (eventTimeMs transactionTimeMs : Int)
      (side orderType timeInForce orderStatus : String)
      (price quantity averagePrice lastFilledQuantity : δ)
      (accumulatedFilledQuantity : δ)
  | contractInfo (eventTimeMs : Int) (contractType : String)
      (deliveryDateMs onboardDateMs : Int) (contractStatus : String)
  | openInterest (eventTimeMs : Int) (openInterest : δ)
  | clockSample (eventTimeMs : Int)

/-- A parsed row: what all streams have, and what its stream has. -/
structure TypedRow (δ : Type) where
  header : RowHeader
  body : RowBody δ

/-- `TYPED_STREAMS`. -/
def typedStreams : List StreamType :=
  [.depth, .rpiDepth, .depthSnapshot, .rpiDepthSnapshot, .bookTicker, .aggTrade,
    .trade, .markPrice, .forceOrder, .contractInfo, .openInterest, .clockSample]

/-- The untyped streams whose payload has to be an object. -/
def objectStreams : List StreamType :=
  [.exchangeInfo, .dailyKlines, .liquidityDepth, .formalCollectionStarted,
    .universeDecision, .wsControl]

def Json.IsObject : Json → Prop
  | .object _ => True
  | _ => False

def Json.IsArray : Json → Prop
  | .array _ => True
  | _ => False

instance : (value : Json) → Decidable value.IsObject
  | .object _ => inferInstanceAs (Decidable True)
  | .null | .boolean _ | .integer _ | .real _ | .text _ | .array _ =>
      inferInstanceAs (Decidable False)

instance : (value : Json) → Decidable value.IsArray
  | .array _ => inferInstanceAs (Decidable True)
  | .null | .boolean _ | .integer _ | .real _ | .text _ | .object _ =>
      inferInstanceAs (Decidable False)

section Parse

variable (builtins : Builtins) {δ : Type} [DecimalArithmetic δ]

/-- `payload.get("data", payload)`. -/
def eventData (payload : Json) : Json :=
  (payload.get? "data").getD payload

/-- `_event_symbol`. -/
def eventSymbol (data : Json) : String :=
  match data.get? "o" with
  | some (.object order) =>
      pythonStr builtins ((getEntry "s" order).getD (.text ""))
  | _ => pythonStr builtins ((data.get? "s").getD (.text ""))

/-- The symbol of a row, its own or that of its event. -/
def rowSymbol (row : RawRow) : Option String :=
  let symbol :=
    match row.exchangeSymbol with
    | none | some "" => eventSymbol builtins (eventData row.payload)
    | some symbol => symbol
  if symbol = "" then none else some (builtins.upper symbol)

/-- The columns which do not depend on the stream. -/
def rowHeader (row : RawRow) : RowHeader where
  exchangeSymbol := rowSymbol builtins row
  streamType := row.streamType
  connectionId := row.connectionId
  receiveSeq := row.receiveSeq
  appReceiveRealtimeNs := row.appReceiveRealtimeNs
  appReceiveMonotonicNs := row.appReceiveMonotonicNs
  requestRealtimeNs := row.requestRealtimeNs
  payloadHash := dumps builtins (eventData row.payload)

/-- The columns of a depth stream. -/
def depthBody (data : Json) : Except RowError (RowBody δ) := do
  let _ ← requireEvent builtins data "depthUpdate"
  let eventTimeMs ← intField builtins δ data "E"
  let transactionTimeMs ← intField builtins δ data "T"
  let firstUpdateId ← intField builtins δ data "U"
  let finalUpdateId ← intField builtins δ data "u"
  let previousFinalUpdateId ← intField builtins δ data "pu"
  let bids ← levelsField data "b"
  let asks ← levelsField data "a"
  return .depth eventTimeMs transactionTimeMs firstUpdateId finalUpdateId
    previousFinalUpdateId bids asks

def depthSnapshotBody (data : Json) : Except RowError (RowBody δ) := do
  let eventTimeMs ← optionalIntField builtins δ data "E"
  let transactionTimeMs ← optionalIntField builtins δ data "T"
  let lastUpdateId ← intField builtins δ data "lastUpdateId"
  let bids ← levelsField data "bids"
  let asks ← levelsField data "asks"
  return .depthSnapshot eventTimeMs transactionTimeMs lastUpdateId bids asks

def bookTickerBody (data : Json) : Except RowError (RowBody δ) := do
  let _ ← requireEvent builtins data "bookTicker"
  let eventTimeMs ← intField builtins δ data "E"
  let transactionTimeMs ← intField builtins δ data "T"
  let updateId ← intField builtins δ data "u"
  let bidPrice ← decimalField data "b"
  let bidQuantity ← decimalField data "B" true
  let askPrice ← decimalField data "a"
  let askQuantity ← decimalField data "A" true
  return .bookTicker eventTimeMs transactionTimeMs updateId bidPrice
    bidQuantity askPrice askQuantity

def aggTradeBody (data : Json) : Except RowError (RowBody δ) := do
  let _ ← requireEvent builtins data "aggTrade"
  let eventTimeMs ← intField builtins δ data "E"
  let transactionTimeMs ← intField builtins δ data "T"
  let price ← decimalField data "p"
  let quantity ← decimalField data "q"
  let buyerIsMaker ← boolField data "m"
  let aggregateTradeId ← intField builtins δ data "a"
  let firstTradeId ← intField builtins δ data "f"
  let lastTradeId ← intField builtins δ data "l"
  let nonRpiQuantity ← optionalDecimalField data "nq"
  return .aggTrade eventTimeMs transactionTimeMs price quantity buyerIsMaker
    aggregateTradeId firstTradeId lastTradeId nonRpiQuantity

def tradeBody (data : Json) : Except RowError (RowBody δ) := do
  let _ ← requireEvent builtins data "trade"
  let eventTimeMs ← intField builtins δ data "E"
  let transactionTimeMs ← intField builtins δ data "T"
  let price ← decimalField data "p"
  let quantity ← decimalField data "q"
  let buyerIsMaker ← boolField data "m"
  let tradeId ← intField builtins δ data "t"
  return .trade eventTimeMs transactionTimeMs price quantity buyerIsMaker
    tradeId

def markPriceBody (data : Json) : Except RowError (RowBody δ) := do
  let _ ← requireEvent builtins data "markPriceUpdate"
  let eventTimeMs ← intField builtins δ data "E"
  let markPrice ← decimalField data "p"
  let indexPrice ← decimalField data "i"
  let estimatedSettlePrice ← decimalField data "P" true
  let fundingRate ← decimalField data "r" true true
  let nextFundingTimeMs ← intField builtins δ data "T"
  return .markPrice eventTimeMs markPrice indexPrice estimatedSettlePrice
    fundingRate nextFundingTimeMs

def forceOrderBody (data : Json) : Except RowError (RowBody δ) := do
  let _ ← requireEvent builtins data "forceOrder"
  match data.get? "o" with
  | some (.object members) =>
      let order := Json.object members
      let eventTimeMs ← intField builtins δ data "E"
      let transactionTimeMs ← intField builtins δ order "T"
      let side ← textField builtins order "S"
      let orderType ← textField builtins order "o"
      let timeInForce ← textField builtins order "f"
      let orderStatus ← textField builtins order "X"
      let price ← decimalField order "p" true
      let quantity ← decimalField order "q"
      let averagePrice ← decimalField order "ap" true
      let lastFilledQuantity ← decimalField order "l" true
      let accumulatedFilledQuantity ← decimalField order "z" true
      return .forceOrder eventTimeMs transactionTimeMs side orderType
        timeInForce orderStatus price quantity averagePrice lastFilledQuantity
        accumulatedFilledQuantity
  | _ => .error (.value "forceOrder payload has no order object")

def contractInfoBody (data : Json) : Except RowError (RowBody δ) := do
  let _ ← requireEvent builtins data "contractInfo"
  let eventTimeMs ← intField builtins δ data "E"
  let contractType ← textField builtins data "ct"
  let deliveryDateMs ← intField builtins δ data "dt"
  let onboardDateMs ← intField builtins δ data "ot"
  let contractStatus ← textField builtins data "cs"
  return .contractInfo eventTimeMs contractType deliveryDateMs onboardDateMs
    contractStatus

def openInterestBody (data : Json) : Except RowError (RowBody δ) := do
  let eventTimeMs ← intField builtins δ data "time"
  let openInterest ← decimalField data "openInterest" true
  return .openInterest eventTimeMs openInterest

def clockSampleBody (data : Json) : Except RowError (RowBody δ) :=
  (intField builtins δ data "serverTime").map .clockSample

/-- The columns of a typed stream; nothing for the others. -/
def rowBody (stream : StreamType) (data : Json) :
    Except RowError (Option (RowBody δ)) :=
  match stream with
  | .depth | .rpiDepth => (depthBody builtins data).map some
  | .depthSnapshot | .rpiDepthSnapshot =>
      (depthSnapshotBody builtins data).map some
  | .bookTicker => (bookTickerBody builtins data).map some
  | .aggTrade => (aggTradeBody builtins data).map some
  | .trade => (tradeBody builtins data).map some
  | .markPrice => (markPriceBody builtins data).map some
  | .forceOrder => (forceOrderBody builtins data).map some
  | .contractInfo => (contractInfoBody builtins data).map some
  | .openInterest => (openInterestBody builtins data).map some
  | .clockSample => (clockSampleBody builtins data).map some
  | _ => .ok none

/-- `parse_typed_row`. -/
def parseTypedRow (row : RawRow) : Except RowError (Option (TypedRow δ)) :=
  let stream := row.streamType
  if stream ∉ typedStreams then
    if stream = .marketTickers ∧ ¬ row.payload.IsArray then
      .error (.value "market tickers payload must be an array")
    else if stream ∈ objectStreams ∧ ¬ row.payload.IsObject then
      .error (.value (stream.value ++ " payload must be an object"))
    else .ok none
  else if ¬ row.payload.IsObject then
    .error (.value "Binance payload must be a JSON object")
  else
    let data := eventData row.payload
    if ¬ data.IsObject then
      .error (.value "Binance event data must be an object")
    else
      if (rowSymbol builtins row).getD "" = "" ∧ stream ≠ .clockSample then
        .error (.value (stream.value ++ " event has no symbol"))
      else do
        let body ← rowBody builtins stream data
        return body.map fun body => ⟨rowHeader builtins row, body⟩

end Parse

/-! ## Identity -/

/-- What tells an event from the others of its stream and symbol. -/
inductive EventId where
  | trade (tradeId : Int)
  | update (updateId : Int)
  | depth (firstUpdateId finalUpdateId previousFinalUpdateId : Int)
  | hashed (times : List Int) (payloadHash : String)
deriving DecidableEq, Repr

/-- What makes two rows the same event of the exchange. -/
structure LogicalIdentity where
  streamType : StreamType
  symbol : Option String
  event : EventId
deriving DecidableEq, Repr

/-- The part of `logical_identity` which the stream decides. -/
def RowBody.eventId {δ : Type} (payloadHash : String) :
    RowBody δ → Option EventId
  | .aggTrade _ _ _ _ _ aggregateTradeId _ _ _ =>
      some (.trade aggregateTradeId)
  | .trade _ _ _ _ _ tradeId => some (.trade tradeId)
  | .depth _ _ firstUpdateId finalUpdateId previousFinalUpdateId _ _ =>
      some (.depth firstUpdateId finalUpdateId previousFinalUpdateId)
  | .bookTicker _ _ updateId _ _ _ _ => some (.update updateId)
  | .markPrice eventTimeMs _ _ _ _ _ =>
      some (.hashed [eventTimeMs] payloadHash)
  | .forceOrder eventTimeMs transactionTimeMs _ _ _ _ _ _ _ _ _ =>
      some (.hashed [eventTimeMs, transactionTimeMs] payloadHash)
  | .contractInfo eventTimeMs _ _ _ _ =>
      some (.hashed [eventTimeMs] payloadHash)
  | .depthSnapshot .. | .openInterest .. | .clockSample .. => none

/-- `logical_identity`. -/
def logicalIdentity {δ : Type} (row : TypedRow δ) : Option LogicalIdentity :=
  (row.body.eventId row.header.payloadHash).map fun event => {
    streamType := row.header.streamType
    symbol := row.header.exchangeSymbol
    event }

end ShadowDataPlane.Central
