import ShadowDataPlane.Central.SelectionWellFormed
import ShadowDataPlane.Edge.ReceivedMessage

/-!
# Messages which are set aside

The edge records what it does not know as `UNKNOWN`, and replies to its
requests as `WS_CONTROL`.  The centre gives them no row, but it parses them
first: `parse_typed_row` calls `orjson.loads` on the payload of every raw row,
and what that raises ends the run of the normalizer.

Both sides read a control reply as an object, and every document is good enough
for `UNKNOWN`.  So the centre can read what was set aside exactly if it is a
document at all (`setAside_readable_iff`); a message which `orjson.loads`
rejects at the edge is set aside there, and is rejected once more
(`notADocument_breaks`).
-/

namespace ShadowDataPlane.Central

open ShadowDataPlane.Contracts
open ShadowDataPlane.Edge

/-- The row of an event in its chunk, with the payload decoded. -/
def rawRowOf (fields : RawEventFields) (payload : Json) : RawRow where
  exchangeSymbol := fields.exchangeSymbol
  streamType := fields.streamType
  connectionId := fields.connectionId
  receiveSeq := fields.receiveSeq
  appReceiveRealtimeNs := fields.appReceiveRealtimeNs.toNat
  appReceiveMonotonicNs := fields.appReceiveMonotonicNs
  requestRealtimeNs := fields.requestRealtimeNs
  payload

section Readable

variable (builtins : Builtins) (lower : String → String)
  (loads : List UInt8 → Option Json) (δ : Type) [DecimalArithmetic δ]

/-- `parse_typed_row` on the row of an event, its payload in bytes. -/
def parseRecorded (event : RawEventV1) :
    Except RowError (Option (TypedRow δ)) :=
  match loads event.fields.payloadBytes with
  | none => .error .builtin
  | some payload => parseTypedRow builtins (rawRowOf event.fields payload)

/-- The two types of what the edge leaves unparsed. -/
def SetAside (streamType : StreamType) : Prop :=
  streamType = .unknown ∨ streamType = .wsControl

variable {builtins lower loads δ}

/-- Only an object is a control reply. -/
theorem isObject_of_wsControl
    {raw : List UInt8} {message : Json} (loaded : loads raw = some message)
    (control : (decodeWebsocket builtins lower loads raw).streamType =
      .wsControl) : message.IsObject := by
  rw [decodeWebsocket, loaded] at control
  dsimp only at control
  split at control
  next => cases control
  next isObject => exact not_not.mp isObject

/-- A document is enough for `UNKNOWN`, an object for `WS_CONTROL`. -/
theorem parseTypedRow_setAside
    {row : RawRow} (setAside : SetAside row.streamType)
    (isObject : row.streamType = .wsControl → row.payload.IsObject) :
    parseTypedRow (δ := δ) builtins row = .ok none := by
  rcases setAside with unknown | control
  · have untyped : StreamType.unknown ∉ typedStreams := by decide
    have anything : StreamType.unknown ∉ objectStreams := by decide
    rw [parseTypedRow, unknown]
    simp [untyped, anything]
  · have untyped : StreamType.wsControl ∉ typedStreams := by decide
    rw [parseTypedRow, control]
    simp [untyped, isObject control]

/-- What an event which was built from a message says. -/
theorem fields_of_received
    {identity : SourceIdentity} {raw : List UInt8}
    {realtimeNs monotonicNs : Nat} {event : RawEventV1}
    (received : (receiveMessage builtins lower loads identity raw realtimeNs
      monotonicNs).2 = .ok event) :
    event.fields.payloadBytes = raw ∧
      event.fields.streamType =
        (decodeWebsocket builtins lower loads raw).streamType := by
  simp only [receiveMessage, SourceIdentity.event, RawEventFields.build]
    at received
  split at received
  next =>
    cases received
    exact ⟨rfl, rfl⟩
  next => cases received

/--
What the edge records unparsed, the centre reads if and only if `orjson.loads`
accepts it.
-/
theorem setAside_readable_iff
    {identity : SourceIdentity} {raw : List UInt8}
    {realtimeNs monotonicNs : Nat} {event : RawEventV1}
    (received : (receiveMessage builtins lower loads identity raw realtimeNs
      monotonicNs).2 = .ok event)
    (setAside : SetAside event.fields.streamType) :
    (∃ row, parseRecorded builtins loads δ event = .ok row) ↔
      (loads raw).isSome := by
  rcases fields_of_received received with ⟨bytes, decoded⟩
  rw [parseRecorded, bytes]
  cases loaded : loads raw with
  | none =>
      constructor
      · rintro ⟨row, parsed⟩
        cases parsed
      · intro isThere
        cases isThere
  | some message =>
      refine iff_of_true ⟨none, ?_⟩ rfl
      apply parseTypedRow_setAside setAside
      intro control
      apply isObject_of_wsControl loaded
      exact decoded.symm.trans control

end Readable

/-! ## A document and a message which is none -/

/-- A reply to a request. -/
def controlReply : List UInt8 :=
  "\x7b\"result\":null,\"id\":1\x7d".toList.map
    fun letter => UInt8.ofNat letter.toNat

/-- A message of a proxy. -/
def proxyMessage : List UInt8 :=
  "502 Bad Gateway".toList.map fun letter => UInt8.ofNat letter.toNat

/-- A reader which knows the reply. -/
def loadsReply (raw : List UInt8) : Option Json :=
  if raw = controlReply then
    some (.object [("result", .null), ("id", .integer 1)])
  else none

theorem loadsReply_proxyMessage : loadsReply proxyMessage = none :=
  if_neg (by decide +kernel)

theorem reply_readable :
    ∃ event, (receiveMessage plainBuiltins String.toLower loadsReply
        marketIdentity controlReply 1000 1000).2 = .ok event ∧
      event.fields.streamType = .wsControl ∧
        ∃ row, parseRecorded plainBuiltins loadsReply ℚ event = .ok row := by
  have loaded : loadsReply controlReply =
      some (.object [("result", .null), ("id", .integer 1)]) := if_pos rfl
  have decoded : decodeWebsocket plainBuiltins String.toLower loadsReply
      controlReply = ⟨.wsControl, none,
        some (.object [("result", .null), ("id", .integer 1)]), none⟩ := by
    rw [decodeWebsocket, loaded]
    rfl
  have nonempty : controlReply ≠ [] := by decide +kernel
  rcases marketIdentity.event_of_fitting .wsControl none 1000 1000 nonempty
    (by rintro symbol ⟨⟩) with ⟨event, isNext, built⟩
  have received : (receiveMessage plainBuiltins String.toLower loadsReply
      marketIdentity controlReply 1000 1000).2 = .ok event := by
    rw [receiveMessage, decoded]
    exact built
  have control : event.fields.streamType = .wsControl := by rw [isNext]; rfl
  refine ⟨event, received, control, ?_⟩
  apply (setAside_readable_iff received (Or.inr control)).mpr
  rw [loaded]
  rfl

/-- The edge sets the message aside, and the centre raises on its row. -/
theorem notADocument_breaks :
    ∃ event, (receiveMessage plainBuiltins String.toLower loadsReply
        marketIdentity proxyMessage 1000 1000).2 = .ok event ∧
      event.fields.streamType = .unknown ∧
        parseRecorded plainBuiltins loadsReply ℚ event = .error .builtin := by
  have decoded : decodeWebsocket plainBuiltins String.toLower loadsReply
      proxyMessage = ⟨.unknown, none, none, none⟩ := by
    rw [decodeWebsocket, loadsReply_proxyMessage]
  have nonempty : proxyMessage ≠ [] := by decide +kernel
  rcases marketIdentity.event_of_fitting .unknown none 1000 1000 nonempty
    (by rintro symbol ⟨⟩) with ⟨event, isNext, built⟩
  refine ⟨event, ?_, ?_, ?_⟩
  · rw [receiveMessage, decoded]
    exact built
  · rw [isNext]
    rfl
  · have bytes : event.fields.payloadBytes = proxyMessage := by
      rw [isNext]
      rfl
    rw [parseRecorded, bytes, loadsReply_proxyMessage]

end ShadowDataPlane.Central
