import ShadowDataPlane.Contracts.UtcDay
import ShadowDataPlane.Edge.JournalBytes
import ShadowDataPlane.Foundation.Dict

/-!
# The transfer ledger

`TransferJournal.append` writes the events of a call to one file for each UTC
day, all events of a day at once.  A crash may cut such a write, and the next
one continues behind what has reached the file.

An event whose line is not the first one of its write can be read from then
on, whatever the file ended with (`BatchRecords.records`), and nothing which is
appended later takes it away (`LedgerRecords.append`).
-/

namespace ShadowDataPlane.Edge

open ShadowDataPlane.Foundation
open ShadowDataPlane.Contracts

/-! ## Events -/

/-- The events of the transfer journal. -/
inductive TransferEventName where
  | readyManifestInvalid
  | readyManifestMisplaced
  | readyManifestConflict
  | ackInvalid
  | ackUnknown
  | ackHashMismatch
  | ackTransactionConflict
  | ackTransactionInvalid
  | ackTransactionHashMismatch
  | ackValidated
  | remoteGc
deriving DecidableEq, Repr

def TransferEventName.text : TransferEventName → String
  | .readyManifestInvalid => "READY_MANIFEST_INVALID"
  | .readyManifestMisplaced => "READY_MANIFEST_MISPLACED"
  | .readyManifestConflict => "READY_MANIFEST_CONFLICT"
  | .ackInvalid => "ACK_INVALID"
  | .ackUnknown => "ACK_UNKNOWN"
  | .ackHashMismatch => "ACK_HASH_MISMATCH"
  | .ackTransactionConflict => "ACK_TRANSACTION_CONFLICT"
  | .ackTransactionInvalid => "ACK_TRANSACTION_INVALID"
  | .ackTransactionHashMismatch => "ACK_TRANSACTION_HASH_MISMATCH"
  | .ackValidated => "ACK_VALIDATED"
  | .remoteGc => "REMOTE_GC"

/-- A file which an event is about, below the data root. -/
inductive SpoolPath where
  | ready (path : DataPath)
  | ack (name : String)
  | applying (name : String)
deriving DecidableEq, Repr

def SpoolPath.name : SpoolPath → String
  | .ready path => path.name
  | .ack name | .applying name => name

/-- The `event_fields` of a transaction. -/
structure AppliedFields where
  collectorId : String
  sha256 : String
  sizeBytes : Nat
  utcDate : Nat
  ackDurableAt : String
deriving DecidableEq, Repr

/-- `transfer_event`; a field which is left out is `none`. -/
structure TransferEvent where
  event : TransferEventName
  eventId : String
  occurredAt : Nat
  applyId : String
  chunkId : Option String := none
  path : Option SpoolPath := none
  expectedPath : Option DataPath := none
  error : Option String := none
  expectedSha256 : Option String := none
  receivedSha256 : Option String := none
  applied : Option AppliedFields := none
  recovered : Option Bool := none
deriving DecidableEq, Repr

/-- `occurred_at[:10]`. -/
def TransferEvent.utcDate (event : TransferEvent) : Nat :=
  dateOfNs event.occurredAt

/-- The JSON text of an event; control characters in it are escaped. -/
structure EventCodec where
  dumps : TransferEvent → List UInt8
  oneLine : ∀ event, newline ∉ dumps event

/-! ## Appending -/

section Source

variable (codec : EventCodec)

/-- `canonical_json_bytes`, which appends a newline. -/
def EventCodec.canonicalJsonBytes (event : TransferEvent) : List UInt8 :=
  codec.dumps event ++ [newline]

/-- One event of the first loop of `append`. -/
def groupEvent (grouped : Dict Nat (List UInt8)) (event : TransferEvent) :
    Dict Nat (List UInt8) :=
  grouped.set event.utcDate
    ((grouped.get? event.utcDate).getD [] ++ codec.canonicalJsonBytes event)

/-- What `append` writes, day by day. -/
def groupedEvents (events : List TransferEvent) :
    Dict Nat (List UInt8) :=
  events.foldl (groupEvent codec) Dict.empty

end Source

/-- The bytes which have reached the file of a day. -/
def appendToDay (ledger : Dict Nat (List UInt8)) (utcDate : Nat)
    (encoded : List UInt8) : Dict Nat (List UInt8) :=
  ledger.set utcDate ((ledger.get? utcDate).getD [] ++ encoded)

/-! ## What is recorded -/

section Recorded

variable {codec : EventCodec} {event : TransferEvent}

/-- The event has a line of its own. -/
def BytesRecord (codec : EventCodec) (bytes : List UInt8)
    (event : TransferEvent) : Prop :=
  ∃ before after, bytes =
    before ++ codec.canonicalJsonBytes event ++ after ∧ EndsLine before

/-- The event has a line which is not the first one. -/
def BatchRecords (codec : EventCodec) (encoded : List UInt8)
    (event : TransferEvent) : Prop :=
  ∃ before after, encoded =
    before ++ [newline] ++ codec.canonicalJsonBytes event ++ after

/-- Some day of the ledger has the event. -/
def LedgerRecords (codec : EventCodec) (ledger : Dict Nat (List UInt8))
    (event : TransferEvent) : Prop :=
  ∃ utcDate bytes, ledger.get? utcDate = some bytes ∧
    BytesRecord codec bytes event

theorem BytesRecord.append
    {bytes : List UInt8} (records : BytesRecord codec bytes event)
    (more : List UInt8) : BytesRecord codec (bytes ++ more) event := by
  rcases records with ⟨before, after, rfl, ends⟩
  exact ⟨before, after ++ more, by simp only [List.append_assoc], ends⟩

theorem endsLine_concat (bytes : List UInt8) :
    EndsLine (bytes ++ [newline]) := by
  rw [EndsLine, List.getLast?_concat]
  rintro last ⟨⟩
  rfl

/-- Whatever the file ends with, a later line of a write can be read. -/
theorem BatchRecords.records
    {encoded : List UInt8} (records : BatchRecords codec encoded event)
    (bytes : List UInt8) : BytesRecord codec (bytes ++ encoded) event := by
  rcases records with ⟨before, after, rfl⟩
  refine ⟨bytes ++ before ++ [newline], after, ?_, endsLine_concat _⟩
  simp only [List.append_assoc]

/-- A reader which takes the file apart finds the event. -/
theorem BytesRecord.mem_linesOf
    {bytes : List UInt8} (records : BytesRecord codec bytes event) :
    codec.canonicalJsonBytes event ∈ linesOf newline bytes := by
  rcases records with ⟨before, after, rfl, ends⟩
  have first : linesOf newline (codec.canonicalJsonBytes event ++ after) =
      codec.canonicalJsonBytes event :: linesOf newline after :=
    linesOf_append_line (codec.oneLine event) after
  rw [List.append_assoc]
  rcases List.eq_nil_or_concat before with rfl | ⟨text, last, rfl⟩
  · rw [List.nil_append, first]
    exact List.mem_cons_self
  · rw [List.concat_eq_append] at ends ⊢
    have isNewline : last = newline := by
      rw [EndsLine, List.getLast?_concat] at ends
      exact ends last rfl
    rw [isNewline, linesOf_append_ended, first]
    exact List.mem_append_right _ List.mem_cons_self

/-- A ledger keeps its events when a write, cut or not, is appended. -/
theorem LedgerRecords.append
    {ledger : Dict Nat (List UInt8)}
    (records : LedgerRecords codec ledger event) (utcDate : Nat)
    (encoded : List UInt8) :
    LedgerRecords codec (appendToDay ledger utcDate encoded) event := by
  rcases records with ⟨day, bytes, found, inBytes⟩
  by_cases same : day = utcDate
  · subst same
    refine ⟨day, bytes ++ encoded, ?_, inBytes.append encoded⟩
    rw [appendToDay, Dict.get?_set_self, found]
    rfl
  · refine ⟨day, bytes, ?_, inBytes⟩
    rw [appendToDay, Dict.get?_set, if_neg same]
    exact found

theorem BatchRecords.ledgerRecords
    {encoded : List UInt8} (records : BatchRecords codec encoded event)
    (ledger : Dict Nat (List UInt8)) (utcDate : Nat) :
    LedgerRecords codec (appendToDay ledger utcDate encoded) event :=
  ⟨utcDate, _, Dict.get?_set_self _ _ _, records.records _⟩

theorem getD_foldl_groupEvent
    (events : List TransferEvent) (grouped : Dict Nat (List UInt8))
    (utcDate : Nat) :
    ((events.foldl (groupEvent codec) grouped).get? utcDate).getD [] =
      (grouped.get? utcDate).getD [] ++
        (events.filter fun event => event.utcDate = utcDate).flatMap
          codec.canonicalJsonBytes := by
  induction events generalizing grouped with
  | nil => exact (List.append_nil _).symm
  | cons event rest induction =>
      rw [List.foldl_cons, induction, groupEvent, Dict.get?_set]
      by_cases same : utcDate = event.utcDate
      · rw [if_pos same, List.filter_cons_of_pos (by simp [same]),
          List.flatMap_cons, Option.getD_some, List.append_assoc, same]
      · rw [if_neg same, List.filter_cons_of_neg (by simpa using Ne.symm same)]

/-- An event which follows one of the same day is in the write of the day. -/
theorem groupedEvents_records
    {first event : TransferEvent} {events : List TransferEvent}
    (follows : [first, event] <:+: events)
    (sameDay : first.utcDate = event.utcDate) :
    ∃ encoded, (event.utcDate, encoded) ∈
        (groupedEvents codec events).entries ∧
      BatchRecords codec encoded event := by
  rcases follows with ⟨before, after, rfl⟩
  have bytes := @getD_foldl_groupEvent codec
    (before ++ [first, event] ++ after) Dict.empty event.utcDate
  have records : BatchRecords codec
      (((groupedEvents codec (before ++ [first, event] ++ after)).get?
        event.utcDate).getD []) event := by
    refine ⟨((before.filter fun other =>
        other.utcDate = event.utcDate).flatMap
          codec.canonicalJsonBytes) ++ codec.dumps first,
      (after.filter fun other => other.utcDate = event.utcDate).flatMap
        codec.canonicalJsonBytes, ?_⟩
    rw [groupedEvents, bytes]
    simp [sameDay, EventCodec.canonicalJsonBytes]
  cases found : (groupedEvents codec
      (before ++ [first, event] ++ after)).get? event.utcDate with
  | none =>
      rw [found] at records
      rcases records with ⟨earlier, later, empty⟩
      simp at empty
  | some encoded =>
      rw [found] at records
      exact ⟨encoded, (Dict.mem_entries_iff _).mpr found, records⟩

end Recorded

end ShadowDataPlane.Edge
