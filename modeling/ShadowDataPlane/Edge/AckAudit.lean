import Mathlib.Data.List.Dedup
import ShadowDataPlane.Edge.AckLicence
import ShadowDataPlane.Foundation.Transition

/-!
# The audit of applied acknowledgements

Calls of `apply_acks` which die anywhere, on files of any contents.  Once a
call has returned, the ledger has the `REMOTE_GC` event of every chunk whose
ready data has been removed, and no transaction is left.  A manifest which is
taken from an unsealed day stays in `acked-manifests` until the day is sealed
or another manifest of the day with its file name is moved there.  Nothing is
removed but for a transaction which was there in the beginning or which stands
for an ACK file that `apply_acks` accepts.

The transactions which a call has completed have their events in the call,
then in the batch which is to be written and then in the ledger
(`ApplyPhaseSound`).
-/

namespace ShadowDataPlane.Edge

open ShadowDataPlane.Foundation
open ShadowDataPlane.Contracts

/-! ## Every change keeps the invariant -/

section Phases

variable {β : Type} {codec : SpoolCodec β} {start disk : AckDisk β}
variable {history : List (SpoolEffect β)} {call : ApplyCall}

/-- Every transaction on the disk is to be applied, or is completed. -/
def Remaining (disk : AckDisk β) (transactions completed : List String) :
    Prop :=
  ∀ name, disk.applying.get? name ≠ none →
    name ∈ transactions ∨ name ∈ completed

/-- What holds of the transactions which a call has completed. -/
def CompletedMeet (codec : SpoolCodec β) (disk : AckDisk β)
    (completed : List String) (holds : AckTransaction → Prop) : Prop :=
  ∀ name ∈ completed, ∀ transaction,
    StoredIn codec disk.applying name transaction → holds transaction

/-- The event is in the call, behind another one of the same time. -/
def CollectedIn (codec : SpoolCodec β) (events : List TransferEvent)
    (transaction : AckTransaction) : Prop :=
  ∃ first event, [first, event] <:+: events ∧
    first.utcDate = event.utcDate ∧ IsRemoteGc codec transaction event

/-- The event is in a batch which is to be written. -/
def BatchedIn (codec : SpoolCodec β) (batches : List (Nat × List UInt8))
    (transaction : AckTransaction) : Prop :=
  ∃ event utcDate encoded, IsRemoteGc codec transaction event ∧
    (utcDate, encoded) ∈ batches ∧
      BatchRecords codec.toEventCodec encoded event

/-- The manifests are those which the call has found when it began. -/
def Knows (codec : SpoolCodec β) (history : List (SpoolEffect β))
    (manifests : Dict String ChunkManifestV1) : Prop :=
  ∃ ready, .began ready ∈ history ∧
    ∀ chunkId manifest, manifests.get? chunkId = some manifest →
      KnownReady codec ready manifest ∧ manifest.chunkId = chunkId

def ApplyPhaseSound (codec : SpoolCodec β) (disk : AckDisk β)
    (history : List (SpoolEffect β)) (call : ApplyCall) :
    ApplyPhase → Prop
  | .accept manifests _ transactions =>
      Knows codec history manifests ∧ Remaining disk transactions []
  | .unlinkAck manifests _ chunkId _ transactions =>
      Knows codec history manifests ∧
        Remaining disk (transactions ++ [transactionName chunkId]) []
  | .apply transactions completed =>
      Remaining disk transactions completed ∧
        CompletedMeet codec disk completed (CollectedIn codec call.events)
  | .moveManifest name transaction _ transactions completed
  | .removeData name transaction _ transactions completed =>
      Remaining disk (name :: transactions) completed ∧
        CompletedMeet codec disk completed
          (CollectedIn codec call.events) ∧
        StoredIn codec disk.applying name transaction ∧
          transaction.ack.sha256 = transaction.manifest.sha256
  | .append batches completed =>
      Remaining disk [] completed ∧
        CompletedMeet codec disk completed fun transaction =>
          Audited codec disk.ledger transaction ∨
            BatchedIn codec batches transaction
  | .writeStatus completed | .unlinkTransactions completed =>
      Remaining disk [] completed ∧
        CompletedMeet codec disk completed (Audited codec disk.ledger)

/-- A change of the disk, with what it is recorded as, keeps everything. -/
structure WorkSound (codec : SpoolCodec β) (start : AckDisk β)
    (history : List (SpoolEffect β)) (worked : AppliedWork β) : Prop where
  files : FilesSound start worked.disk (worked.effects ++ history)
  transactions :
    TransactionsSound codec start worked.disk (worked.effects ++ history)
  phase : ∀ call phase, worked.next = .goesOn call phase →
    ApplyPhaseSound codec worked.disk (worked.effects ++ history) call phase
  returned : .returned ∈ worked.effects →
    worked.next = .returns ∧ ∀ name, worked.disk.applying.get? name = none

theorem CompletedMeet.imp
    {completed : List String} {holds weaker : AckTransaction → Prop}
    (meet : CompletedMeet codec disk completed holds)
    (implies : ∀ transaction, holds transaction → weaker transaction) :
    CompletedMeet codec disk completed weaker :=
  fun name isCompleted transaction stored =>
    implies transaction (meet name isCompleted transaction stored)

theorem CompletedMeet.erase
    {completed : List String} {holds : AckTransaction → Prop}
    (meet : CompletedMeet codec disk completed holds) (name : String) :
    CompletedMeet codec { disk with applying := disk.applying.erase name }
      completed holds :=
  fun other isCompleted transaction stored =>
    meet other isCompleted transaction stored.of_erase

theorem CollectedIn.append
    {events : List TransferEvent} {transaction : AckTransaction}
    (collected : CollectedIn codec events transaction)
    (later : List TransferEvent) :
    CollectedIn codec (events ++ later) transaction := by
  rcases collected with ⟨first, event, follows, sameDay, isGc⟩
  exact ⟨first, event,
    follows.trans (List.prefix_append events later).isInfix, sameDay, isGc⟩

theorem Remaining.erase
    {transactions completed : List String} {name : String}
    (remaining : ∀ other, disk.applying.get? other ≠ none →
      other = name ∨ other ∈ transactions ∨ other ∈ completed) :
    Remaining { disk with applying := disk.applying.erase name }
      transactions completed := by
  intro other isThere
  rw [Dict.get?_erase] at isThere
  split at isThere
  next => exact absurd rfl isThere
  next different => exact (remaining other isThere).resolve_left different

/-- A phase depends on the transactions, the ledger and what was recorded. -/
theorem ApplyPhaseSound.mono
    {after : AckDisk β} {recorded : List (SpoolEffect β)} {phase : ApplyPhase}
    (sound : ApplyPhaseSound codec disk history call phase)
    (applying : after.applying = disk.applying)
    (ledger : after.ledger = disk.ledger) (subset : history ⊆ recorded) :
    ApplyPhaseSound codec after recorded call phase := by
  have knows : ∀ manifests, Knows codec history manifests →
      Knows codec recorded manifests := by
    rintro manifests ⟨ready, began, isKnown⟩
    exact ⟨ready, subset began, isKnown⟩
  have remaining : ∀ transactions completed,
      Remaining disk transactions completed →
        Remaining after transactions completed := by
    intro transactions completed isRemaining name isThere
    exact isRemaining name (applying ▸ isThere)
  have completedMeet : ∀ completed holds,
      CompletedMeet codec disk completed holds →
        CompletedMeet codec after completed holds := by
    intro completed holds meet name isCompleted transaction stored
    exact meet name isCompleted transaction (applying ▸ stored)
  cases phase with
  | accept manifests acks transactions =>
      exact ⟨knows _ sound.1, remaining _ _ sound.2⟩
  | unlinkAck manifests name chunkId acks transactions =>
      exact ⟨knows _ sound.1, remaining _ _ sound.2⟩
  | apply transactions completed =>
      exact ⟨remaining _ _ sound.1, completedMeet _ _ sound.2⟩
  | moveManifest name transaction recovered transactions completed =>
      exact ⟨remaining _ _ sound.1, completedMeet _ _ sound.2.1,
        applying.symm ▸ sound.2.2.1, sound.2.2.2⟩
  | removeData name transaction recovered transactions completed =>
      exact ⟨remaining _ _ sound.1, completedMeet _ _ sound.2.1,
        applying.symm ▸ sound.2.2.1, sound.2.2.2⟩
  | append batches completed =>
      exact ⟨remaining _ _ sound.1,
        ledger.symm ▸ completedMeet _ _ sound.2⟩
  | writeStatus completed =>
      exact ⟨remaining _ _ sound.1,
        ledger.symm ▸ completedMeet _ _ sound.2⟩
  | unlinkTransactions completed =>
      exact ⟨remaining _ _ sound.1,
        ledger.symm ▸ completedMeet _ _ sound.2⟩

/-- Which ACK files are accepted. -/
theorem judgeAck_eq_accepted
    {manifests : Dict String ChunkManifestV1} {name : String} {content : β}
    {transaction : AckTransaction}
    (judged : judgeAck codec disk call manifests name content =
      .accepted transaction) :
    codec.validateAck content = .ok transaction.ack ∧
      name = ackName transaction.ack.chunkId ∧
        manifests.get? transaction.ack.chunkId =
            some transaction.manifest ∧
          transaction.ack.sha256 = transaction.manifest.sha256 ∧
            disk.applying.get? (transactionName transaction.ack.chunkId) =
              none := by
  unfold judgeAck at judged
  split at judged
  next => cases judged
  next ack valid =>
    split at judged
    next => cases judged
    next named =>
      split at judged
      next => cases judged
      next manifest isKnown =>
        split at judged
        next => cases judged
        next hash =>
          split at judged
          next absent =>
            cases judged
            exact ⟨valid, not_not.mp named, isKnown, not_not.mp hash, absent⟩
          next =>
            split at judged
            next => split at judged <;> cases judged
            next => cases judged

theorem WorkSound.acceptAck
    (files : FilesSound start disk history)
    (transactionsSound : TransactionsSound codec start disk history)
    {manifests : Dict String ChunkManifestV1} {name : String}
    {acks transactions : List String}
    (knows : Knows codec history manifests)
    (remaining : Remaining disk transactions []) :
    WorkSound codec start history
      (acceptAck codec disk call manifests name acks transactions) := by
  unfold Edge.acceptAck
  split
  next =>
    exact {
      files := files
      transactions := transactionsSound
      phase := by
        rintro call phase ⟨⟩
      returned := by
        rintro ⟨⟩ }
  next content isAck =>
    split
    next =>
      exact {
        files := { files with }
        transactions := { transactionsSound with }
        phase := by
          rintro call phase ⟨⟩
          exact ⟨knows, remaining⟩
        returned := by
          rintro ⟨⟩ }
    next transaction judged =>
      rcases judgeAck_eq_accepted judged with
        ⟨valid, rfl, isKnown, hash, absent⟩
      rcases knows with ⟨ready, began, known⟩
      have isAcknowledged : Acknowledged codec
          (.accepted _ content transaction :: history) transaction := {
        accepted := ⟨content, List.mem_cons_self, valid⟩
        hash := hash
        known := ⟨ready, List.mem_cons_of_mem _ began, known _ _ isKnown⟩ }
      have recorded : TransactionsSound codec start disk
          (.accepted (ackName transaction.ack.chunkId) content transaction ::
            history) :=
        transactionsSound.record rfl (by rintro ⟨⟩)
      have quiet : FilesSound start disk
          (.accepted (ackName transaction.ack.chunkId) content transaction ::
            history) :=
        files.quiet trivial
      exact {
        files := { quiet with }
        transactions := recorded.accept absent (Or.inr isAcknowledged)
        phase := by
          rintro call phase ⟨⟩
          refine ⟨⟨ready, List.mem_cons_of_mem _ began, known⟩, ?_⟩
          intro other isThere
          rw [Dict.get?_set] at isThere
          split at isThere
          next same => exact Or.inl (by simp [same])
          next =>
            rcases remaining other isThere with before | ⟨⟨⟩⟩
            exact Or.inl (List.mem_append_left _ before)
        returned := by
          rintro isReturned
          cases List.mem_singleton.mp isReturned }
    next chunkId judged =>
      exact {
        files := files
        transactions := transactionsSound
        phase := by
          rintro call phase ⟨⟩
          refine ⟨knows, ?_⟩
          intro other isThere
          rcases remaining other isThere with before | ⟨⟨⟩⟩
          exact Or.inl (List.mem_append_left _ before)
        returned := by
          rintro ⟨⟩ }

/-- A transaction is refused; nothing has been removed for it. -/
theorem WorkSound.rejectTransaction
    (files : FilesSound start disk history)
    (transactionsSound : TransactionsSound codec start disk history)
    {name reason : String} {content : β} {transactions completed : List String}
    (remaining : Remaining disk (name :: transactions) completed)
    (completedMeet : CompletedMeet codec disk completed
      (CollectedIn codec call.events))
    (refused : ∀ transaction, StoredIn codec disk.applying name transaction →
      transaction.ack.sha256 ≠ transaction.manifest.sha256)
    (event : TransferEvent) :
    WorkSound codec start history
      { disk := disk.rejectTransaction name reason content
        next := .goesOn (call.reject event)
          (.apply transactions completed) } where
  files := { files with }
  transactions := by
    have erased : TransactionsSound codec start
        { disk with applying := disk.applying.erase name } history :=
      transactionsSound.erase fun transaction stored hash =>
        absurd hash (refused transaction stored)
    exact { erased with }
  phase := by
    rintro call' phase ⟨⟩
    constructor
    · have erased : Remaining
          { disk with applying := disk.applying.erase name } transactions
            completed := by
        apply Remaining.erase
        intro other isThere
        rcases remaining other isThere with first | later
        · exact (List.mem_cons.mp first).imp_right Or.inl
        · exact Or.inr (Or.inr later)
      exact erased
    · exact (completedMeet.imp fun transaction collected =>
        collected.append [event]).erase name
  returned := by
    rintro ⟨⟩

/-- Whether a transaction is applied or refused. -/
theorem WorkSound.beginTransaction
    (files : FilesSound start disk history)
    (transactionsSound : TransactionsSound codec start disk history)
    {name : String} {transactions completed : List String}
    (remaining : Remaining disk (name :: transactions) completed)
    (completedMeet : CompletedMeet codec disk completed
      (CollectedIn codec call.events)) :
    WorkSound codec start history
      (beginTransaction codec disk call name transactions completed) := by
  unfold Edge.beginTransaction
  split
  next =>
    exact {
      files := files
      transactions := transactionsSound
      phase := by
        rintro call' phase ⟨⟩
      returned := by
        rintro ⟨⟩ }
  next content isThere =>
    split
    next error isError =>
      apply WorkSound.rejectTransaction files transactionsSound remaining
        completedMeet
      rintro transaction ⟨bytes, found, valid⟩
      rw [isThere] at found
      cases found
      rw [isError] at valid
      cases valid
    next transaction valid =>
      have stored : StoredIn codec disk.applying name transaction :=
        ⟨content, isThere, valid⟩
      split
      next different =>
        apply WorkSound.rejectTransaction files transactionsSound remaining
          completedMeet
        intro other isOther
        rw [isOther.unique stored]
        exact different
      next same =>
        exact {
          files := files
          transactions := transactionsSound
          phase := by
            rintro call' phase ⟨⟩
            exact ⟨remaining, completedMeet, stored, not_not.mp same⟩
          returned := by
            rintro ⟨⟩ }

theorem applying_removeManifest (transaction : AckTransaction) :
    (removeManifest disk transaction).1.applying = disk.applying := by
  unfold removeManifest
  simp only
  split
  next => rfl
  next =>
    split
    next => rfl
    next => rfl

theorem applying_removeData (transaction : AckTransaction) :
    (removeData disk transaction).1.applying = disk.applying := by
  unfold removeData
  split
  next => rfl
  next => rfl

theorem returned_not_mem_removeManifest (transaction : AckTransaction) :
    .returned ∉ (removeManifest disk transaction).2 := by
  unfold removeManifest
  simp only
  split
  next => exact List.not_mem_nil
  next =>
    split
    next => rintro (_ | ⟨_, ⟨⟩⟩)
    next => rintro (_ | ⟨_, ⟨⟩⟩)

theorem returned_not_mem_removeData (transaction : AckTransaction) :
    .returned ∉ (removeData disk transaction).2 := by
  unfold removeData
  split
  next => exact List.not_mem_nil
  next => rintro (_ | ⟨_, ⟨⟩⟩)

theorem TransactionsSound.removeManifest
    (sound : TransactionsSound codec start disk history)
    {transaction : AckTransaction} {name : String}
    (stored : StoredIn codec disk.applying name transaction)
    (hash : transaction.ack.sha256 = transaction.manifest.sha256) :
    TransactionsSound codec start (removeManifest disk transaction).1
      ((removeManifest disk transaction).2 ++ history) := by
  unfold Edge.removeManifest
  simp only
  split
  next => exact sound
  next content _ =>
    split
    next =>
      have removed : TransactionsSound codec start disk
          (.unlinkedManifest transaction content :: history) :=
        sound.remove rfl stored hash
      exact { removed with }
    next =>
      have removed : TransactionsSound codec start disk
          (.movedManifest transaction content :: history) :=
        sound.remove rfl stored hash
      exact { removed with }

theorem TransactionsSound.removeData
    (sound : TransactionsSound codec start disk history)
    {transaction : AckTransaction} {name : String}
    (stored : StoredIn codec disk.applying name transaction)
    (hash : transaction.ack.sha256 = transaction.manifest.sha256) :
    TransactionsSound codec start (removeData disk transaction).1
      ((removeData disk transaction).2 ++ history) := by
  unfold Edge.removeData
  split
  next => exact sound
  next content _ =>
    have removed : TransactionsSound codec start disk
        (.unlinkedData transaction content :: history) :=
      sound.remove rfl stored hash
    exact { removed with }

/-- The events of an applied transaction follow each other. -/
theorem collectedIn_collect
    (call : ApplyCall) (transaction : AckTransaction) (recovered : Bool) :
    CollectedIn codec (call.collect codec transaction recovered).events
      transaction :=
  ⟨gcEvent codec call transaction .ackValidated,
    { gcEvent codec call transaction .remoteGc with
      recovered := some recovered },
    (List.suffix_append call.events _).isInfix, rfl, rfl, rfl⟩

/-- The event of a completed transaction goes into a batch. -/
theorem CollectedIn.batchedIn
    {events : List TransferEvent} {transaction : AckTransaction}
    (collected : CollectedIn codec events transaction) :
    BatchedIn codec (groupedEvents codec.toEventCodec events).entries
      transaction := by
  rcases collected with ⟨first, event, follows, sameDay, isGc⟩
  rcases @groupedEvents_records codec.toEventCodec _ _ _ follows sameDay with
    ⟨encoded, isBatch, records⟩
  exact ⟨event, event.utcDate, encoded, isGc, isBatch, records⟩

/-- A batch which has been written has its events in the ledger. -/
theorem BatchedIn.written
    {transaction : AckTransaction} {utcDate : Nat} {encoded : List UInt8}
    {batches : List (Nat × List UInt8)}
    (batched : BatchedIn codec ((utcDate, encoded) :: batches) transaction)
    (ledger : Dict Nat (List UInt8)) :
    Audited codec (appendToDay ledger utcDate encoded) transaction ∨
      BatchedIn codec batches transaction := by
  rcases batched with ⟨event, day, bytes, isGc, isBatch, records⟩
  rcases List.mem_cons.mp isBatch with first | later
  · cases first
    exact Or.inl ⟨event, isGc, records.ledgerRecords ledger utcDate⟩
  · exact Or.inr ⟨event, day, bytes, isGc, later, records⟩

theorem WorkSound.moveManifest
    (files : FilesSound start disk history)
    (transactionsSound : TransactionsSound codec start disk history)
    {name : String} {transaction : AckTransaction} {recovered : Bool}
    {transactions completed : List String}
    (isSound : ApplyPhaseSound codec disk history call
      (.moveManifest name transaction recovered transactions completed)) :
    WorkSound codec start history
      (work codec disk call
        (.moveManifest name transaction recovered transactions
          completed)) := by
  rcases isSound with ⟨remaining, completedMeet, stored, hash⟩
  have applying : (removeManifest disk transaction).1.applying =
      disk.applying :=
    applying_removeManifest transaction
  exact {
    files := files.removeManifest transaction
    transactions := transactionsSound.removeManifest stored hash
    phase := by
      rintro call' phase ⟨⟩
      refine ⟨?_, ?_, ?_, hash⟩
      · intro other isThere
        exact remaining other (applying ▸ isThere)
      · intro other isCompleted transaction' isStored
        exact completedMeet other isCompleted transaction'
          (applying ▸ isStored)
      · exact applying.symm ▸ stored
    returned := fun isReturned =>
      absurd isReturned (returned_not_mem_removeManifest transaction) }

theorem WorkSound.removeData
    (files : FilesSound start disk history)
    (transactionsSound : TransactionsSound codec start disk history)
    {name : String} {transaction : AckTransaction} {recovered : Bool}
    {transactions completed : List String}
    (isSound : ApplyPhaseSound codec disk history call
      (.removeData name transaction recovered transactions completed)) :
    WorkSound codec start history
      (work codec disk call
        (.removeData name transaction recovered transactions completed)) := by
  rcases isSound with ⟨remaining, completedMeet, stored, hash⟩
  have applying : (Edge.removeData disk transaction).1.applying =
      disk.applying :=
    applying_removeData transaction
  exact {
    files := files.removeData transaction
    transactions := transactionsSound.removeData stored hash
    phase := by
      rintro call' phase ⟨⟩
      constructor
      · intro other isThere
        rcases remaining other (applying ▸ isThere) with first | later
        · rcases List.mem_cons.mp first with rfl | inRest
          · exact Or.inr (by simp)
          · exact Or.inl inRest
        · exact Or.inr (List.mem_append_left _ later)
      · intro other isCompleted transaction' isStored
        have isStored' : StoredIn codec disk.applying other transaction' :=
          applying ▸ isStored
        rcases List.mem_append.mp isCompleted with before | new
        · exact (completedMeet other before transaction'
            isStored').append _
        · rw [List.mem_singleton.mp new] at isStored'
          rw [isStored'.unique stored]
          exact collectedIn_collect call transaction recovered
    returned := fun isReturned =>
      absurd isReturned (returned_not_mem_removeData transaction) }

theorem WorkSound.append
    (files : FilesSound start disk history)
    (transactionsSound : TransactionsSound codec start disk history)
    {batches : List (Nat × List UInt8)} {completed : List String}
    (isSound : ApplyPhaseSound codec disk history call
      (.append batches completed)) :
    WorkSound codec start history
      (work codec disk call (.append batches completed)) := by
  rcases isSound with ⟨remaining, completedMeet⟩
  cases batches with
  | nil =>
      exact {
        files := files
        transactions := transactionsSound
        phase := by
          rintro call' phase ⟨⟩
          refine ⟨remaining, completedMeet.imp ?_⟩
          rintro transaction (audited | ⟨event, utcDate, encoded, _, ⟨⟩, _⟩)
          exact audited
        returned := by
          rintro ⟨⟩ }
  | cons batch batches =>
      rcases batch with ⟨utcDate, encoded⟩
      exact {
        files := { files with }
        transactions := transactionsSound.append utcDate encoded
        phase := by
          rintro call' phase ⟨⟩
          refine ⟨remaining, completedMeet.imp ?_⟩
          rintro transaction (audited | batched)
          · exact Or.inl (audited.append utcDate encoded)
          · exact batched.written disk.ledger
        returned := by
          rintro ⟨⟩ }

theorem WorkSound.unlinkTransactions
    (files : FilesSound start disk history)
    (transactionsSound : TransactionsSound codec start disk history)
    {completed : List String}
    (isSound : ApplyPhaseSound codec disk history call
      (.unlinkTransactions completed)) :
    WorkSound codec start history
      (work codec disk call (.unlinkTransactions completed)) := by
  rcases isSound with ⟨remaining, completedMeet⟩
  cases completed with
  | nil =>
      have none : ∀ name, disk.applying.get? name = none := by
        intro name
        by_contra isThere
        rcases remaining name isThere with ⟨⟨⟩⟩ | ⟨⟨⟩⟩
      exact {
        files := files.quiet trivial
        transactions := transactionsSound.record rfl fun _ => none
        phase := by
          rintro call' phase ⟨⟩
        returned := fun _ => ⟨rfl, none⟩ }
  | cons name completed =>
      exact {
        files := { files with }
        transactions := transactionsSound.erase fun transaction stored _ =>
          completedMeet name List.mem_cons_self transaction stored
        phase := by
          rintro call' phase ⟨⟩
          constructor
          · apply Remaining.erase
            intro other isThere
            rcases remaining other isThere with ⟨⟨⟩⟩ | isCompleted
            exact (List.mem_cons.mp isCompleted).imp_right Or.inr
          · have others : CompletedMeet codec disk completed
                (Audited codec disk.ledger) := fun other isCompleted =>
              completedMeet other (List.mem_cons_of_mem _ isCompleted)
            exact others.erase name
        returned := by
          rintro ⟨⟩ }

/-- One change of a call. -/
theorem WorkSound.work
    {phase : ApplyPhase} (files : FilesSound start disk history)
    (transactionsSound : TransactionsSound codec start disk history)
    (isSound : ApplyPhaseSound codec disk history call phase) :
    WorkSound codec start history (work codec disk call phase) := by
  cases phase with
  | accept manifests acks transactions =>
      rcases isSound with ⟨knows, remaining⟩
      cases acks with
      | nil =>
          exact {
            files := files
            transactions := transactionsSound
            phase := by
              rintro call' phase ⟨⟩
              constructor
              · intro name isThere
                rcases remaining name isThere with before | ⟨⟨⟩⟩
                left
                rw [List.mem_insertionSort, List.mem_dedup]
                exact before
              · rintro name ⟨⟩
            returned := by
              rintro ⟨⟩ }
      | cons name acks =>
          exact WorkSound.acceptAck files transactionsSound knows remaining
  | unlinkAck manifests name chunkId acks transactions =>
      rcases isSound with ⟨⟨ready, began, known⟩, remaining⟩
      exact {
        files := { files with }
        transactions := { transactionsSound with }
        phase := by
          rintro call' phase ⟨⟩
          refine ⟨⟨ready, began, ?_⟩, remaining⟩
          intro other manifest found
          rw [Dict.get?_erase] at found
          split at found
          next => cases found
          next => exact known other manifest found
        returned := by
          rintro ⟨⟩ }
  | apply transactions completed =>
      rcases isSound with ⟨remaining, completedMeet⟩
      cases transactions with
      | nil =>
          exact {
            files := files
            transactions := transactionsSound
            phase := by
              rintro call' phase ⟨⟩
              exact ⟨remaining, completedMeet.imp fun transaction collected =>
                Or.inr collected.batchedIn⟩
            returned := by
              rintro ⟨⟩ }
      | cons name transactions =>
          exact WorkSound.beginTransaction files transactionsSound remaining
            completedMeet
  | moveManifest name transaction recovered transactions completed =>
      exact WorkSound.moveManifest files transactionsSound isSound
  | removeData name transaction recovered transactions completed =>
      exact WorkSound.removeData files transactionsSound isSound
  | append batches completed =>
      exact WorkSound.append files transactionsSound isSound
  | writeStatus completed =>
      exact {
        files := { files with }
        transactions := { transactionsSound with }
        phase := by
          rintro call' phase ⟨⟩
          exact isSound
        returned := by
          rintro ⟨⟩ }
  | unlinkTransactions completed =>
      exact WorkSound.unlinkTransactions files transactionsSound isSound

end Phases

/-! ## Runs -/

section Runs

variable {β : Type} {codec : SpoolCodec β} {start : AckDisk β}
variable {before : SpoolState β}

/-- What every step keeps. -/
structure SpoolSound (codec : SpoolCodec β) (start : AckDisk β)
    (state : SpoolState β) : Prop where
  files : FilesSound start state.disk state.history
  transactions : TransactionsSound codec start state.disk state.history
  phase : ∀ call phase, state.running = some (call, phase) →
    ApplyPhaseSound codec state.disk state.history call phase
  applied : state.history.head? = some .returned →
    state.running = none ∧ ∀ name, state.disk.applying.get? name = none

theorem SpoolSound.audit (sound : SpoolSound codec start before) :
    Audit codec start before where
  audited := by
    intro later earlier transaction content split isUnlinked
    exact (sound.transactions.audited later earlier transaction content split
      isUnlinked).readable
  applied := fun isReturned => (sound.applied isReturned).2
  preserved := sound.files.preserved
  unlinkedSealed := sound.files.unlinkedSealed
  removed := sound.files.removed
  licensed := sound.transactions.licensed

theorem WorkSound.after
    {worked : AppliedWork β}
    (isSound : WorkSound codec start before.history worked)
    (recorded : worked.effects = [] → before.history.head? ≠ some .returned) :
    SpoolSound codec start (before.after worked) where
  files := isSound.files
  transactions := isSound.transactions
  phase := by
    intro call phase isRunning
    apply isSound.phase
    rw [SpoolState.after] at isRunning
    split at isRunning
    next isNext =>
      cases isRunning
      exact isNext
    next => cases isRunning
    next => cases isRunning
  applied := by
    intro isReturned
    have member : .returned ∈ worked.effects := by
      cases isEffects : worked.effects with
      | nil =>
          rw [SpoolState.after, isEffects] at isReturned
          exact absurd isReturned (recorded isEffects)
      | cons effect effects =>
          rw [SpoolState.after, isEffects] at isReturned
          cases isReturned
          exact List.mem_cons_self
    rcases isSound.returned member with ⟨returns, none⟩
    refine ⟨?_, none⟩
    rw [SpoolState.after, returns]

/-- A call which begins finds all transactions. -/
theorem SpoolSound.beginCall
    (sound : SpoolSound codec start before) (applyId : String) (now : Nat) :
    WorkSound codec start before.history
      (beginCall codec before.disk applyId now) := by
  unfold Edge.beginCall
  split
  next empty =>
    have none : ∀ name, before.disk.applying.get? name = none := by
      intro name
      rw [Dict.get?, empty.2]
      rfl
    exact {
      files := sound.files.quiet trivial
      transactions := sound.transactions.record rfl fun _ => none
      phase := by
        rintro call phase ⟨⟩
      returned := fun _ => ⟨rfl, none⟩ }
  next =>
    exact {
      files := sound.files.quiet trivial
      transactions := sound.transactions.record rfl (by rintro ⟨⟩)
      phase := by
        rintro call phase ⟨⟩
        refine ⟨⟨before.disk.ready, List.mem_cons_self,
          fun chunkId manifest found => knownReady_of_scanReady found⟩, ?_⟩
        intro name isThere
        left
        rcases Option.ne_none_iff_exists'.mp isThere with ⟨content, found⟩
        rw [sortedKeys, List.mem_insertionSort]
        exact List.mem_map.mpr
          ⟨(name, content), (Dict.mem_entries_iff _).mpr found, rfl⟩
      returned := by
        intro isReturned
        cases List.mem_singleton.mp isReturned }

theorem SpoolSound.step
    {label : SpoolLabel β} {after : SpoolState β}
    (sound : SpoolSound codec start before)
    (stepped : spoolStep codec before label = some after) :
    SpoolSound codec start after := by
  cases label with
  | applyAcks applyId now =>
      simp only [spoolStep] at stepped
      split at stepped
      next => cases stepped
      next =>
        cases stepped
        apply WorkSound.after (sound.beginCall applyId now)
        intro none
        unfold Edge.beginCall at none
        split at none
        next => cases none
        next => cases none
  | work =>
      rcases Option.map_eq_some_iff.mp stepped with
        ⟨⟨call, phase⟩, isRunning, rfl⟩
      apply WorkSound.after
        (WorkSound.work sound.files sound.transactions
          (sound.phase call phase isRunning))
      intro _ isReturned
      rw [(sound.applied isReturned).1] at isRunning
      cases isRunning
  | crash written =>
      rcases Option.map_eq_some_iff.mp stepped with
        ⟨⟨call, phase⟩, isRunning, rfl⟩
      have kept : FilesSound start (cutDisk before.disk written phase)
            before.history ∧
          TransactionsSound codec start (cutDisk before.disk written phase)
            before.history := by
        unfold cutDisk
        split
        next utcDate encoded _ _ =>
          exact ⟨{ sound.files with },
            sound.transactions.append utcDate (encoded.take written)⟩
        all_goals exact ⟨sound.files, sound.transactions⟩
      exact {
        files := kept.1
        transactions := kept.2
        phase := by
          rintro call phase ⟨⟩
        applied := by
          intro isReturned
          rw [(sound.applied isReturned).1] at isRunning
          cases isRunning }
  | place path content =>
      cases stepped
      have recorded : TransactionsSound codec start before.disk
          (.placed path content :: before.history) :=
        sound.transactions.record rfl (by rintro ⟨⟩)
      exact {
        files := sound.files.place path content
        transactions := { recorded with }
        phase := by
          intro call phase isRunning
          exact (sound.phase call phase isRunning).mono rfl rfl
            (List.subset_cons_self _ _)
        applied := by
          rintro ⟨⟩ }
  | deliver name content =>
      cases stepped
      exact {
        files := { sound.files with }
        transactions := { sound.transactions with }
        phase := by
          intro call phase isRunning
          exact (sound.phase call phase isRunning).mono rfl rfl
            (List.Subset.refl _)
        applied := sound.applied }
  | sealDay utcDate content =>
      cases stepped
      have placed : TransactionsSound codec start before.disk
          (.placed (sealedPath utcDate) content :: before.history) :=
        sound.transactions.record rfl (by rintro ⟨⟩)
      have recorded : TransactionsSound codec start before.disk
          (.sealedDay utcDate :: .placed (sealedPath utcDate) content ::
            before.history) :=
        placed.record rfl (by rintro ⟨⟩)
      exact {
        files := (sound.files.place (sealedPath utcDate) content).clean
          utcDate
        transactions := { recorded with }
        phase := by
          intro call phase isRunning
          apply (sound.phase call phase isRunning).mono rfl rfl
          exact fun effect member =>
            List.mem_cons_of_mem _ (List.mem_cons_of_mem _ member)
        applied := by
          rintro ⟨⟩ }

/-! ## The result -/

theorem spoolSound_start (start : AckDisk β) :
    SpoolSound codec start { disk := start } where
  files := {
    preserved := by
      intro later earlier transaction content split
      cases later <;> cases split
    unlinkedSealed := by
      intro later earlier transaction content split
      cases later <;> cases split
    removed := by
      rintro path (atStart | ⟨content, ⟨⟩⟩) absent
      simp only at absent
      rw [absent] at atStart
      cases atStart
    present := fun path isPresent => Or.inl isPresent }
  transactions := {
    traced := by
      rintro transaction content ⟨⟩
    audited := by
      intro later earlier transaction content split
      cases later <;> cases split
    stored := fun name transaction stored => Or.inl ⟨name, stored⟩
    licensed := by
      rintro effect ⟨⟩ }
  phase := by
    rintro call phase ⟨⟩
  applied := by
    rintro ⟨⟩

/--
Whatever files there are in the beginning, wherever calls of `apply_acks` are
cut off and whatever happens between their changes: removed chunks are
audited, moved manifests are kept, and nothing is removed without a licence.
-/
theorem acks_audited
    (codec : SpoolCodec β) (start : AckDisk β)
    {labels : List (SpoolLabel β)} {final : SpoolState β}
    (reached : runFrom (spoolStep codec) { disk := start } labels =
      some final) :
    Audit codec start final := by
  have sound : SpoolSound codec start final :=
    invariant_of_run
      (fun _ _ _ (before : SpoolSound codec start _) _ stepped =>
        before.step stepped)
      (spoolSound_start start) (stepsMeet_true _ labels) reached
  exact sound.audit

end Runs

/-! ## Runs on two chunks -/

section Sample

/-- The files of a small spool. -/
inductive SpoolFile where
  | text (content : String)
  | ack (content : AckV1)
  | manifest (content : ChunkManifestV1)
  | transaction (content : AckTransaction)
deriving DecidableEq

/-- One of the first nine days of the epoch. -/
def dateText (utcDate : Nat) : String := "1970-01-0" ++ toString (utcDate + 1)

/-- The first millisecond of such a day. -/
def midnightText (instant : Nat) : String :=
  dateText (dateOfNs instant) ++ "T00:00:00.000Z"

/-- A field of a JSON object, with a quoted text. -/
def quotedField (key : String) (value : Option String) : List String :=
  value.toList.map fun text => "\"" ++ key ++ "\":\"" ++ text ++ "\""

def plainField (key : String) (value : Option String) : List String :=
  value.toList.map fun text => "\"" ++ key ++ "\":" ++ text

/-- The JSON text of an event, its keys sorted. -/
def eventText (event : TransferEvent) : String :=
  "\x7b" ++ ",".intercalate
    (quotedField "ack_durable_at" (event.applied.map (·.ackDurableAt)) ++
      quotedField "apply_id" (some event.applyId) ++
      quotedField "chunk_id" event.chunkId ++
      quotedField "collector_id" (event.applied.map (·.collectorId)) ++
      quotedField "error" event.error ++
      quotedField "event" (some event.event.text) ++
      quotedField "event_id" (some event.eventId) ++
      quotedField "expected_sha256" event.expectedSha256 ++
      quotedField "occurred_at" (some (midnightText event.occurredAt)) ++
      quotedField "received_sha256" event.receivedSha256 ++
      plainField "recovered" (event.recovered.map toString) ++
      quotedField "sha256" (event.applied.map (·.sha256)) ++
      plainField "size_bytes"
        (event.applied.map fun applied => toString applied.sizeBytes) ++
      quotedField "utc_date"
        (event.applied.map fun applied => dateText applied.utcDate)) ++
    "\x7d"

/-- A codec which writes the events below as the JSON library does. -/
def spoolCodec : SpoolCodec SpoolFile where
  dumps event :=
    ((eventText event).toList.map fun character =>
      UInt8.ofNat character.toNat).filter (· ≠ newline)
  oneLine := by
    intro event member
    simpa using (List.mem_filter.mp member).2
  validateAck
    | .ack content => .ok content
    | .text _ | .manifest _ | .transaction _ => .error "ValidationError"
  validateManifest
    | .manifest content => .ok content
    | .text _ | .ack _ | .transaction _ => .error "ValidationError"
  validateTransaction
    | .transaction content => .ok content
    | .text _ | .ack _ | .manifest _ => .error "ValidationError"
  transactionBytes := .transaction
  utcText := midnightText
  validate_transactionBytes := fun _ => rfl

theorem readyManifest_timeRange : midnightNs 3 ≤ midnightNs 3 := le_refl _

/-- A chunk of day 3 whose file has the given name. -/
def readyManifest (chunkId : String) (group : WriterGroup) (name : String) :
    ChunkManifestV1 where
  chunkId := chunkId
  dataPath := relativePath 3 group name
  sha256 := String.ofList (List.replicate 64 'a')
  sizeBytes := 3
  contentType := .parquet
  collectorId := "tokyo01"
  writerGroup := group
  utcDate := 3
  eventCount := 1
  minAppReceiveRealtimeNs := midnightNs 3
  maxAppReceiveRealtimeNs := midnightNs 3
  dataContractHash := String.ofList (List.replicate 64 'b')
  universeHash := String.ofList (List.replicate 64 'c')
  createdAt := midnightNs 4
  timeRange := readyManifest_timeRange

/-- The ACK of a chunk, durable at the following midnight. -/
def readyAck (manifest : ChunkManifestV1) : AckV1 :=
  ⟨manifest.chunkId, manifest.sha256, midnightNs 4⟩

/-- Chunks in the ready directory, each with its ACK. -/
def acknowledgedDisk (manifests : List ChunkManifestV1) :
    AckDisk SpoolFile where
  ready := manifests.foldl
    (fun ready manifest =>
      (ready.set manifest.dataPath (.text "abc")).set
        manifest.dataPath.manifest (.manifest manifest))
    Dict.empty
  acks := manifests.foldl
    (fun acks manifest =>
      acks.set (ackName manifest.chunkId) (.ack (readyAck manifest)))
    Dict.empty

def depthManifest : ChunkManifestV1 :=
  readyManifest "chunk-01" .depth "chunk.parquet"

def tradesManifest : ChunkManifestV1 :=
  readyManifest "chunk-02" .tradesMarket "chunk.parquet"

/-- The call dies in its write to the ledger; another one completes. -/
def auditedRun : List (SpoolLabel SpoolFile) :=
  [.applyAcks "first" (midnightNs 4)] ++ List.replicate 7 .work ++
    [.crash 100, .applyAcks "second" (midnightNs 5)] ++
    List.replicate 10 .work

theorem auditedRun_runs :
    (runFrom (spoolStep spoolCodec)
      { disk := acknowledgedDisk [depthManifest] } auditedRun).isSome := by
  decide +kernel

/-- Where the run leads. -/
def auditedFinal : SpoolState SpoolFile :=
  (runFrom (spoolStep spoolCodec)
    { disk := acknowledgedDisk [depthManifest] } auditedRun).get
      auditedRun_runs

def depthTransaction : AckTransaction :=
  ⟨readyAck depthManifest, depthManifest, midnightNs 4⟩

theorem acks_audited_recovered :
    auditedFinal.disk.ready.get? depthManifest.dataPath = none ∧
      (∃ event, IsRemoteGc spoolCodec depthTransaction event ∧
        Readable spoolCodec auditedFinal.disk.ledger event) ∧
        ∀ name, auditedFinal.disk.applying.get? name = none := by
  have gone : auditedFinal.disk.ready.get? depthManifest.dataPath =
      none := by
    decide +kernel
  have returned : auditedFinal.history =
      [] ++ .returned :: auditedFinal.history.tail := by
    decide +kernel
  have unlinked : .unlinkedData depthTransaction (.text "abc") ∈
      auditedFinal.history.tail := by
    decide +kernel
  have audit : Audit spoolCodec (acknowledgedDisk [depthManifest])
      auditedFinal :=
    acks_audited spoolCodec (acknowledgedDisk [depthManifest])
      (Option.some_get auditedRun_runs).symm
  exact ⟨gone,
    audit.audited [] _ depthTransaction _ returned unlinked,
    audit.applied (by rw [returned]; rfl)⟩

/-- Two manifests of an unsealed day have the same file name. -/
theorem acked_manifest_overwritten :
    ∃ final ∈ runFrom (spoolStep spoolCodec)
        { disk := acknowledgedDisk [depthManifest, tradesManifest] }
        (.applyAcks "first" (midnightNs 4) :: List.replicate 18 .work),
      final.history.head? = some .returned ∧
        final.disk.ready.get? depthManifest.dataPath.manifest = none ∧
        final.disk.ready.get? (sealedPath depthManifest.utcDate) = none ∧
        .sealedDay depthManifest.utcDate ∉ final.history ∧
        .manifest depthManifest ∉ final.disk.acked.values := by
  decide +kernel

end Sample

end ShadowDataPlane.Edge
