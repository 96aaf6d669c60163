import ShadowDataPlane.Edge.ApplyAcks

/-!
# What acknowledgements may do

`Audit` says what holds of the disk, whatever calls of `apply_acks` have done
to it: removed chunks have their events, moved manifests are kept, and nothing
is removed without a licence.  It is kept up in two parts, which do not depend
on where a call stands, what is known of the ready files (`FilesSound`) and of
the transactions (`TransactionsSound`).

A transaction file outlives its events: a chunk whose data is gone has a
transaction, or its event can be read (`Traced`).
-/

namespace ShadowDataPlane.Edge

open ShadowDataPlane.Foundation
open ShadowDataPlane.Contracts

section Audit

variable {β : Type} (codec : SpoolCodec β)

/-! ## The property -/

/-- The file which is removed, and the transaction it is removed for. -/
def SpoolEffect.removes : SpoolEffect β → Option (DataPath × AckTransaction)
  | .movedManifest transaction _ | .unlinkedManifest transaction _ =>
      some (transaction.manifest.dataPath.manifest, transaction)
  | .unlinkedData transaction _ =>
      some (transaction.manifest.dataPath, transaction)
  | .placed _ _ | .sealedDay _ | .began _ | .accepted _ _ _ | .returned =>
      none

/-- What takes the manifest of a transaction from `acked-manifests`. -/
def SpoolEffect.Replaces (effect : SpoolEffect β)
    (transaction : AckTransaction) : Prop :=
  match effect with
  | .movedManifest other _ => other.ackedKey = transaction.ackedKey
  | .sealedDay utcDate => utcDate = transaction.manifest.utcDate
  | .placed _ _ | .began _ | .accepted _ _ _ | .unlinkedManifest _ _
  | .unlinkedData _ _ | .returned => False

/-- The `REMOTE_GC` event of a transaction, whichever call has written it. -/
def IsRemoteGc (transaction : AckTransaction) (event : TransferEvent) :
    Prop :=
  event.event = .remoteGc ∧
    event.eventId = gcIdentity codec transaction ++ ":" ++ "REMOTE_GC"

/-- A line of the ledger is the event. -/
def Readable (ledger : Dict Nat (List UInt8)) (event : TransferEvent) :
    Prop :=
  ∃ utcDate bytes, ledger.get? utcDate = some bytes ∧
    codec.canonicalJsonBytes event ∈ linesOf newline bytes

/-- The ready manifest of a chunk, which no other one contradicts. -/
structure KnownReady (ready : Dict DataPath β) (manifest : ChunkManifestV1) :
    Prop where
  placed : ∃ content, ready.get? manifest.dataPath.manifest = some content ∧
    codec.validateManifest content = .ok manifest
  only : ∀ path content other, ready.get? path = some content →
    IsManifestPath path → codec.validateManifest content = .ok other →
      path = other.dataPath.manifest → other.chunkId = manifest.chunkId →
        other = manifest

/--
A transaction which was made of an ACK file: a valid one under the name of its
chunk, with the hash of the ready manifest which the call knew.
-/
structure Acknowledged (history : List (SpoolEffect β))
    (transaction : AckTransaction) : Prop where
  accepted : ∃ content,
    .accepted (ackName transaction.ack.chunkId) content transaction ∈
        history ∧
      codec.validateAck content = .ok transaction.ack
  hash : transaction.ack.sha256 = transaction.manifest.sha256
  known : ∃ ready, .began ready ∈ history ∧
    KnownReady codec ready transaction.manifest ∧
      transaction.manifest.chunkId = transaction.ack.chunkId

/-- The transaction which a file contains. -/
def StoredIn (applying : Dict String β) (name : String)
    (transaction : AckTransaction) : Prop :=
  ∃ content, applying.get? name = some content ∧
    codec.validateTransaction content = .ok transaction

/-- The file was there in the beginning or has been placed. -/
def Existed (start : AckDisk β) (history : List (SpoolEffect β))
    (path : DataPath) : Prop :=
  (start.ready.get? path).isSome ∨
    ∃ content, .placed path content ∈ history

/-- What entitles a transaction to remove files. -/
def Licensed (start : AckDisk β) (history : List (SpoolEffect β))
    (transaction : AckTransaction) : Prop :=
  (∃ name, StoredIn codec start.applying name transaction) ∨
    Acknowledged codec history transaction

/-- What holds of the disk after every step of every run. -/
structure Audit (start : AckDisk β) (state : SpoolState β) : Prop where
  /-- Once a call has returned, what was removed has its event. -/
  audited : ∀ later earlier transaction content,
    state.history = later ++ .returned :: earlier →
      .unlinkedData transaction content ∈ earlier →
        ∃ event, IsRemoteGc codec transaction event ∧
          Readable codec state.disk.ledger event
  /-- A call which has returned leaves no transaction. -/
  applied : state.history.head? = some .returned →
    ∀ name, state.disk.applying.get? name = none
  /-- A manifest which has been moved is kept. -/
  preserved : ∀ later earlier transaction content,
    state.history = later ++ .movedManifest transaction content :: earlier →
      (∀ effect ∈ later, ¬ effect.Replaces transaction) →
        state.disk.acked.get? transaction.ackedKey = some content
  /-- A manifest is unlinked only when its day is sealed. -/
  unlinkedSealed : ∀ later earlier transaction content,
    state.history =
        later ++ .unlinkedManifest transaction content :: earlier →
      Existed start earlier (sealedPath transaction.manifest.utcDate)
  /-- A ready file which is gone was removed for a transaction. -/
  removed : ∀ path, Existed start state.history path →
    state.disk.ready.get? path = none →
      ∃ effect ∈ state.history, ∃ transaction,
        effect.removes = some (path, transaction)
  /-- Such a transaction names the hash of its chunk and is licensed. -/
  licensed : ∀ effect ∈ state.history, ∀ path transaction,
    effect.removes = some (path, transaction) →
      transaction.ack.sha256 = transaction.manifest.sha256 ∧
        Licensed codec start state.history transaction

end Audit

/-! ## What is known of the ready manifests -/

section Ready

variable {β : Type} {codec : SpoolCodec β}

/-- The manifests which have been found among the files seen so far. -/
structure ScanSound (codec : SpoolCodec β) (seen : List (DataPath × β))
    (found : ReadyManifests) : Prop where
  placed : ∀ chunkId manifest, found.byId.get? chunkId = some manifest →
    manifest.chunkId = chunkId ∧
      ∃ content, (manifest.dataPath.manifest, content) ∈ seen ∧
        codec.validateManifest content = .ok manifest
  only : ∀ path content other, (path, content) ∈ seen →
    codec.validateManifest content = .ok other →
      path = other.dataPath.manifest →
        other.chunkId ∈ found.conflicted ∨
          found.byId.get? other.chunkId = some other
  apart : ∀ chunkId ∈ found.conflicted, found.byId.get? chunkId = none

/-- A file which is passed over. -/
theorem ScanSound.skip
    {seen : List (DataPath × β)} {found : ReadyManifests}
    (sound : ScanSound codec seen found) {entry : DataPath × β}
    (passed : ∀ other, codec.validateManifest entry.2 = .ok other →
      entry.1 = other.dataPath.manifest →
        other.chunkId ∈ found.conflicted ∨
          found.byId.get? other.chunkId = some other) :
    ScanSound codec (seen ++ [entry]) found where
  placed := by
    intro chunkId manifest isFound
    rcases sound.placed chunkId manifest isFound with
      ⟨named, content, isSeen, valid⟩
    exact ⟨named, content, List.mem_append_left _ isSeen, valid⟩
  only := by
    intro path content other isSeen valid here
    rcases List.mem_append.mp isSeen with before | new
    · exact sound.only path content other before valid here
    · cases List.mem_singleton.mp new
      exact passed other valid here
  apart := sound.apart

/-- One manifest which can be read. -/
theorem ScanSound.addReady
    {seen : List (DataPath × β)} {found : ReadyManifests}
    (sound : ScanSound codec seen found) {path : DataPath} {content : β}
    {manifest : ChunkManifestV1}
    (valid : codec.validateManifest content = .ok manifest) :
    ScanSound codec (seen ++ [(path, content)])
      (addReady found (path, manifest)) := by
  have isManifest : ∀ other,
      codec.validateManifest content = .ok other → other = manifest := by
    intro other isOther
    rw [valid] at isOther
    exact (Except.ok.inj isOther).symm
  unfold Edge.addReady
  split
  next misplaced =>
    apply sound.skip
    intro other isOther here
    rw [isManifest other isOther] at here
    exact absurd here misplaced
  next here =>
    rw [not_not] at here
    split
    next conflicted =>
      apply sound.skip
      intro other isOther _
      rw [isManifest other isOther]
      exact Or.inl conflicted
    next free =>
      split
      next absent =>
        exact {
          placed := by
            intro chunkId other isFound
            rw [Dict.get?_set] at isFound
            split at isFound
            next same =>
              cases isFound
              exact ⟨same.symm, content, by simp [← here], valid⟩
            next =>
              rcases sound.placed chunkId other isFound with
                ⟨named, bytes, isSeen, isValid⟩
              exact ⟨named, bytes, List.mem_append_left _ isSeen, isValid⟩
          only := by
            intro place bytes other isSeen isValid isPlace
            rcases List.mem_append.mp isSeen with before | new
            · rcases sound.only place bytes other before isValid isPlace with
                conflicted | isFound
              · exact Or.inl conflicted
              · right
                rw [Dict.get?_set, if_neg]
                · exact isFound
                · intro same
                  rw [same] at isFound
                  exact absurd (absent.symm.trans isFound) (by simp)
            · cases List.mem_singleton.mp new
              rw [isManifest other isValid]
              exact Or.inr (Dict.get?_set_self _ _ _)
          apart := by
            intro chunkId conflicted
            rw [Dict.get?_set, if_neg]
            · exact sound.apart chunkId conflicted
            · rintro rfl
              exact free conflicted }
      next existing isExisting =>
        split
        next same =>
          apply sound.skip
          intro other isOther _
          rw [isManifest other isOther]
          exact Or.inr (isExisting.trans (congrArg some same))
        next =>
          exact {
            placed := by
              intro chunkId other isFound
              rw [Dict.get?_erase] at isFound
              split at isFound
              next => cases isFound
              next =>
                rcases sound.placed chunkId other isFound with
                  ⟨named, bytes, isSeen, isValid⟩
                exact ⟨named, bytes, List.mem_append_left _ isSeen, isValid⟩
            only := by
              intro place bytes other isSeen isValid isPlace
              by_cases same : other.chunkId = manifest.chunkId
              · left
                rw [same]
                exact List.mem_cons_self
              · rcases List.mem_append.mp isSeen with before | new
                · rcases sound.only place bytes other before isValid
                    isPlace with conflicted | isFound
                  · exact Or.inl (List.mem_cons_of_mem _ conflicted)
                  · right
                    rw [Dict.get?_erase, if_neg same]
                    exact isFound
                · cases List.mem_singleton.mp new
                  exact absurd (congrArg (·.chunkId)
                    (isManifest other isValid)) same
            apart := by
              intro chunkId conflicted
              rw [Dict.get?_erase]
              split
              next => rfl
              next different =>
                exact sound.apart chunkId
                  (List.mem_of_ne_of_mem different conflicted) }

theorem ScanSound.scanManifest
    {seen : List (DataPath × β)} {scanned : ReadyManifests × ApplyCall}
    (sound : ScanSound codec seen scanned.1) (entry : DataPath × β) :
    ScanSound codec (seen ++ [entry])
      (scanManifest codec scanned entry).1 := by
  unfold Edge.scanManifest
  split
  next error isError =>
    apply sound.skip
    intro other isOther
    rw [isError] at isOther
    cases isOther
  next manifest isManifest => exact sound.addReady isManifest

theorem ScanSound.foldl
    (entries : List (DataPath × β)) {seen : List (DataPath × β)}
    {scanned : ReadyManifests × ApplyCall}
    (sound : ScanSound codec seen scanned.1) :
    ScanSound codec (seen ++ entries)
      (entries.foldl (Edge.scanManifest codec) scanned).1 := by
  induction entries generalizing seen scanned with
  | nil =>
      rw [List.append_nil]
      exact sound
  | cons entry rest induction =>
      have later := induction (sound.scanManifest entry)
      rw [List.append_assoc, List.singleton_append] at later
      exact later

/-- What a call finds is known, and no other manifest contradicts it. -/
theorem knownReady_of_scanReady
    {ready : Dict DataPath β} {call : ApplyCall} {chunkId : String}
    {manifest : ChunkManifestV1}
    (found : (scanReady codec ready call).1.get? chunkId = some manifest) :
    KnownReady codec ready manifest ∧ manifest.chunkId = chunkId := by
  have initially : ScanSound codec [] ({} : ReadyManifests) := {
    placed := by
      rintro chunkId manifest ⟨⟩
    only := by
      rintro path content other ⟨⟩
    apart := by
      rintro chunkId ⟨⟩ }
  have sound : ScanSound codec ([] ++ readyFiles ready)
      ((readyFiles ready).foldl (scanManifest codec) ({}, call)).1 :=
    @ScanSound.foldl β codec (readyFiles ready) [] ({}, call) initially
  rcases sound.placed chunkId manifest found with
    ⟨named, content, isSeen, valid⟩
  constructor
  · exact {
      placed := ⟨content,
        (Dict.mem_entries_iff _).mp (List.mem_of_mem_filter isSeen), valid⟩
      only := by
        intro path bytes other isFile named' isValid here same
        have isSeen' : (path, bytes) ∈ readyFiles ready :=
          List.mem_filter.mpr
            ⟨(Dict.mem_entries_iff _).mpr isFile, by simpa using named'⟩
        rw [named] at same
        rcases sound.only path bytes other isSeen' isValid here with
          conflicted | isFound
        · rw [same] at conflicted
          exact absurd ((sound.apart chunkId conflicted).symm.trans found)
            (by simp)
        · rw [same] at isFound
          exact Option.some.inj (isFound.symm.trans found) }
  · exact named

end Ready

/-! ## The ready files -/

section Files

variable {β : Type} {start disk : AckDisk β}
variable {history : List (SpoolEffect β)}

/-- What `Audit` says of the ready files and the acked manifests. -/
structure FilesSound (start disk : AckDisk β)
    (history : List (SpoolEffect β)) : Prop where
  preserved : ∀ later earlier transaction content,
    history = later ++ .movedManifest transaction content :: earlier →
      (∀ effect ∈ later, ¬ effect.Replaces transaction) →
        disk.acked.get? transaction.ackedKey = some content
  unlinkedSealed : ∀ later earlier transaction content,
    history = later ++ .unlinkedManifest transaction content :: earlier →
      Existed start earlier (sealedPath transaction.manifest.utcDate)
  removed : ∀ path, Existed start history path →
    disk.ready.get? path = none →
      ∃ effect ∈ history, ∃ transaction,
        effect.removes = some (path, transaction)
  present : ∀ path, (disk.ready.get? path).isSome →
    Existed start history path

/-- An effect which is recorded, with the disk it leaves. -/
theorem FilesSound.cons
    {after : AckDisk β} {effect : SpoolEffect β}
    (sound : FilesSound start disk history)
    (moved : ∀ transaction content,
      effect = .movedManifest transaction content →
        after.acked.get? transaction.ackedKey = some content)
    (kept : ∀ transaction : AckTransaction, ¬ effect.Replaces transaction →
      after.acked.get? transaction.ackedKey =
        disk.acked.get? transaction.ackedKey)
    (unlinked : ∀ transaction content,
      effect = .unlinkedManifest transaction content →
        (disk.ready.get?
          (sealedPath transaction.manifest.utcDate)).isSome)
    (removed : ∀ path, after.ready.get? path = none →
      (∃ transaction, effect.removes = some (path, transaction)) ∨
        disk.ready.get? path = none ∧
          ∀ content, effect ≠ .placed path content)
    (present : ∀ path, (after.ready.get? path).isSome →
      (disk.ready.get? path).isSome ∨
        ∃ content, effect = .placed path content) :
    FilesSound start after (effect :: history) where
  preserved := by
    intro later earlier transaction content split isKept
    rcases List.cons_eq_append_iff.mp split with
      ⟨rfl, isEffect⟩ | ⟨rest, rfl, isRest⟩
    · exact moved transaction content (List.cons.inj isEffect).1.symm
    · rw [kept transaction (isKept effect List.mem_cons_self)]
      exact sound.preserved rest earlier transaction content isRest
        fun other inRest => isKept other (List.mem_cons_of_mem _ inRest)
  unlinkedSealed := by
    intro later earlier transaction content split
    rcases List.cons_eq_append_iff.mp split with
      ⟨rfl, isEffect⟩ | ⟨rest, rfl, isRest⟩
    · rcases List.cons.inj isEffect with ⟨isUnlinked, rfl⟩
      exact sound.present _
        (unlinked transaction content isUnlinked.symm)
    · exact sound.unlinkedSealed rest earlier transaction content isRest
  removed := by
    intro path existed absent
    rcases removed path absent with ⟨transaction, removes⟩ | ⟨gone, other⟩
    · exact ⟨effect, List.mem_cons_self, transaction, removes⟩
    · have before : Existed start history path := by
        rcases existed with atStart | ⟨content, isPlaced⟩
        · exact Or.inl atStart
        · rcases List.mem_cons.mp isPlaced with isNew | inHistory
          · exact absurd isNew.symm (other content)
          · exact Or.inr ⟨content, inHistory⟩
      rcases sound.removed path before gone with
        ⟨old, inHistory, removes⟩
      exact ⟨old, List.mem_cons_of_mem _ inHistory, removes⟩
  present := by
    intro path isPresent
    rcases present path isPresent with before | ⟨content, isPlaced⟩
    · rcases sound.present path before with atStart | ⟨content, isPlaced⟩
      · exact Or.inl atStart
      · exact Or.inr ⟨content, List.mem_cons_of_mem _ isPlaced⟩
    · exact Or.inr ⟨content, isPlaced ▸ List.mem_cons_self⟩

/-- Nothing is done to the ready files. -/
def SpoolEffect.Quiet (effect : SpoolEffect β) : Prop :=
  match effect with
  | .began _ | .accepted _ _ _ | .returned => True
  | .placed _ _ | .sealedDay _ | .movedManifest _ _
  | .unlinkedManifest _ _ | .unlinkedData _ _ => False

theorem FilesSound.quiet
    (sound : FilesSound start disk history) {effect : SpoolEffect β}
    (quiet : effect.Quiet) : FilesSound start disk (effect :: history) := by
  apply sound.cons
  · rintro transaction content rfl
    exact quiet.elim
  · exact fun transaction _ => rfl
  · rintro transaction content rfl
    exact quiet.elim
  · intro path absent
    refine Or.inr ⟨absent, ?_⟩
    rintro content rfl
    exact quiet.elim
  · exact fun path isPresent => Or.inl isPresent

/-- A file is written, `SEALED.json` of a day included. -/
theorem FilesSound.place
    (sound : FilesSound start disk history) (path : DataPath)
    (content : β) :
    FilesSound start { disk with ready := disk.ready.set path content }
      (.placed path content :: history) := by
  apply sound.cons
  · rintro transaction bytes ⟨⟩
  · exact fun transaction _ => rfl
  · rintro transaction bytes ⟨⟩
  · intro other absent
    rw [Dict.get?_set] at absent
    split at absent
    next => cases absent
    next different =>
      refine Or.inr ⟨absent, ?_⟩
      rintro bytes ⟨⟩
      exact different rfl
  · intro other isPresent
    rw [Dict.get?_set] at isPresent
    split at isPresent
    next same => exact Or.inr ⟨content, same ▸ rfl⟩
    next => exact Or.inl isPresent

/-- Sealing a day removes its acked manifests. -/
theorem FilesSound.clean
    (sound : FilesSound start disk history) (utcDate : Nat) :
    FilesSound start
      { disk with
        acked := disk.acked.filterKey fun key => decide (key.1 ≠ utcDate) }
      (.sealedDay utcDate :: history) := by
  apply sound.cons
  · rintro transaction content ⟨⟩
  · intro transaction kept
    rw [Dict.get?_filterKey, if_pos]
    exact decide_eq_true (Ne.symm kept)
  · rintro transaction content ⟨⟩
  · exact fun path absent => Or.inr ⟨absent, by rintro content ⟨⟩⟩
  · exact fun path isPresent => Or.inl isPresent

/-- A ready file is removed. -/
theorem FilesSound.remove
    (sound : FilesSound start disk history) {path : DataPath}
    {transaction : AckTransaction} {effect : SpoolEffect β}
    (removes : effect.removes = some (path, transaction))
    {acked : Dict (Nat × String) β}
    (moved : ∀ other content, effect = .movedManifest other content →
      acked.get? other.ackedKey = some content)
    (kept : ∀ other : AckTransaction, ¬ effect.Replaces other →
      acked.get? other.ackedKey = disk.acked.get? other.ackedKey)
    (unlinked : ∀ other content, effect = .unlinkedManifest other content →
      (disk.ready.get? (sealedPath other.manifest.utcDate)).isSome) :
    FilesSound start
      { disk with ready := disk.ready.erase path, acked := acked }
      (effect :: history) := by
  apply sound.cons moved kept unlinked
  · intro other absent
    by_cases same : other = path
    · exact Or.inl ⟨transaction, same ▸ removes⟩
    · rw [Dict.get?_erase, if_neg same] at absent
      refine Or.inr ⟨absent, ?_⟩
      rintro content rfl
      cases removes
  · intro other isPresent
    rw [Dict.get?_erase] at isPresent
    split at isPresent
    next => cases isPresent
    next => exact Or.inl isPresent

theorem FilesSound.removeManifest
    (sound : FilesSound start disk history) (transaction : AckTransaction) :
    FilesSound start (removeManifest disk transaction).1
      ((removeManifest disk transaction).2 ++ history) := by
  unfold Edge.removeManifest
  simp only
  split
  next => exact sound
  next content isPresent =>
    split
    next isSealed =>
      apply sound.remove rfl
      · rintro other bytes ⟨⟩
      · exact fun other _ => rfl
      · rintro other bytes ⟨⟩
        exact isSealed
    next =>
      apply sound.remove rfl
      · rintro other bytes ⟨⟩
        exact Dict.get?_set_self _ _ _
      · intro other kept
        rw [Dict.get?_set, if_neg]
        exact fun same => kept same.symm
      · rintro other bytes ⟨⟩

theorem FilesSound.removeData
    (sound : FilesSound start disk history) (transaction : AckTransaction) :
    FilesSound start (removeData disk transaction).1
      ((removeData disk transaction).2 ++ history) := by
  unfold Edge.removeData
  split
  next => exact sound
  next content isPresent =>
    apply sound.remove rfl
    · rintro other bytes ⟨⟩
    · exact fun other _ => rfl
    · rintro other bytes ⟨⟩

end Files

/-! ## Transactions and their events -/

section Transactions

variable {β : Type} {codec : SpoolCodec β} {start disk after : AckDisk β}
variable {history : List (SpoolEffect β)}

/-- The ledger has the event of the transaction. -/
def Audited (codec : SpoolCodec β) (ledger : Dict Nat (List UInt8))
    (transaction : AckTransaction) : Prop :=
  ∃ event, IsRemoteGc codec transaction event ∧
    LedgerRecords codec.toEventCodec ledger event

/-- The event is there, or the transaction from which it will be written. -/
def Traced (codec : SpoolCodec β) (disk : AckDisk β)
    (transaction : AckTransaction) : Prop :=
  Audited codec disk.ledger transaction ∨
    transaction.ack.sha256 = transaction.manifest.sha256 ∧
      ∃ name, StoredIn codec disk.applying name transaction

/-- What `Audit` says of transactions and their events. -/
structure TransactionsSound (codec : SpoolCodec β) (start disk : AckDisk β)
    (history : List (SpoolEffect β)) : Prop where
  traced : ∀ transaction content,
    .unlinkedData transaction content ∈ history →
      Traced codec disk transaction
  audited : ∀ later earlier transaction content,
    history = later ++ .returned :: earlier →
      .unlinkedData transaction content ∈ earlier →
        Audited codec disk.ledger transaction
  stored : ∀ name transaction,
    StoredIn codec disk.applying name transaction →
      Licensed codec start history transaction
  licensed : ∀ effect ∈ history, ∀ path transaction,
    effect.removes = some (path, transaction) →
      transaction.ack.sha256 = transaction.manifest.sha256 ∧
        Licensed codec start history transaction

theorem Audited.readable
    {ledger : Dict Nat (List UInt8)} {transaction : AckTransaction}
    (audited : Audited codec ledger transaction) :
    ∃ event, IsRemoteGc codec transaction event ∧
      Readable codec ledger event := by
  rcases audited with ⟨event, isGc, utcDate, bytes, found, records⟩
  exact ⟨event, isGc, utcDate, bytes, found, records.mem_linesOf⟩

theorem Audited.append
    {ledger : Dict Nat (List UInt8)} {transaction : AckTransaction}
    (audited : Audited codec ledger transaction) (utcDate : Nat)
    (encoded : List UInt8) :
    Audited codec (appendToDay ledger utcDate encoded) transaction := by
  rcases audited with ⟨event, isGc, records⟩
  exact ⟨event, isGc, records.append utcDate encoded⟩

theorem StoredIn.unique
    {applying : Dict String β} {name : String}
    {left right : AckTransaction} (isLeft : StoredIn codec applying name left)
    (isRight : StoredIn codec applying name right) : left = right := by
  rcases isLeft with ⟨content, found, valid⟩
  rcases isRight with ⟨content', found', valid'⟩
  rw [found] at found'
  cases found'
  rw [valid] at valid'
  exact Except.ok.inj valid'

theorem StoredIn.of_erase
    {applying : Dict String β} {name other : String}
    {transaction : AckTransaction}
    (stored : StoredIn codec (applying.erase name) other transaction) :
    StoredIn codec applying other transaction := by
  rcases stored with ⟨content, found, valid⟩
  rw [Dict.get?_erase] at found
  split at found
  next => cases found
  next => exact ⟨content, found, valid⟩

/-- The other transactions stay where they are. -/
theorem StoredIn.erase
    {applying : Dict String β} {name other : String}
    {transaction : AckTransaction}
    (stored : StoredIn codec applying other transaction)
    (different : other ≠ name) :
    StoredIn codec (applying.erase name) other transaction := by
  rcases stored with ⟨content, found, valid⟩
  refine ⟨content, ?_, valid⟩
  rw [Dict.get?_erase, if_neg different]
  exact found

theorem Acknowledged.cons
    {transaction : AckTransaction}
    (acknowledged : Acknowledged codec history transaction)
    (effect : SpoolEffect β) :
    Acknowledged codec (effect :: history) transaction where
  accepted := by
    rcases acknowledged.accepted with ⟨content, isAccepted, valid⟩
    exact ⟨content, List.mem_cons_of_mem _ isAccepted, valid⟩
  hash := acknowledged.hash
  known := by
    rcases acknowledged.known with ⟨ready, began, isKnown⟩
    exact ⟨ready, List.mem_cons_of_mem _ began, isKnown⟩

theorem Licensed.cons
    {transaction : AckTransaction}
    (licensed : Licensed codec start history transaction)
    (effect : SpoolEffect β) :
    Licensed codec start (effect :: history) transaction :=
  licensed.imp_right fun acknowledged => acknowledged.cons effect

/-- A change which loses no trace and adds licensed transactions only. -/
theorem TransactionsSound.change
    (sound : TransactionsSound codec start disk history)
    (audited : ∀ transaction, Audited codec disk.ledger transaction →
      Audited codec after.ledger transaction)
    (stored : ∀ transaction name,
      StoredIn codec disk.applying name transaction →
        transaction.ack.sha256 = transaction.manifest.sha256 →
          Traced codec after transaction)
    (licensed : ∀ name transaction,
      StoredIn codec after.applying name transaction →
        Licensed codec start history transaction) :
    TransactionsSound codec start after history where
  traced := by
    intro transaction content isUnlinked
    rcases sound.traced transaction content isUnlinked with
      isAudited | ⟨hash, name, isStored⟩
    · exact Or.inl (audited transaction isAudited)
    · exact stored transaction name isStored hash
  audited := by
    intro later earlier transaction content split isUnlinked
    exact audited transaction
      (sound.audited later earlier transaction content split isUnlinked)
  stored := licensed
  licensed := sound.licensed

/-- A write to the ledger, cut or not. -/
theorem TransactionsSound.append
    (sound : TransactionsSound codec start disk history) (utcDate : Nat)
    (encoded : List UInt8) :
    TransactionsSound codec start
      { disk with ledger := appendToDay disk.ledger utcDate encoded }
      history := by
  apply sound.change
  · exact fun transaction audited => audited.append utcDate encoded
  · exact fun transaction name stored hash => Or.inr ⟨hash, name, stored⟩
  · exact sound.stored

/-- A transaction which cannot have removed anything, or has its event. -/
theorem TransactionsSound.erase
    (sound : TransactionsSound codec start disk history) {name : String}
    (done : ∀ transaction, StoredIn codec disk.applying name transaction →
      transaction.ack.sha256 = transaction.manifest.sha256 →
        Audited codec disk.ledger transaction) :
    TransactionsSound codec start
      { disk with applying := disk.applying.erase name } history := by
  apply sound.change
  · exact fun transaction audited => audited
  · intro transaction other stored hash
    by_cases same : other = name
    · subst same
      exact Or.inl (done transaction stored hash)
    · exact Or.inr ⟨hash, other, stored.erase same⟩
  · exact fun other transaction stored =>
      sound.stored other transaction stored.of_erase

/-- A new transaction, where there was none. -/
theorem TransactionsSound.accept
    (sound : TransactionsSound codec start disk history) {name : String}
    (absent : disk.applying.get? name = none) {transaction : AckTransaction}
    (licensed : Licensed codec start history transaction) :
    TransactionsSound codec start
      { disk with
        applying :=
          disk.applying.set name (codec.transactionBytes transaction) }
      history := by
  apply sound.change
  · exact fun other audited => audited
  · rintro other place ⟨content, found, valid⟩ hash
    refine Or.inr ⟨hash, place, content, ?_, valid⟩
    rw [Dict.get?_set, if_neg]
    · exact found
    · rintro rfl
      exact absurd (absent.symm.trans found) (by simp)
  · rintro place other ⟨content, found, valid⟩
    rw [Dict.get?_set] at found
    split at found
    next =>
      cases found
      rw [codec.validate_transactionBytes] at valid
      rw [← Except.ok.inj valid]
      exact licensed
    next => exact sound.stored place other ⟨content, found, valid⟩

/-- An effect which removes nothing. -/
theorem TransactionsSound.record
    (sound : TransactionsSound codec start disk history)
    {effect : SpoolEffect β} (keeps : effect.removes = none)
    (returned : effect = .returned →
      ∀ name, disk.applying.get? name = none) :
    TransactionsSound codec start disk (effect :: history) where
  traced := by
    intro transaction content isUnlinked
    rcases List.mem_cons.mp isUnlinked with rfl | inHistory
    · cases keeps
    · exact sound.traced transaction content inHistory
  audited := by
    intro later earlier transaction content split isUnlinked
    rcases List.cons_eq_append_iff.mp split with
      ⟨rfl, isEffect⟩ | ⟨rest, rfl, isRest⟩
    · rcases List.cons.inj isEffect with ⟨isReturned, rfl⟩
      rcases sound.traced transaction content isUnlinked with
        audited | ⟨_, name, bytes, found, _⟩
      · exact audited
      · rw [returned isReturned.symm name] at found
        cases found
    · exact sound.audited rest earlier transaction content isRest isUnlinked
  stored := fun name transaction isStored =>
    (sound.stored name transaction isStored).cons effect
  licensed := by
    intro other isOther path transaction removes
    rcases List.mem_cons.mp isOther with rfl | inHistory
    · rw [keeps] at removes
      cases removes
    · rcases sound.licensed other inHistory path transaction removes with
        ⟨hash, licensed⟩
      exact ⟨hash, licensed.cons effect⟩

/-- A file is removed for a transaction which is on the disk. -/
theorem TransactionsSound.remove
    (sound : TransactionsSound codec start disk history)
    {effect : SpoolEffect β} {path : DataPath}
    {transaction : AckTransaction} {name : String}
    (removes : effect.removes = some (path, transaction))
    (stored : StoredIn codec disk.applying name transaction)
    (hash : transaction.ack.sha256 = transaction.manifest.sha256) :
    TransactionsSound codec start disk (effect :: history) where
  traced := by
    intro other content isUnlinked
    rcases List.mem_cons.mp isUnlinked with rfl | inHistory
    · cases removes
      exact Or.inr ⟨hash, name, stored⟩
    · exact sound.traced other content inHistory
  audited := by
    intro later earlier other content split isUnlinked
    rcases List.cons_eq_append_iff.mp split with
      ⟨rfl, isEffect⟩ | ⟨rest, rfl, isRest⟩
    · cases isEffect
      cases removes
    · exact sound.audited rest earlier other content isRest isUnlinked
  stored := fun other transaction isStored =>
    (sound.stored other transaction isStored).cons effect
  licensed := by
    intro other isOther place unlinked isRemoved
    rcases List.mem_cons.mp isOther with rfl | inHistory
    · rw [removes] at isRemoved
      cases isRemoved
      exact ⟨hash, (sound.stored name transaction stored).cons _⟩
    · rcases sound.licensed other inHistory place unlinked isRemoved with
        ⟨same, licensed⟩
      exact ⟨same, licensed.cons effect⟩

end Transactions

end ShadowDataPlane.Edge
