import Mathlib.Data.List.DropRight
import Mathlib.Logic.Equiv.List
import Mathlib.Tactic.DeriveCountable
import ShadowDataPlane.Edge.DayInventory
import ShadowDataPlane.Edge.JournalBytes

/-!
# Appends which are cut

The journal of a UTC day is a file to which every record appends one line.  An
append may end after any number of bytes: the process dies, the disk is full,
or the file takes less than it was given, which `_record` does not notice.
What has reached the file stays there, and the next append continues behind
it, the one of the retry in `record_generated` included.

Sealing the day reads the journal line by line and refuses a line which is no
whole document.  The day can be sealed at every moment, with all its
references, exactly as long as no append leaves such a line.
-/

namespace ShadowDataPlane.Edge

open ShadowDataPlane.Foundation
open ShadowDataPlane.Contracts

/-! ## The journal and the manifests of a day -/

/-- The files of a day which is not sealed, and what `record` returned for. -/
structure DayDisk where
  journal : Option (List UInt8) := none
  /-- The manifests in the ready directory and in `acked-manifests`. -/
  manifests : List ChunkManifestV1 := []
  returned : List ChunkRefV1 := []
deriving DecidableEq

/-- How an append ends, and how many bytes have reached the file. -/
inductive AppendEnd where
  | unopened
  | raised (written : Nat)
  | returned (written : Nat)
deriving DecidableEq, Repr

/-- Whether the call which appends returns. -/
def AppendEnd.Returns : AppendEnd → Prop
  | .unopened | .raised _ => False
  | .returned _ => True

instance (append : AppendEnd) : Decidable append.Returns :=
  match append with
  | .unopened | .raised _ => inferInstanceAs (Decidable False)
  | .returned _ => inferInstanceAs (Decidable True)

/-- Whether the journal is opened, which creates it. -/
def AppendEnd.Opens : AppendEnd → Prop
  | .unopened => False
  | .raised _ | .returned _ => True

instance (append : AppendEnd) : Decidable append.Opens :=
  match append with
  | .unopened => inferInstanceAs (Decidable False)
  | .raised _ | .returned _ => inferInstanceAs (Decidable True)

/-- The calls which record a chunk, with their appends. -/
inductive RecordCall where
  | record (chunk : ChunkRefV1) (append : AppendEnd)
  /-- `ChunkSession.finish` and the `record` which follows it. -/
  | finish (manifest : ChunkManifestV1) (append : AppendEnd)
  /-- The second attempt follows an `OSError` if there is a `recover_io`. -/
  | recordGenerated (manifest : ChunkManifestV1) (append : AppendEnd)
      (retry : Option (ChunkManifestV1 × AppendEnd))
deriving DecidableEq

namespace DayDisk

section Source

variable (codec : RefCodec) (utcDate : Nat)

/-- The lines of the journal as references. -/
def journaled (disk : DayDisk) : Except ValidationError (List ChunkRefV1) :=
  (linesOf newline (disk.journal.getD [])).mapM codec.validateJson

/-- `_read_refs`. -/
def readRefs (disk : DayDisk) : Except ValidationError (List ChunkRefV1) :=
  match disk.journal with
  | none => .ok []
  | some _ => do
      let chunks ← disk.journaled codec
      .ok (inventoryOf
        (chunks ++ disk.manifests.map ChunkManifestV1.asRef))

/-- The bytes which an append has written. -/
def write (disk : DayDisk) (chunk : ChunkRefV1) (written : Nat) : DayDisk :=
  { disk with
    journal := some (disk.journal.getD [] ++
      (codec.canonicalJsonBytes chunk).take written) }

/-- `_record`. -/
def record (disk : DayDisk) (chunk : ChunkRefV1) : AppendEnd → DayDisk
  | .unopened => disk
  | .raised written => disk.write codec chunk written
  | .returned written =>
      { disk.write codec chunk written with
        returned := disk.returned ++ [chunk] }

/-- `_generate_and_record`, which raises for a manifest of another day. -/
def generateAndRecord (disk : DayDisk) (manifest : ChunkManifestV1)
    (append : AppendEnd) : DayDisk :=
  if manifest.utcDate = utcDate then
    { disk with manifests := disk.manifests ++ [manifest] }.record codec
      manifest.asRef append
  else disk

/-- Whether the first attempt ends with an `OSError`. -/
def Retries (manifest : ChunkManifestV1) (append : AppendEnd) : Prop :=
  manifest.utcDate = utcDate ∧ ¬ append.Returns

instance (manifest : ChunkManifestV1) (append : AppendEnd) :
    Decidable (Retries utcDate manifest append) :=
  inferInstanceAs (Decidable (_ ∧ _))

/-- The effect of a call on the files of the day. -/
def handle (disk : DayDisk) : RecordCall → DayDisk
  | .record chunk append => disk.record codec chunk append
  | .finish manifest append =>
      disk.generateAndRecord codec utcDate manifest append
  | .recordGenerated manifest append none =>
      disk.generateAndRecord codec utcDate manifest append
  | .recordGenerated manifest append (some (manifest', append')) =>
      if Retries utcDate manifest append then
        (disk.generateAndRecord codec utcDate manifest
          append).generateAndRecord codec utcDate manifest' append'
      else disk.generateAndRecord codec utcDate manifest append

/-- A call as a step. -/
def step (disk : DayDisk) (call : RecordCall) : Option DayDisk :=
  some (disk.handle codec utcDate call)

end Source

end DayDisk

/-! ## Calls as attempts -/

/-- One append, with the manifest which is written before it. -/
structure Attempt where
  manifest : Option ChunkManifestV1
  chunk : ChunkRefV1
  append : AppendEnd

/-- Only a manifest of the day leads to an append. -/
def attemptsOf (utcDate : Nat) (manifest : ChunkManifestV1)
    (append : AppendEnd) : List Attempt :=
  if manifest.utcDate = utcDate then
    [⟨some manifest, manifest.asRef, append⟩]
  else []

/-- The attempts of a call, of which only the last one may return. -/
def RecordCall.attempts (utcDate : Nat) : RecordCall → List Attempt
  | .record chunk append => [⟨none, chunk, append⟩]
  | .finish manifest append => attemptsOf utcDate manifest append
  | .recordGenerated manifest append none =>
      attemptsOf utcDate manifest append
  | .recordGenerated manifest append (some (manifest', append')) =>
      if DayDisk.Retries utcDate manifest append then
        attemptsOf utcDate manifest append ++
          attemptsOf utcDate manifest' append'
      else attemptsOf utcDate manifest append

namespace DayDisk

section Attempts

variable {codec : RefCodec} {utcDate : Nat} {disk : DayDisk}

def attempt (codec : RefCodec) (disk : DayDisk) (attempt : Attempt) :
    DayDisk :=
  { disk with
    manifests := disk.manifests ++ attempt.manifest.toList }.record codec
      attempt.chunk attempt.append

theorem generateAndRecord_eq_foldl
    (manifest : ChunkManifestV1) (append : AppendEnd) :
    disk.generateAndRecord codec utcDate manifest append =
      (attemptsOf utcDate manifest append).foldl (attempt codec) disk := by
  rw [generateAndRecord, attemptsOf]
  split
  next => rfl
  next => rfl

theorem handle_eq_foldl (call : RecordCall) :
    disk.handle codec utcDate call =
      (call.attempts utcDate).foldl (attempt codec) disk := by
  unfold handle RecordCall.attempts
  split
  next chunk append =>
    show _ = record codec { disk with manifests := disk.manifests ++ [] } _ _
    rw [List.append_nil]
  next => exact generateAndRecord_eq_foldl _ _
  next => exact generateAndRecord_eq_foldl _ _
  next =>
    split
    next =>
      rw [List.foldl_append, ← generateAndRecord_eq_foldl,
        ← generateAndRecord_eq_foldl]
    next => exact generateAndRecord_eq_foldl _ _

/-- Only the last attempt of a call may return. -/
theorem not_returns_of_mem_dropLast
    (call : RecordCall) {attempt : Attempt}
    (earlier : attempt ∈ (call.attempts utcDate).dropLast) :
    ¬ attempt.append.Returns := by
  unfold RecordCall.attempts attemptsOf at earlier
  split at earlier
  next => cases earlier
  next => split at earlier <;> cases earlier
  next => split at earlier <;> cases earlier
  next =>
    split at earlier
    next retries =>
      rw [if_pos retries.1] at earlier
      split at earlier
      next =>
        rw [List.mem_singleton.mp earlier]
        exact retries.2
      next => cases earlier
    next => split at earlier <;> cases earlier

end Attempts

end DayDisk

/-! ## The condition -/

namespace DayDisk

section Condition

variable (codec : RefCodec) (utcDate : Nat)

/-- The references list this one, by its identity. -/
def Lists (listed : List ChunkRefV1) (chunk : ChunkRefV1) : Prop :=
  ∃ known ∈ listed, known.identity = chunk.identity

/-- The journal or a manifest has the identity of the reference already. -/
def Knows (disk : DayDisk) (chunk : ChunkRefV1) : Prop :=
  ∃ chunks, disk.journaled codec = .ok chunks ∧
    Lists (chunks ++ disk.manifests.map ChunkManifestV1.asRef) chunk

/-- The append leaves nothing, or a whole document in a line of its own. -/
def WritesWhole (disk : DayDisk) (chunk : ChunkRefV1) (written : Nat) :
    Prop :=
  written = 0 ∨ EndsLine (disk.journal.getD []) ∧
    (codec.dumps chunk).length ≤ written

/-- A call which returns has also written something, unless it is known. -/
def Tidy (disk : DayDisk) (chunk : ChunkRefV1) : AppendEnd → Prop
  | .unopened => True
  | .raised written => disk.WritesWhole codec chunk written
  | .returned written => disk.WritesWhole codec chunk written ∧
      (written = 0 → disk.Knows codec chunk)

/-- Every attempt of a call is tidy. -/
def TidyAttempts : DayDisk → List Attempt → Prop
  | _, [] => True
  | disk, attempt :: rest =>
      { disk with
        manifests := disk.manifests ++ attempt.manifest.toList }.Tidy codec
          attempt.chunk attempt.append ∧
        TidyAttempts (disk.attempt codec attempt) rest

/-- The day has a journal, or the call creates it or places no manifest. -/
def Covers (disk : DayDisk) (attempts : List Attempt) : Prop :=
  disk.journal.isSome ∨ (∃ attempt ∈ attempts, attempt.append.Opens) ∨
    ∀ attempt ∈ attempts, attempt.manifest = none

/-- What a call has to keep for the day to be sealed. -/
def Keeps (disk : DayDisk) (call : RecordCall) : Prop :=
  TidyAttempts codec disk (call.attempts utcDate) ∧
    disk.Covers (call.attempts utcDate)

/--
The day can be sealed, and its inventory lists what calls have returned for
and what has a manifest.
-/
def Sealable (disk : DayDisk) : Prop :=
  ∃ inventory, disk.readRefs codec = .ok inventory ∧
    (∀ chunk ∈ disk.returned, Lists inventory chunk) ∧
      ∀ manifest ∈ disk.manifests, Lists inventory manifest.asRef

/-- The journal has whole documents only, and all returned ones are known. -/
structure Intact (disk : DayDisk) : Prop where
  documents : ∃ chunks last,
    Documents codec chunks last (disk.journal.getD [])
  returned : ∀ chunk ∈ disk.returned,
    disk.journal.isSome ∧ disk.Knows codec chunk

/-- Between two calls a day without a journal has no manifests. -/
structure Steady (disk : DayDisk) : Prop extends Intact codec disk where
  covered : disk.journal.isSome ∨ disk.manifests = []

end Condition

section Invariant

variable {codec : RefCodec} {utcDate : Nat} {disk : DayDisk}

theorem lists_inventoryOf_iff
    {chunks : List ChunkRefV1} {chunk : ChunkRefV1} :
    Lists (inventoryOf chunks) chunk ↔ Lists chunks chunk := by
  constructor
  · rintro ⟨listed, isListed, same⟩
    exact ⟨listed, (mem_of_byIdentity (mem_inventoryOf_iff.mp isListed)).1,
      same⟩
  · rintro ⟨known, isKnown, same⟩
    rcases exists_mem_inventoryOf isKnown with ⟨listed, isListed, alike⟩
    exact ⟨listed, isListed, alike.trans same⟩

theorem Lists.mono
    {fewer more : List ChunkRefV1} (subset : fewer ⊆ more)
    {chunk : ChunkRefV1} (lists : Lists fewer chunk) : Lists more chunk := by
  rcases lists with ⟨known, isKnown, same⟩
  exact ⟨known, subset isKnown, same⟩

theorem Intact.journaled
    (laws : codec.JsonLaws) (intact : disk.Intact codec) :
    ∃ chunks, disk.journaled codec = .ok chunks := by
  rcases intact.documents with ⟨chunks, last, documents⟩
  exact ⟨_, documents.read laws⟩

/-- An intact day whose manifests are covered can be sealed. -/
theorem Steady.sealable
    (laws : codec.JsonLaws) (steady : disk.Steady codec) :
    disk.Sealable codec := by
  rcases steady.toIntact.journaled laws with ⟨chunks, isJournaled⟩
  cases isJournal : disk.journal with
  | none =>
      have noManifests : disk.manifests = [] :=
        steady.covered.resolve_left (by simp [isJournal])
      refine ⟨[], by rw [readRefs, isJournal], ?_, ?_⟩
      · intro chunk isReturned
        have opened := (steady.returned chunk isReturned).1
        simp [isJournal] at opened
      · rw [noManifests]
        rintro manifest ⟨⟩
  | some bytes =>
      refine ⟨inventoryOf
        (chunks ++ disk.manifests.map ChunkManifestV1.asRef), ?_, ?_, ?_⟩
      · rw [readRefs, isJournal]
        simp only
        rw [isJournaled, ok_bind]
      · intro chunk isReturned
        rcases (steady.returned chunk isReturned).2 with
          ⟨same, isSame, lists⟩
        rw [isJournaled] at isSame
        rw [← Except.ok.inj isSame] at lists
        exact lists_inventoryOf_iff.mpr lists
      · intro manifest member
        exact lists_inventoryOf_iff.mpr ⟨manifest.asRef,
          List.mem_append_right _ (List.mem_map_of_mem member), rfl⟩

/-- What is known stays known when documents and manifests are added. -/
theorem Knows.mono
    {after : DayDisk} {chunks added : List ChunkRefV1}
    {placed : List ChunkManifestV1}
    (before : disk.journaled codec = .ok chunks)
    (later : after.journaled codec = .ok (chunks ++ added))
    (manifests : after.manifests = disk.manifests ++ placed)
    {chunk : ChunkRefV1} (known : disk.Knows codec chunk) :
    after.Knows codec chunk := by
  rcases known with ⟨same, isSame, lists⟩
  rw [before] at isSame
  rw [← Except.ok.inj isSame] at lists
  refine ⟨_, later, lists.mono ?_⟩
  rw [manifests, List.map_append]
  intro known member
  simp only [List.mem_append] at member ⊢
  rcases member with inJournal | inManifests
  · exact Or.inl (Or.inl inJournal)
  · exact Or.inr (Or.inl inManifests)

/-- Manifests which are added leave a day intact. -/
theorem Intact.place
    (laws : codec.JsonLaws) (intact : disk.Intact codec)
    (placed : List ChunkManifestV1) :
    { disk with manifests := disk.manifests ++ placed }.Intact codec where
  documents := intact.documents
  returned := by
    intro chunk isReturned
    rcases intact.journaled laws with ⟨chunks, isJournaled⟩
    rcases intact.returned chunk isReturned with ⟨opened, known⟩
    refine ⟨opened, ?_⟩
    apply Knows.mono isJournaled _ rfl known
    · exact []
    · rw [List.append_nil]
      exact isJournaled

/-- What a whole append makes of the journal. -/
theorem Intact.write_documents
    (laws : codec.JsonLaws) (intact : disk.Intact codec)
    {chunk : ChunkRefV1} {written : Nat}
    (whole : disk.WritesWhole codec chunk written) :
    ∃ chunks added chunks' last, disk.journaled codec = .ok chunks ∧
      (written ≠ 0 → added = [chunk]) ∧
      chunks ++ added = chunks' ++ last.toList ∧
        Documents codec chunks' last
          ((disk.write codec chunk written).journal.getD []) := by
  rcases intact.documents with ⟨chunks, last, documents⟩
  have before : disk.journaled codec = .ok (chunks ++ last.toList) :=
    documents.read laws
  rcases whole with none | ⟨ends, whole⟩
  · refine ⟨_, [], chunks, last, before, fun some => absurd none some,
      List.append_nil _, ?_⟩
    rw [write, none]
    simp only [Option.getD_some, List.take_zero, List.append_nil]
    exact documents
  · have complete := (documents.endsLine_iff laws).mp ends
    subst complete
    rcases documents.append laws whole with ⟨chunks', last', same, later⟩
    refine ⟨_, [chunk], chunks', last', before, fun _ => rfl, ?_, later⟩
    simpa using same.symm

theorem Intact.write
    (laws : codec.JsonLaws) (intact : disk.Intact codec)
    {chunk : ChunkRefV1} {written : Nat}
    (whole : disk.WritesWhole codec chunk written) :
    (disk.write codec chunk written).Intact codec ∧
      (written ≠ 0 → (disk.write codec chunk written).Knows codec chunk) ∧
        ∀ known, disk.Knows codec known →
          (disk.write codec chunk written).Knows codec known := by
  rcases intact.write_documents laws whole with
    ⟨chunks, added, chunks', last, before, isAdded, same, documents⟩
  have later : (disk.write codec chunk written).journaled codec =
      .ok (chunks ++ added) := by
    rw [same]
    exact documents.read laws
  have keeps : ∀ known, disk.Knows codec known →
      (disk.write codec chunk written).Knows codec known :=
    fun known => Knows.mono before later (List.append_nil _).symm
  refine ⟨⟨⟨_, _, documents⟩, ?_⟩, ?_, keeps⟩
  · intro known isReturned
    exact ⟨rfl, keeps known (intact.returned known isReturned).2⟩
  · intro some
    refine ⟨_, later, chunk, ?_, rfl⟩
    rw [isAdded some]
    simp

theorem Intact.record
    (laws : codec.JsonLaws) (intact : disk.Intact codec)
    {chunk : ChunkRefV1} {append : AppendEnd}
    (tidy : disk.Tidy codec chunk append) :
    (disk.record codec chunk append).Intact codec := by
  cases append with
  | unopened => exact intact
  | raised written => exact (intact.write laws tidy).1
  | returned written =>
      rcases intact.write laws tidy.1 with ⟨later, writes, keeps⟩
      refine ⟨later.documents, ?_⟩
      intro known isReturned
      refine ⟨rfl, ?_⟩
      show (disk.write codec chunk written).Knows codec known
      rcases List.mem_append.mp isReturned with old | new
      · exact (later.returned known old).2
      · rw [List.mem_singleton.mp new]
        by_cases none : written = 0
        · exact keeps chunk (tidy.2 none)
        · exact writes none

theorem Intact.attempts
    (laws : codec.JsonLaws) (intact : disk.Intact codec)
    {attempts : List Attempt} (tidy : disk.TidyAttempts codec attempts) :
    (attempts.foldl (attempt codec) disk).Intact codec := by
  induction attempts generalizing disk with
  | nil => exact intact
  | cons first rest induction =>
      exact induction ((intact.place laws _).record laws tidy.1) tidy.2

/-! ## What breaks a day -/

/-- A torn journal stays torn, and the day cannot be sealed. -/
theorem torn_attempts
    (laws : codec.JsonLaws) (torn : Torn codec (disk.journal.getD []))
    (attempts : List Attempt) :
    Torn codec
      ((attempts.foldl (attempt codec) disk).journal.getD []) := by
  induction attempts generalizing disk with
  | nil => exact torn
  | cons first rest induction =>
      apply induction
      rcases first with ⟨manifest, chunk, append⟩
      cases append with
      | unopened => exact torn
      | raised written => exact torn.append laws chunk written
      | returned written => exact torn.append laws chunk written

theorem not_sealable_of_torn
    (laws : codec.JsonLaws) (torn : Torn codec (disk.journal.getD []))
    (opened : disk.journal.isSome) : ¬ disk.Sealable codec := by
  rintro ⟨inventory, isRead, _⟩
  rcases Option.isSome_iff_exists.mp opened with ⟨bytes, isJournal⟩
  rw [readRefs, isJournal] at isRead
  rcases bind_eq_ok_iff.mp isRead with ⟨chunks, isJournaled, _⟩
  exact torn.not_read laws chunks isJournaled

/-- An append which is not whole tears a line. -/
theorem Intact.torn_of_not_whole
    (laws : codec.JsonLaws) (intact : disk.Intact codec)
    {chunk : ChunkRefV1} {written : Nat}
    (cut : ¬ disk.WritesWhole codec chunk written) :
    Torn codec ((disk.write codec chunk written).journal.getD []) := by
  rcases intact.documents with ⟨chunks, last, documents⟩
  rw [WritesWhole, not_or, documents.endsLine_iff laws, not_and_or,
    not_le] at cut
  exact documents.tear laws cut.1 cut.2

theorem isSome_journal_attempts (attempts : List Attempt) :
    (attempts.foldl (attempt codec) disk).journal.isSome ↔
      disk.journal.isSome ∨ ∃ attempt ∈ attempts, attempt.append.Opens := by
  induction attempts generalizing disk with
  | nil => simp
  | cons first rest induction =>
      rw [List.foldl_cons, induction]
      rcases first with ⟨manifest, chunk, append⟩
      cases append with
      | unopened => simp [attempt, DayDisk.record, AppendEnd.Opens]
      | raised written =>
          simp [attempt, DayDisk.record, DayDisk.write, AppendEnd.Opens]
      | returned written =>
          simp [attempt, DayDisk.record, DayDisk.write, AppendEnd.Opens]

theorem manifests_attempts (attempts : List Attempt) :
    (attempts.foldl (attempt codec) disk).manifests =
      disk.manifests ++
        attempts.flatMap fun attempt => attempt.manifest.toList := by
  induction attempts generalizing disk with
  | nil => simp
  | cons first rest induction =>
      rw [List.foldl_cons, induction, List.flatMap_cons,
        ← List.append_assoc]
      rcases first with ⟨manifest, chunk, append⟩
      cases append <;> rfl

/-- The last attempt of a call after which the day can be sealed is tidy. -/
theorem Intact.tidy_of_sealable
    (laws : codec.JsonLaws) (intact : disk.Intact codec)
    {chunk : ChunkRefV1} {append : AppendEnd}
    (sealable : (disk.record codec chunk append).Sealable codec) :
    disk.Tidy codec chunk append := by
  have whole : ∀ written,
      ((disk.write codec chunk written).journal =
        (disk.record codec chunk append).journal) →
      disk.WritesWhole codec chunk written := by
    intro written same
    by_contra cut
    have torn := intact.torn_of_not_whole laws cut
    rw [same] at torn
    apply not_sealable_of_torn laws torn _ sealable
    rw [← same]
    rfl
  cases append with
  | unopened => trivial
  | raised written => exact whole written rfl
  | returned written =>
      refine ⟨whole written rfl, ?_⟩
      intro none
      rcases sealable with ⟨inventory, isRead, listed, _⟩
      have lists := listed chunk (List.mem_append_right _ List.mem_cons_self)
      rcases bind_eq_ok_iff.mp isRead with ⟨chunks, isJournaled, isInventory⟩
      rw [← Except.ok.inj isInventory] at lists
      refine ⟨chunks, ?_, lists_inventoryOf_iff.mp lists⟩
      rw [none] at isJournaled
      change (linesOf newline ((disk.journal.getD []) ++ [])).mapM _ = _
        at isJournaled
      rw [List.append_nil] at isJournaled
      exact isJournaled

/-- If the day can be sealed after a call, its attempts were tidy. -/
theorem Intact.tidyAttempts_of_sealable
    (laws : codec.JsonLaws) (intact : disk.Intact codec)
    {attempts : List Attempt}
    (unreturned : ∀ attempt ∈ attempts.dropLast, ¬ attempt.append.Returns)
    (sealable : (attempts.foldl (attempt codec) disk).Sealable codec) :
    disk.TidyAttempts codec attempts := by
  induction attempts generalizing disk with
  | nil => trivial
  | cons first rest induction =>
      have placed := intact.place laws first.manifest.toList
      by_cases last : rest = []
      · subst last
        exact ⟨placed.tidy_of_sealable laws sealable, trivial⟩
      · rw [List.dropLast_cons_of_ne_nil last, List.forall_mem_cons]
          at unreturned
        have tidy : { disk with
            manifests := disk.manifests ++ first.manifest.toList }.Tidy codec
              first.chunk first.append := by
          rcases first with ⟨manifest, chunk, append⟩
          cases append with
          | unopened => trivial
          | returned written => exact absurd trivial unreturned.1
          | raised written =>
              show WritesWhole codec _ _ _
              by_contra cut
              have torn := placed.torn_of_not_whole laws cut
              apply not_sealable_of_torn laws
                (torn_attempts laws torn rest) _ sealable
              rw [isSome_journal_attempts]
              exact Or.inl rfl
        exact ⟨tidy, induction (placed.record laws tidy) unreturned.2
          sealable⟩

/-! ## Runs of calls -/

theorem Steady.handle
    (laws : codec.JsonLaws) (steady : disk.Steady codec) {call : RecordCall}
    (keeps : disk.Keeps codec utcDate call) :
    (disk.handle codec utcDate call).Steady codec := by
  rw [handle_eq_foldl]
  refine ⟨steady.toIntact.attempts laws keeps.1, ?_⟩
  rw [isSome_journal_attempts, manifests_attempts]
  rcases keeps.2 with isJournal | opens | unplaced
  · exact Or.inl (Or.inl isJournal)
  · exact Or.inl (Or.inr opens)
  · rcases steady.covered with isJournal | noManifests
    · exact Or.inl (Or.inl isJournal)
    · right
      rw [noManifests, List.nil_append, List.flatMap_eq_nil_iff]
      intro attempt member
      rw [unplaced attempt member]
      rfl

/-- A call after which the day can be sealed keeps it. -/
theorem Steady.keeps_of_sealable
    (laws : codec.JsonLaws) (steady : disk.Steady codec) {call : RecordCall}
    (sealable : (disk.handle codec utcDate call).Sealable codec) :
    disk.Keeps codec utcDate call := by
  rw [handle_eq_foldl] at sealable
  refine ⟨steady.toIntact.tidyAttempts_of_sealable laws
    (fun _ => not_returns_of_mem_dropLast call) sealable, ?_⟩
  rw [Covers, ← or_assoc, ← @isSome_journal_attempts codec]
  cases isJournal :
      ((call.attempts utcDate).foldl (attempt codec) disk).journal with
  | some bytes => exact Or.inl rfl
  | none =>
      right
      rcases sealable with ⟨inventory, isRead, _, listed⟩
      rw [readRefs, isJournal] at isRead
      rw [← Except.ok.inj isRead, manifests_attempts] at listed
      intro attempt member
      cases isManifest : attempt.manifest with
      | none => rfl
      | some manifest =>
          have placed : manifest ∈ disk.manifests ++
              (call.attempts utcDate).flatMap
                fun attempt => attempt.manifest.toList := by
            apply List.mem_append_right
            rw [List.mem_flatMap]
            exact ⟨attempt, member, by simp [isManifest]⟩
          rcases listed manifest placed with ⟨known, ⟨⟩, _⟩

theorem steady_empty (codec : RefCodec) : Steady codec {} where
  documents := ⟨[], none, rfl⟩
  returned := by
    rintro chunk ⟨⟩
  covered := Or.inr rfl

/--
Whatever calls record chunks of a day, and wherever their appends are cut, the
day can be sealed with all its references after each of them exactly if every
call keeps it.
-/
theorem sealable_throughout_iff
    (laws : codec.JsonLaws) (utcDate : Nat) (calls : List RecordCall) :
    Throughout (step codec utcDate) (Sealable codec) {} calls ↔
      StepsMeet (step codec utcDate) (Keeps codec utcDate) {} calls := by
  refine throughout_iff_stepsMeet ?_
    (fun _ (steady : Steady codec _) => steady.sealable laws) ?_
    (steady_empty codec) (runFrom_of_total (fun _ _ => rfl) _ calls)
  · intro before call after steady keeps stepped
    rw [← Option.some.inj stepped]
    exact steady.handle laws keeps
  · intro before call after steady stepped sealable
    rw [← Option.some.inj stepped] at sealable
    exact steady.keeps_of_sealable laws sealable

end Invariant

end DayDisk

/-! ## Two chunks of a day -/

section Sample

/-- A chunk under a hash of the right form. -/
def sampleManifest (chunkId : String) : ChunkManifestV1 :=
  { chunkManifest chunkId with
    sha256 := String.ofList (List.replicate 64 'a') }

def asciiBytes (text : String) : List UInt8 :=
  text.toList.map fun character => UInt8.ofNat character.toNat

/-- The fields of such a chunk as they stand in its JSON text. -/
def sampleFields (chunkId : String) : List UInt8 :=
  asciiBytes "\"chunk_id\":\"" ++ asciiBytes chunkId ++
    asciiBytes "\",\"content_type\":\"application/vnd.apache.parquet\"," ++
    asciiBytes "\"data_path\":\"date=1970-01-04/writer=depth/" ++
    asciiBytes chunkId ++ asciiBytes ".parquet\",\"sha256\":\"" ++
    List.replicate 64 97 ++ asciiBytes "\",\"size_bytes\":100"

instance countableChar : Countable Char :=
  Function.Injective.countable fun _ _ => Char.toNat_inj.mp

instance countableString : Countable String :=
  Function.Injective.countable fun _ _ => String.toList_inj.mp

deriving instance Countable for WriterGroup
deriving instance Countable for ContentType
deriving instance Countable for PathPart
deriving instance Countable for DataPath
deriving instance Countable for ChunkRefV1

/-- A number for every reference. -/
noncomputable def sampleNumber : ChunkRefV1 → Nat :=
  (exists_injective_nat ChunkRefV1).choose

theorem sampleNumber_injective : Function.Injective sampleNumber :=
  (exists_injective_nat ChunkRefV1).choose_spec

/-- The text of the two chunks, and some other text for every other one. -/
noncomputable def sampleBody (chunk : ChunkRefV1) : List UInt8 :=
  if chunk = (sampleManifest "chunk-01").asRef then sampleFields "chunk-01"
  else if chunk = (sampleManifest "chunk-02").asRef then
    sampleFields "chunk-02"
  else List.replicate (sampleNumber chunk) 120

/-- A text without the newlines behind it. -/
def stripped (text : List UInt8) : List UInt8 :=
  text.rdropWhile (· = newline)

open Classical in
/-- A codec which writes the two chunks as the JSON libraries do. -/
noncomputable def sampleCodec : RefCodec where
  dumps chunk := 123 :: (sampleBody chunk ++ [125])
  validateJson text :=
    if accepted : ∃ chunk, stripped text = 123 :: (sampleBody chunk ++ [125])
    then .ok accepted.choose
    else .error ⟨text⟩

theorem sampleFields_ne_replicate (count : Nat) :
    sampleFields "chunk-01" ≠ List.replicate count 120 ∧
      sampleFields "chunk-02" ≠ List.replicate count 120 := by
  have first : 34 ∈ sampleFields "chunk-01" := by
    decide +kernel
  have second : 34 ∈ sampleFields "chunk-02" := by
    decide +kernel
  constructor
  · intro same
    rw [same] at first
    exact absurd (List.eq_of_mem_replicate first) (by decide)
  · intro same
    rw [same] at second
    exact absurd (List.eq_of_mem_replicate second) (by decide)

theorem sampleFields_ne :
    sampleFields "chunk-01" ≠ sampleFields "chunk-02" := by
  decide +kernel

theorem sampleBody_injective : Function.Injective sampleBody := by
  intro left right same
  have other := sampleFields_ne_replicate
  unfold sampleBody at same
  split at same
  next isFirst =>
    split at same
    next isFirst' => rw [isFirst, isFirst']
    next =>
      split at same
      next => exact absurd same sampleFields_ne
      next => exact absurd same (other _).1
  next =>
    split at same
    next isSecond =>
      split at same
      next => exact absurd same.symm sampleFields_ne
      next =>
        split at same
        next isSecond' => rw [isSecond, isSecond']
        next => exact absurd same (other _).2
    next =>
      split at same
      next => exact absurd same.symm (other _).1
      next =>
        split at same
        next => exact absurd same.symm (other _).2
        next =>
          apply sampleNumber_injective
          simpa using congrArg List.length same

/-- No newline and no brace is in the body of a text. -/
theorem not_mem_sampleBody
    (chunk : ChunkRefV1) {byte : UInt8}
    (isOther : byte ∈ [newline, 123, 125]) : byte ∉ sampleBody chunk := by
  have first : ∀ byte ∈ [newline, 123, 125],
      byte ∉ sampleFields "chunk-01" := by
    decide +kernel
  have second : ∀ byte ∈ [newline, 123, 125],
      byte ∉ sampleFields "chunk-02" := by
    decide +kernel
  unfold sampleBody
  split
  next => exact first byte isOther
  next =>
    split
    next => exact second byte isOther
    next =>
      intro member
      rw [List.eq_of_mem_replicate member] at isOther
      exact absurd isOther (by decide)

theorem newline_not_mem_sampleCodec (chunk : ChunkRefV1) :
    newline ∉ sampleCodec.dumps chunk := by
  intro member
  rcases List.mem_cons.mp member with isBrace | inRest
  · exact absurd isBrace (by decide)
  · rcases List.mem_append.mp inRest with inBody | isBrace
    · exact not_mem_sampleBody chunk (by decide) inBody
    · exact absurd (List.mem_singleton.mp isBrace) (by decide)

/-- The second brace of a text ends it. -/
theorem sampleCodec_selfDelimiting
    {left right : ChunkRefV1}
    (isPrefix : sampleCodec.dumps left <+: sampleCodec.dumps right) :
    left = right := by
  rcases isPrefix with ⟨rest, whole⟩
  have tails : sampleBody left ++ [125] ++ rest =
      sampleBody right ++ [125] ++ [] := by
    rw [List.append_nil]
    exact (List.cons.inj whole).2
  have lines := congrArg (linesOf 125) tails
  rw [linesOf_append_line (not_mem_sampleBody left (by decide)),
    linesOf_append_line (not_mem_sampleBody right (by decide))] at lines
  exact sampleBody_injective
    (List.append_cancel_right (List.cons.inj lines).1)

theorem stripped_of_not_mem
    {text : List UInt8} (unbroken : newline ∉ text) :
    stripped text = text := by
  rw [stripped, List.rdropWhile_eq_self_iff]
  intro nonempty isNewline
  rw [decide_eq_true_eq] at isNewline
  have member := List.getLast_mem nonempty
  rw [isNewline] at member
  exact unbroken member

theorem sampleCodec_validateJson_iff
    (text : List UInt8) (chunk : ChunkRefV1) :
    sampleCodec.validateJson text = .ok chunk ↔
      stripped text = sampleCodec.dumps chunk := by
  classical
  show (if accepted : ∃ chunk, stripped text = sampleCodec.dumps chunk
    then Except.ok accepted.choose
    else Except.error (ValidationError.mk text)) = Except.ok chunk ↔ _
  split
  next accepted =>
    have chosen := accepted.choose_spec
    constructor
    · intro same
      rw [← Except.ok.inj same]
      exact chosen
    · intro same
      have alike := chosen.symm.trans same
      exact congrArg Except.ok (sampleCodec_selfDelimiting
        ⟨[], by rw [List.append_nil, alike]⟩)
  next refused =>
    constructor
    · rintro ⟨⟩
    · exact fun same => absurd ⟨chunk, same⟩ refused

/-- Every beginning of a text has its first brace, a whole text no other. -/
theorem sampleCodec_oneDocument
    {pieces : List (List UInt8)} {chunk : ChunkRefV1}
    (begun : ∀ piece ∈ pieces,
      piece ≠ [] ∧ ∃ begun, piece <+: sampleCodec.dumps begun)
    (accepted : stripped pieces.flatten = sampleCodec.dumps chunk) :
    pieces = [sampleCodec.dumps chunk] := by
  have unbroken : newline ∉ pieces.flatten := by
    intro member
    rcases List.mem_flatten.mp member with ⟨piece, isPiece, inPiece⟩
    rcases (begun piece isPiece).2 with ⟨other, isPrefix⟩
    exact newline_not_mem_sampleCodec other (isPrefix.subset inPiece)
  rw [stripped_of_not_mem unbroken] at accepted
  have braces : (sampleCodec.dumps chunk).count 123 = 1 := by
    show (123 :: (sampleBody chunk ++ [125])).count 123 = 1
    rw [List.count_cons_self, List.count_append, List.count_eq_zero_of_not_mem
      (not_mem_sampleBody chunk (by decide))]
    rfl
  have each : ∀ piece ∈ pieces, 1 ≤ piece.count 123 := by
    intro piece isPiece
    rcases begun piece isPiece with ⟨nonempty, other, rest, whole⟩
    cases piece with
    | nil => exact absurd rfl nonempty
    | cons first later =>
        have isBrace : first = 123 := (List.cons.inj whole).1
        rw [isBrace, List.count_cons_self]
        exact Nat.le_add_left 1 _
  have counted := congrArg (List.count 123) accepted
  rw [braces, List.count_flatten] at counted
  match pieces with
  | [] => cases accepted
  | [piece] =>
      rw [List.flatten_singleton] at accepted
      rw [accepted]
  | first :: second :: rest =>
      have one := each first List.mem_cons_self
      have two := each second (List.mem_cons_of_mem _ List.mem_cons_self)
      rw [List.map_cons, List.map_cons, List.sum_cons,
        List.sum_cons] at counted
      omega

theorem sampleCodec_laws : sampleCodec.JsonLaws where
  oneLine := newline_not_mem_sampleCodec
  roundTrip chunk := (sampleCodec_validateJson_iff _ _).mpr
    (stripped_of_not_mem (newline_not_mem_sampleCodec chunk))
  trailingNewline text chunk := by
    rw [sampleCodec_validateJson_iff, sampleCodec_validateJson_iff, stripped,
      stripped, List.rdropWhile_concat_pos]
    rfl
  oneDocument pieces chunk begun accepted :=
    sampleCodec_oneDocument begun
      ((sampleCodec_validateJson_iff _ _).mp accepted)
  selfDelimiting _ _ := sampleCodec_selfDelimiting

theorem sampleCodec_first :
    sampleCodec.dumps (sampleManifest "chunk-01").asRef =
      123 :: (sampleFields "chunk-01" ++ [125]) := by
  show 123 :: (sampleBody _ ++ [125]) = _
  rw [sampleBody, if_pos rfl]

/-- One chunk is recorded, and the line of the other lacks its newline. -/
noncomputable def cutCalls : List RecordCall :=
  [.finish (sampleManifest "chunk-01") (.returned 1000),
    .finish (sampleManifest "chunk-02")
      (.raised (sampleCodec.dumps (sampleManifest "chunk-02").asRef).length)]

theorem sealable_throughout_cut :
    Throughout (DayDisk.step sampleCodec 3) (DayDisk.Sealable sampleCodec) {}
      cutCalls := by
  apply (DayDisk.sealable_throughout_iff sampleCodec_laws 3 cutCalls).mpr
  have short : (sampleCodec.dumps
      (sampleManifest "chunk-01").asRef).length < 1000 := by
    rw [sampleCodec_first]
    decide +kernel
  refine ⟨⟨⟨?_, trivial⟩, ?_⟩, ⟨⟨?_, trivial⟩, ?_⟩, trivial⟩
  · refine ⟨Or.inr ⟨?_, short.le⟩, by rintro ⟨⟩⟩
    rintro last ⟨⟩
  · exact Or.inr (Or.inl ⟨_, List.mem_cons_self, trivial⟩)
  · refine Or.inr ⟨?_, le_refl _⟩
    show EndsLine ([] ++ (sampleCodec.canonicalJsonBytes
      (sampleManifest "chunk-01").asRef).take 1000)
    rw [List.take_of_length_le, List.nil_append, EndsLine,
      RefCodec.canonicalJsonBytes, List.getLast?_concat]
    · rintro last ⟨⟩
      rfl
    · rw [RefCodec.canonicalJsonBytes, List.length_append,
        List.length_singleton]
      omega
  · exact Or.inl rfl

/--
The first attempt is cut after ten bytes, the retry appends the whole line and
returns, and the day cannot be sealed any more.
-/
theorem torn_retry_blocks_seal :
    ¬ Throughout (DayDisk.step sampleCodec 3) (DayDisk.Sealable sampleCodec) {}
      [.recordGenerated (sampleManifest "chunk-01") (.raised 10)
        (some (sampleManifest "chunk-01", .returned 1000))] := by
  intro visited
  have sealable := visited _ [] _ (List.append_nil _).symm rfl
  have keeps := (DayDisk.Steady.keeps_of_sealable sampleCodec_laws
    (DayDisk.steady_empty sampleCodec) sealable).1.1
  have short : (sampleCodec.dumps
      (sampleManifest "chunk-01").asRef).length > 10 := by
    rw [sampleCodec_first]
    decide +kernel
  rcases keeps with none | ⟨_, whole⟩
  · exact absurd none (by decide)
  · exact absurd whole (not_le.mpr short)

end Sample

end ShadowDataPlane.Edge
