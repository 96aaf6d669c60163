import Mathlib.Data.List.Induction
import Mathlib.Data.List.Sort
import ShadowDataPlane.Contracts.Chunk
import ShadowDataPlane.Foundation.Dict
import ShadowDataPlane.Foundation.Transition

/-!
# The inventory of a sealed day

A chunk is known to the edge from three places: a line of the day's journal,
its manifest in the ready directory, or the manifest an acknowledgement has
moved to `acked-manifests`.  Sealing the day reads all three into one list.

Writers, gap publications, seals and acknowledgements are tasks which make one
durable step at a time, in any order, and a crash may come between any two of
them.  The list is complete unless the journal of the day was never created
(`sealed_inventory_complete_iff`): `_read_refs` then returns nothing, although
the manifest of a chunk is there (`sealed_inventory_empty`).
-/

namespace ShadowDataPlane.Edge

open ShadowDataPlane.Foundation
open ShadowDataPlane.Contracts

/-! ## Reading the inventory -/

/-- The files a day's inventory is read from, and the sealed inventories. -/
structure InventoryDisk where
  journals : Dict Nat (List ChunkRefV1) := Dict.empty
  ready : Dict DataPath ChunkManifestV1 := Dict.empty
  acked : Dict (Nat × String) ChunkManifestV1 := Dict.empty
  sealedDays : Dict Nat (List ChunkRefV1) := Dict.empty
deriving DecidableEq

/-- The manifests below the day's directory of the ready files. -/
def readyManifests (disk : InventoryDisk) (utcDate : Nat) :
    List ChunkManifestV1 :=
  (disk.ready.entries.filter fun entry =>
    entry.1.directory.head? = some (.date utcDate)).map Prod.snd

/-- The manifests which acknowledgements have moved away. -/
def ackedManifests (disk : InventoryDisk) (utcDate : Nat) :
    List ChunkManifestV1 :=
  (disk.acked.entries.filter fun entry => entry.1.1 = utcDate).map Prod.snd

/-- A later chunk replaces an earlier one of the same identity. -/
def byIdentity (chunks : List ChunkRefV1) :
    Dict (String ×ₗ String) ChunkRefV1 :=
  chunks.foldl (fun known chunk => known.set chunk.identity chunk) Dict.empty

/-- The chunks by identity, in the order of their identities. -/
def inventoryOf (chunks : List ChunkRefV1) : List ChunkRefV1 :=
  (((byIdentity chunks).entries.map Prod.fst).insertionSort
    (· ≤ ·)).filterMap (byIdentity chunks).get?

/-- `_read_refs`: without a journal the day has no chunks. -/
def readRefs (disk : InventoryDisk) (utcDate : Nat) : List ChunkRefV1 :=
  match disk.journals.get? utcDate with
  | none => []
  | some lines =>
      inventoryOf (lines ++
        (readyManifests disk utcDate).map ChunkManifestV1.asRef ++
        (ackedManifests disk utcDate).map ChunkManifestV1.asRef)

section Identity

variable {chunks : List ChunkRefV1}

theorem byIdentity_append
    (chunks : List ChunkRefV1) (chunk : ChunkRefV1) :
    byIdentity (chunks ++ [chunk]) =
      (byIdentity chunks).set chunk.identity chunk := by
  simp [byIdentity]

theorem mem_of_byIdentity
    {key : String ×ₗ String} {chunk : ChunkRefV1}
    (found : (byIdentity chunks).get? key = some chunk) :
    chunk ∈ chunks ∧ chunk.identity = key := by
  induction chunks using List.reverseRecOn with
  | nil => cases found
  | append_singleton chunks last induction =>
      rw [byIdentity_append, Dict.get?_set] at found
      split at found
      next same =>
        cases found
        exact ⟨by simp, same.symm⟩
      next =>
        rcases induction found with ⟨member, same⟩
        exact ⟨List.mem_append_left _ member, same⟩

theorem byIdentity_isSome
    {chunk : ChunkRefV1} (member : chunk ∈ chunks) :
    ((byIdentity chunks).get? chunk.identity).isSome := by
  induction chunks using List.reverseRecOn with
  | nil => cases member
  | append_singleton chunks last induction =>
      rw [byIdentity_append, Dict.get?_set]
      split
      next => rfl
      next different =>
        rcases List.mem_append.mp member with old | new
        · exact induction old
        · rw [List.mem_singleton.mp new] at different
          exact (different rfl).elim

theorem mem_inventoryOf_iff {chunk : ChunkRefV1} :
    chunk ∈ inventoryOf chunks ↔
      (byIdentity chunks).get? chunk.identity = some chunk := by
  rw [inventoryOf, List.mem_filterMap]
  constructor
  · rintro ⟨key, _, found⟩
    rw [(mem_of_byIdentity found).2]
    exact found
  · intro found
    refine ⟨chunk.identity, ?_, found⟩
    rw [List.mem_insertionSort, List.mem_map]
    exact ⟨_, (Dict.mem_entries_iff _).mpr found, rfl⟩

/-- Every chunk is listed by its identity. -/
theorem exists_mem_inventoryOf
    {chunk : ChunkRefV1} (member : chunk ∈ chunks) :
    ∃ listed ∈ inventoryOf chunks, listed.identity = chunk.identity := by
  rcases Option.isSome_iff_exists.mp (byIdentity_isSome member) with
    ⟨listed, found⟩
  have same := (mem_of_byIdentity found).2
  refine ⟨listed, mem_inventoryOf_iff.mpr ?_, same⟩
  rw [same]
  exact found

theorem map_identity_filterMap
    (keys : List (String ×ₗ String))
    (bound : ∀ key ∈ keys, ((byIdentity chunks).get? key).isSome) :
    (keys.filterMap (byIdentity chunks).get?).map ChunkRefV1.identity =
      keys := by
  induction keys with
  | nil => rfl
  | cons key rest induction =>
      rcases Option.isSome_iff_exists.mp (bound key List.mem_cons_self) with
        ⟨chunk, found⟩
      rw [List.filterMap_cons_some found, List.map_cons,
        (mem_of_byIdentity found).2,
        induction fun other member =>
          bound other (List.mem_cons_of_mem key member)]

/-- Identities increase along the inventory, so none comes twice. -/
theorem inventoryOf_sorted (chunks : List ChunkRefV1) :
    ((inventoryOf chunks).map ChunkRefV1.identity).Pairwise (· < ·) := by
  rw [inventoryOf, map_identity_filterMap]
  · have sorted := List.pairwise_insertionSort (· ≤ ·)
      ((byIdentity chunks).entries.map Prod.fst)
    have distinct : (((byIdentity chunks).entries.map
        Prod.fst).insertionSort (· ≤ ·)).Nodup :=
      (List.perm_insertionSort _ _).nodup_iff.mpr (byIdentity chunks).distinct
    exact (sorted.and distinct).imp fun both => lt_of_le_of_ne both.1 both.2
  · intro key member
    rw [List.mem_insertionSort, List.mem_map] at member
    rcases member with ⟨entry, isEntry, rfl⟩
    rw [(Dict.mem_entries_iff _).mp isEntry]
    rfl

end Identity

/-! ## Tasks -/

/-- The durable steps which record a chunk. -/
inductive RecordStage where
  | checkSealed
  | writeManifest
  | openJournal
  | append
deriving DecidableEq

/-- How far `_seal` has come. -/
inductive SealStage where
  | writeSealed
  | cleanJournal
  | cleanAcked
deriving DecidableEq

/--
A call which has not returned: `ChunkSession.finish` with the record which
follows it, `DayIndex.record_generated`, or `DayIndex.seal`.
-/
inductive IndexTask where
  | finish (manifest : ChunkManifestV1) (stage : RecordStage)
  | recordGenerated (manifest : ChunkManifestV1) (stage : RecordStage)
  | sealDay (utcDate : Nat) (stage : SealStage)
deriving DecidableEq

/-- Whether `SEALED.json` exists. -/
def InventoryDisk.DayIsSealed (disk : InventoryDisk) (utcDate : Nat) :
    Prop :=
  (disk.sealedDays.get? utcDate).isSome

instance (disk : InventoryDisk) (utcDate : Nat) :
    Decidable (disk.DayIsSealed utcDate) :=
  inferInstanceAs (Decidable (_ = true))

def writeManifest (disk : InventoryDisk) (manifest : ChunkManifestV1) :
    InventoryDisk :=
  { disk with ready := disk.ready.set manifest.dataPath.manifest manifest }

/-- Opening a journal for appending creates it. -/
def openJournal (disk : InventoryDisk) (utcDate : Nat) : InventoryDisk :=
  { disk with
    journals := disk.journals.set utcDate
      ((disk.journals.get? utcDate).getD []) }

def appendJournal (disk : InventoryDisk) (manifest : ChunkManifestV1) :
    InventoryDisk :=
  { disk with
    journals := disk.journals.set manifest.utcDate
      ((disk.journals.get? manifest.utcDate).getD [] ++ [manifest.asRef]) }

/-- `record` fails on a sealed day after the manifest is written. -/
def finishStep (disk : InventoryDisk) (manifest : ChunkManifestV1) :
    RecordStage → Option (InventoryDisk × Option RecordStage)
  | .writeManifest =>
      some (writeManifest disk manifest, some .checkSealed)
  | .checkSealed =>
      if disk.DayIsSealed manifest.utcDate then none
      else some (disk, some .openJournal)
  | .openJournal =>
      some (openJournal disk manifest.utcDate, some .append)
  | .append => some (appendJournal disk manifest, none)

/-- `record_generated` fails on a sealed day before it writes anything. -/
def recordGeneratedStep (disk : InventoryDisk) (manifest : ChunkManifestV1) :
    RecordStage → Option (InventoryDisk × Option RecordStage)
  | .checkSealed =>
      if disk.DayIsSealed manifest.utcDate then none
      else some (disk, some .writeManifest)
  | .writeManifest =>
      some (writeManifest disk manifest, some .openJournal)
  | .openJournal =>
      some (openJournal disk manifest.utcDate, some .append)
  | .append => some (appendJournal disk manifest, none)

/--
One durable step of `_seal`.  A seal counts from its reading: a manifest which
is written between the reading and `SEALED.json` comes behind the seal.
-/
def sealStep (disk : InventoryDisk) (utcDate : Nat) :
    SealStage → InventoryDisk × Option SealStage
  | .writeSealed =>
      if disk.DayIsSealed utcDate then (disk, some .cleanJournal)
      else
        ({ disk with
            sealedDays :=
              disk.sealedDays.set utcDate (readRefs disk utcDate) },
          some .cleanJournal)
  | .cleanJournal =>
      ({ disk with journals := disk.journals.erase utcDate },
        some .cleanAcked)
  | .cleanAcked =>
      ({ disk with
          acked := disk.acked.filterKey fun key => key.1 ≠ utcDate },
        none)

/-- What `apply_acks` does with the manifest of an acknowledged chunk. -/
def collectManifest (disk : InventoryDisk) (path : DataPath) :
    InventoryDisk :=
  match disk.ready.get? path with
  | none => disk
  | some manifest =>
      if disk.DayIsSealed manifest.utcDate then
        { disk with ready := disk.ready.erase path }
      else
        { disk with
          ready := disk.ready.erase path
          acked := disk.acked.set (manifest.utcDate, path.name) manifest }

/-- The edge with its calls in flight and the manifests it ever wrote. -/
structure InventoryHistory where
  disk : InventoryDisk := {}
  tasks : List IndexTask := []
  published : List ChunkManifestV1 := []
deriving DecidableEq

/-- The calls of the day index, and what comes between their steps. -/
inductive InventoryLabel where
  | finish (manifest : ChunkManifestV1)
  | recordGenerated (manifest : ChunkManifestV1)
  | sealDay (utcDate : Nat)
  | collect (path : DataPath)
  | work (position : Nat)
  | cancel (position : Nat)
  | crash
deriving DecidableEq

def IndexTask.manifest? : IndexTask → Option ChunkManifestV1
  | .finish manifest _ | .recordGenerated manifest _ => some manifest
  | .sealDay _ _ => none

/-- Two manifests of one day whose files have one name. -/
def SameFile (left right : ChunkManifestV1) : Prop :=
  left.utcDate = right.utcDate ∧
    left.dataPath.manifest.name = right.dataPath.manifest.name

instance (left right : ChunkManifestV1) : Decidable (SameFile left right) :=
  inferInstanceAs (Decidable (_ ∧ _))

/-- The manifests ever written and those about to be. -/
def InventoryHistory.manifests (history : InventoryHistory) :
    List ChunkManifestV1 :=
  history.published ++ history.tasks.filterMap IndexTask.manifest?

/--
The manifest lies where its writer puts it, and its file name has not been
used for another chunk, as chunk ids are not.
-/
def Placed (history : InventoryHistory) (manifest : ChunkManifestV1) : Prop :=
  manifest.dataPath.directory =
      [.date manifest.utcDate, .writer manifest.writerGroup] ∧
    ∀ other ∈ history.manifests, SameFile manifest other →
      other.asRef.identity = manifest.asRef.identity

instance (history : InventoryHistory) (manifest : ChunkManifestV1) :
    Decidable (Placed history manifest) :=
  inferInstanceAs (Decidable (_ ∧ ∀ other ∈ _, _))

/-- The manifests a step of the task writes. -/
def IndexTask.writes : IndexTask → List ChunkManifestV1
  | .finish manifest .writeManifest
  | .recordGenerated manifest .writeManifest => [manifest]
  | _ => []

/-- One durable step of a task; a task which fails is given up. -/
def taskWork (disk : InventoryDisk) :
    IndexTask → InventoryDisk × Option IndexTask
  | .finish manifest stage =>
      match finishStep disk manifest stage with
      | none => (disk, none)
      | some (disk, next) => (disk, next.map (.finish manifest))
  | .recordGenerated manifest stage =>
      match recordGeneratedStep disk manifest stage with
      | none => (disk, none)
      | some (disk, next) => (disk, next.map (.recordGenerated manifest))
  | .sealDay utcDate stage =>
      ((sealStep disk utcDate stage).1,
        (sealStep disk utcDate stage).2.map (.sealDay utcDate))

def indexStep (history : InventoryHistory) :
    InventoryLabel → Option InventoryHistory
  | .finish manifest =>
      if Placed history manifest then
        some
          { history with
            tasks := history.tasks ++ [.finish manifest .writeManifest] }
      else none
  | .recordGenerated manifest =>
      if Placed history manifest then
        some
          { history with
            tasks := history.tasks ++
              [.recordGenerated manifest .checkSealed] }
      else none
  | .sealDay utcDate =>
      some
        { history with
          tasks := history.tasks ++ [.sealDay utcDate .writeSealed] }
  | .collect path =>
      some { history with disk := collectManifest history.disk path }
  | .work position =>
      history.tasks[position]?.map fun task =>
        { disk := (taskWork history.disk task).1
          tasks := history.tasks.eraseIdx position ++
            (taskWork history.disk task).2.toList
          published := history.published ++ task.writes }
  | .cancel position =>
      some { history with tasks := history.tasks.eraseIdx position }
  | .crash => some { history with tasks := [] }

/-! ## The invariant -/

/-- The manifest's chunk is still known by a manifest on disk. -/
def Kept (disk : InventoryDisk) (manifest : ChunkManifestV1) : Prop :=
  ∃ kept, kept.asRef.identity = manifest.asRef.identity ∧
    (disk.ready.get? manifest.dataPath.manifest = some kept ∨
      disk.acked.get?
        (manifest.utcDate, manifest.dataPath.manifest.name) = some kept)

/-- What a call relies on: its manifest is written, or its day sealed. -/
def IndexTask.Sound (disk : InventoryDisk)
    (published : List ChunkManifestV1) : IndexTask → Prop
  | .finish _ .writeManifest | .recordGenerated _ .checkSealed
  | .recordGenerated _ .writeManifest | .sealDay _ .writeSealed => True
  | .finish manifest .checkSealed | .finish manifest .openJournal
  | .finish manifest .append | .recordGenerated manifest .openJournal
  | .recordGenerated manifest .append => manifest ∈ published
  | .sealDay utcDate .cleanJournal | .sealDay utcDate .cleanAcked =>
      disk.DayIsSealed utcDate

/-- Manifests and journals on disk are those of known chunks. -/
structure DiskHolds (known : ChunkManifestV1 → Prop)
    (disk : InventoryDisk) : Prop where
  ready : ∀ path manifest, disk.ready.get? path = some manifest →
    known manifest ∧ path = manifest.dataPath.manifest
  acked : ∀ utcDate name manifest,
    disk.acked.get? (utcDate, name) = some manifest →
      known manifest ∧ utcDate = manifest.utcDate ∧
        name = manifest.dataPath.manifest.name
  journals : ∀ utcDate lines, disk.journals.get? utcDate = some lines →
    ∀ line ∈ lines, ∃ manifest, known manifest ∧
      manifest.asRef = line ∧ manifest.utcDate = utcDate

/-- What the manifests and journals on disk stand for. -/
structure DiskSound (disk : InventoryDisk)
    (published : List ChunkManifestV1) : Prop
    extends DiskHolds (· ∈ published) disk where
  kept : ∀ manifest ∈ published,
    ¬ disk.DayIsSealed manifest.utcDate → Kept disk manifest

/-- The manifests lie in their directories, one chunk to a file name. -/
structure ManifestsApart (manifests : List ChunkManifestV1) : Prop where
  placed : ∀ manifest ∈ manifests, manifest.dataPath.directory =
    [.date manifest.utcDate, .writer manifest.writerGroup]
  apart : ∀ left ∈ manifests, ∀ right ∈ manifests,
    SameFile left right → left.asRef.identity = right.asRef.identity

/-- What the history guarantees at every moment. -/
structure InventorySound (history : InventoryHistory) : Prop where
  disk : DiskSound history.disk history.published
  apart : ManifestsApart history.manifests
  tasks : ∀ task ∈ history.tasks, task.Sound history.disk history.published

section Preservation

variable {disk after : InventoryDisk} {published : List ChunkManifestV1}
variable {manifest : ChunkManifestV1} {utcDate : Nat}

theorem ManifestsApart.subset
    {manifests fewer : List ChunkManifestV1}
    (apart : ManifestsApart manifests) (subset : fewer ⊆ manifests) :
    ManifestsApart fewer where
  placed := fun manifest member => apart.placed manifest (subset member)
  apart := fun left isLeft right isRight =>
    apart.apart left (subset isLeft) right (subset isRight)

/-- Manifests at one path are of one day and stand for one chunk. -/
theorem ManifestsApart.sameFile
    {manifests : List ChunkManifestV1} (apart : ManifestsApart manifests)
    {left right : ChunkManifestV1} (isLeft : left ∈ manifests)
    (isRight : right ∈ manifests)
    (samePath : left.dataPath.manifest = right.dataPath.manifest) :
    SameFile left right := by
  refine ⟨?_, congrArg DataPath.name samePath⟩
  have directories : left.dataPath.manifest.directory =
      right.dataPath.manifest.directory :=
    congrArg DataPath.directory samePath
  change left.dataPath.directory = right.dataPath.directory at directories
  rw [apart.placed left isLeft, apart.placed right isRight] at directories
  simpa using (List.cons.inj directories).1

section Holding

variable {known : ChunkManifestV1 → Prop}

theorem DiskHolds.mono
    {more : ChunkManifestV1 → Prop} (holds : DiskHolds known disk)
    (implies : ∀ manifest, known manifest → more manifest) :
    DiskHolds more disk where
  ready path manifest found :=
    (holds.ready path manifest found).imp_left (implies manifest)
  acked date name manifest found :=
    (holds.acked date name manifest found).imp_left (implies manifest)
  journals date lines found line member := by
    rcases holds.journals date lines found line member with
      ⟨recorded, isKnown, rest⟩
    exact ⟨recorded, implies recorded isKnown, rest⟩

theorem DiskHolds.writeManifest
    (holds : DiskHolds known disk) (isKnown : known manifest) :
    DiskHolds known (writeManifest disk manifest) where
  ready := by
    intro path found isFound
    rw [Edge.writeManifest, Dict.get?_set] at isFound
    split at isFound
    next same =>
      cases isFound
      exact ⟨isKnown, same⟩
    next => exact holds.ready path found isFound
  acked := holds.acked
  journals := holds.journals

theorem DiskHolds.journal
    (holds : DiskHolds known disk) (utcDate : Nat)
    (lines : List ChunkRefV1)
    (fresh : ∀ line ∈ lines, line ∉
      (disk.journals.get? utcDate).getD [] →
        ∃ manifest, known manifest ∧
          manifest.asRef = line ∧ manifest.utcDate = utcDate) :
    DiskHolds known
      { disk with journals := disk.journals.set utcDate lines } where
  ready := holds.ready
  acked := holds.acked
  journals := by
    intro other found isFound line member
    rw [Dict.get?_set] at isFound
    split at isFound
    next same =>
      subst same
      cases isFound
      by_cases old : line ∈ (disk.journals.get? other).getD []
      · cases journal : disk.journals.get? other with
        | none => simp [journal] at old
        | some before =>
            rw [journal] at old
            exact holds.journals other before journal line old
      · exact fresh line member old
    next => exact holds.journals other found isFound line member

theorem DiskHolds.openJournal
    (holds : DiskHolds known disk) (utcDate : Nat) :
    DiskHolds known (openJournal disk utcDate) :=
  holds.journal utcDate _ fun _ member unknown => (unknown member).elim

theorem DiskHolds.appendJournal
    (holds : DiskHolds known disk) (isKnown : known manifest) :
    DiskHolds known (appendJournal disk manifest) := by
  apply holds.journal
  intro line isLine unknown
  rcases List.mem_append.mp isLine with old | new
  · exact (unknown old).elim
  · exact ⟨manifest, isKnown, (List.mem_singleton.mp new).symm, rfl⟩

theorem DiskHolds.sealStep
    (holds : DiskHolds known disk) (utcDate : Nat) (stage : SealStage) :
    DiskHolds known (sealStep disk utcDate stage).1 := by
  cases stage with
  | writeSealed =>
      simp only [Edge.sealStep]
      split
      next => exact holds
      next => exact ⟨holds.ready, holds.acked, holds.journals⟩
  | cleanJournal =>
      refine ⟨holds.ready, holds.acked, ?_⟩
      intro other lines found
      rw [Edge.sealStep, Dict.get?_erase] at found
      split at found
      next => simp at found
      next => exact holds.journals other lines found
  | cleanAcked =>
      refine ⟨holds.ready, ?_, holds.journals⟩
      intro other name found isFound
      rw [Edge.sealStep, Dict.get?_filterKey] at isFound
      split at isFound
      next => exact holds.acked other name found isFound
      next => simp at isFound

theorem DiskHolds.collectManifest
    (holds : DiskHolds known disk) (path : DataPath) :
    DiskHolds known (collectManifest disk path) := by
  unfold Edge.collectManifest
  cases found : disk.ready.get? path with
  | none => exact holds
  | some moved =>
      rcases holds.ready path moved found with ⟨isMoved, isPath⟩
      have ready : ∀ other manifest,
          (disk.ready.erase path).get? other = some manifest →
            known manifest ∧ other = manifest.dataPath.manifest := by
        intro other manifest isFound
        rw [Dict.get?_erase] at isFound
        split at isFound
        next => simp at isFound
        next => exact holds.ready other manifest isFound
      show DiskHolds known (if _ then _ else _)
      split
      next => exact ⟨ready, holds.acked, holds.journals⟩
      next =>
        refine ⟨ready, ?_, holds.journals⟩
        intro other name manifest isFound
        rw [Dict.get?_set] at isFound
        split at isFound
        next same =>
          cases isFound
          rcases Prod.mk.inj same with ⟨rfl, rfl⟩
          exact ⟨isMoved, rfl, by rw [isPath]⟩
        next => exact holds.acked other name manifest isFound

end Holding

theorem DiskSound.writeManifest
    (sound : DiskSound disk published)
    (apart : ManifestsApart (published ++ [manifest])) :
    DiskSound (writeManifest disk manifest) (published ++ [manifest]) where
  toDiskHolds :=
    (sound.toDiskHolds.mono fun _ member =>
      List.mem_append_left _ member).writeManifest (by simp)
  kept := by
    intro other member unsealed
    by_cases same : other.dataPath.manifest = manifest.dataPath.manifest
    · have sameFile := apart.sameFile (by simp) member same.symm
      refine ⟨manifest, apart.apart _ (by simp) _ member sameFile,
        Or.inl ?_⟩
      rw [same]
      exact Dict.get?_set_self _ _ _
    · have old : other ∈ published := by
        rcases List.mem_append.mp member with old | new
        · exact old
        · exact (same (List.mem_singleton.mp new ▸ rfl)).elim
      rcases sound.kept other old unsealed with ⟨kept, identity, place⟩
      refine ⟨kept, identity, ?_⟩
      rw [Edge.writeManifest, Dict.get?_set, if_neg same]
      exact place

theorem DiskSound.openJournal
    (sound : DiskSound disk published) (utcDate : Nat) :
    DiskSound (openJournal disk utcDate) published :=
  ⟨sound.toDiskHolds.openJournal utcDate, sound.kept⟩

theorem DiskSound.appendJournal
    (sound : DiskSound disk published) (member : manifest ∈ published) :
    DiskSound (appendJournal disk manifest) published :=
  ⟨sound.toDiskHolds.appendJournal member, sound.kept⟩

theorem dayIsSealed_sealStep
    (stage : SealStage) {other : Nat}
    (isSealed : disk.DayIsSealed other) :
    (sealStep disk utcDate stage).1.DayIsSealed other := by
  cases stage with
  | writeSealed =>
      simp only [sealStep]
      split
      next => exact isSealed
      next =>
        show ((disk.sealedDays.set _ _).get? other).isSome
        rw [Dict.get?_set]
        split
        next => rfl
        next => exact isSealed
  | cleanJournal => exact isSealed
  | cleanAcked => exact isSealed

theorem DiskSound.sealStep
    (sound : DiskSound disk published) {stage : SealStage}
    (isSealed : stage ≠ .writeSealed → disk.DayIsSealed utcDate) :
    DiskSound (sealStep disk utcDate stage).1 published where
  toDiskHolds := sound.toDiskHolds.sealStep utcDate stage
  kept := by
    intro manifest member unsealed
    cases stage with
    | writeSealed =>
        rcases sound.kept manifest member
          (mt (dayIsSealed_sealStep .writeSealed) unsealed) with
          ⟨kept, identity, place⟩
        refine ⟨kept, identity, ?_⟩
        simp only [Edge.sealStep]
        split <;> exact place
    | cleanJournal => exact sound.kept manifest member unsealed
    | cleanAcked =>
        have different : manifest.utcDate ≠ utcDate := by
          rintro rfl
          exact unsealed (isSealed (by simp))
        rcases sound.kept manifest member unsealed with
          ⟨kept, identity, place⟩
        refine ⟨kept, identity, place.imp_right fun moved => ?_⟩
        rw [Edge.sealStep, Dict.get?_filterKey]
        simpa [different] using moved

theorem DiskSound.collectManifest
    (sound : DiskSound disk published) (apart : ManifestsApart published)
    (path : DataPath) :
    DiskSound (collectManifest disk path) published where
  toDiskHolds := sound.toDiskHolds.collectManifest path
  kept := by
    unfold Edge.collectManifest
    cases found : disk.ready.get? path with
    | none => exact sound.kept
    | some moved =>
        rcases sound.ready path moved found with ⟨isMoved, isPath⟩
        intro manifest member unsealed
        dsimp only at unsealed ⊢
        split at unsealed
        next isSealed =>
          have different : manifest.dataPath.manifest ≠ path := by
            intro same
            have sameFile := apart.sameFile member isMoved
              (same.trans isPath)
            exact unsealed (sameFile.1 ▸ isSealed)
          rcases sound.kept manifest member unsealed with
            ⟨kept, identity, place⟩
          rw [if_pos isSealed]
          refine ⟨kept, identity, place.imp_left fun here => ?_⟩
          rw [Dict.get?_erase, if_neg different]
          exact here
        next notSealed =>
          rw [if_neg notSealed]
          by_cases key : (manifest.utcDate,
              manifest.dataPath.manifest.name) = (moved.utcDate, path.name)
          · rcases Prod.mk.inj key with ⟨sameDay, sameName⟩
            refine ⟨moved, ?_, Or.inr ?_⟩
            · apply apart.apart moved isMoved manifest member
              exact ⟨sameDay.symm, by rw [sameName, isPath]⟩
            · rw [Dict.get?_set, if_pos key]
          · have different : manifest.dataPath.manifest ≠ path := by
              intro same
              have sameFile := apart.sameFile member isMoved
                (same.trans isPath)
              exact key (by rw [sameFile.1, same])
            rcases sound.kept manifest member unsealed with
              ⟨kept, identity, place⟩
            refine ⟨kept, identity, ?_⟩
            rw [Dict.get?_erase, if_neg different, Dict.get?_set,
              if_neg key]
            exact place

end Preservation

/-! ## Every step keeps the invariant -/

section Steps

variable {before after : InventoryHistory}

theorem IndexTask.Sound.mono
    {task : IndexTask} {disk later : InventoryDisk}
    {published more : List ChunkManifestV1}
    (sound : task.Sound disk published)
    (seals : ∀ utcDate, disk.DayIsSealed utcDate → later.DayIsSealed utcDate)
    (subset : published ⊆ more) : task.Sound later more := by
  cases task with
  | finish manifest stage =>
      cases stage with
      | writeManifest => trivial
      | checkSealed | openJournal | append => exact subset sound
  | recordGenerated manifest stage =>
      cases stage with
      | checkSealed | writeManifest => trivial
      | openJournal | append => exact subset sound
  | sealDay utcDate stage =>
      cases stage with
      | writeSealed => trivial
      | cleanJournal | cleanAcked => exact seals utcDate sound

/-- What one durable step of a call does. -/
structure Worked (disk : InventoryDisk) (published : List ChunkManifestV1)
    (task : IndexTask) (after : InventoryDisk) (next : Option IndexTask) :
    Prop where
  result : taskWork disk task = (after, next)
  sound : DiskSound after (published ++ task.writes)
  seals : ∀ utcDate, disk.DayIsSealed utcDate → after.DayIsSealed utcDate
  next : ∀ later ∈ next, later.Sound after (published ++ task.writes) ∧
    later.manifest? = task.manifest?

theorem worked_finish
    {disk : InventoryDisk} {published : List ChunkManifestV1}
    {manifest : ChunkManifestV1} {stage : RecordStage}
    (sound : DiskSound disk published)
    (taskSound : (IndexTask.finish manifest stage).Sound disk published)
    (apart : ManifestsApart (published ++ [manifest])) :
    ∃ after next,
      Worked disk published (.finish manifest stage) after next := by
  cases stage with
  | writeManifest =>
      refine ⟨_, _, rfl, sound.writeManifest apart, fun _ => id, ?_⟩
      rintro later ⟨⟩
      exact ⟨by simp [IndexTask.Sound, IndexTask.writes], rfl⟩
  | checkSealed =>
      by_cases isSealed : disk.DayIsSealed manifest.utcDate
      · refine ⟨disk, none, ?_, ?_, fun _ => id, by simp⟩
        · simp only [taskWork, finishStep, if_pos isSealed]
        · simpa [IndexTask.writes] using sound
      · refine ⟨disk, some (.finish manifest .openJournal), ?_, ?_,
          fun _ => id, ?_⟩
        · simp only [taskWork, finishStep, if_neg isSealed, Option.map_some]
        · simpa [IndexTask.writes] using sound
        · rintro later ⟨⟩
          exact ⟨by simpa [IndexTask.Sound, IndexTask.writes] using
            taskSound, rfl⟩
  | openJournal =>
      refine ⟨_, _, rfl, ?_, fun _ => id, ?_⟩
      · simpa [IndexTask.writes] using sound.openJournal manifest.utcDate
      · rintro later ⟨⟩
        exact ⟨by simpa [IndexTask.Sound, IndexTask.writes] using taskSound,
          rfl⟩
  | append =>
      refine ⟨_, _, rfl, ?_, fun _ => id, ?_⟩
      · simpa [IndexTask.writes] using sound.appendJournal taskSound
      · rintro later ⟨⟩

theorem worked_recordGenerated
    {disk : InventoryDisk} {published : List ChunkManifestV1}
    {manifest : ChunkManifestV1} {stage : RecordStage}
    (sound : DiskSound disk published)
    (taskSound :
      (IndexTask.recordGenerated manifest stage).Sound disk published)
    (apart : ManifestsApart (published ++ [manifest])) :
    ∃ after next,
      Worked disk published (.recordGenerated manifest stage) after next := by
  cases stage with
  | checkSealed =>
      by_cases isSealed : disk.DayIsSealed manifest.utcDate
      · refine ⟨disk, none, ?_, ?_, fun _ => id, by simp⟩
        · simp only [taskWork, recordGeneratedStep, if_pos isSealed]
        · simpa [IndexTask.writes] using sound
      · refine ⟨disk, some (.recordGenerated manifest .writeManifest), ?_, ?_,
          fun _ => id, ?_⟩
        · simp only [taskWork, recordGeneratedStep, if_neg isSealed,
            Option.map_some]
        · simpa [IndexTask.writes] using sound
        · rintro later ⟨⟩
          exact ⟨trivial, rfl⟩
  | writeManifest =>
      refine ⟨_, _, rfl, sound.writeManifest apart, fun _ => id, ?_⟩
      rintro later ⟨⟩
      exact ⟨by simp [IndexTask.Sound, IndexTask.writes], rfl⟩
  | openJournal =>
      refine ⟨_, _, rfl, ?_, fun _ => id, ?_⟩
      · simpa [IndexTask.writes] using sound.openJournal manifest.utcDate
      · rintro later ⟨⟩
        exact ⟨by simpa [IndexTask.Sound, IndexTask.writes] using taskSound,
          rfl⟩
  | append =>
      refine ⟨_, _, rfl, ?_, fun _ => id, ?_⟩
      · simpa [IndexTask.writes] using sound.appendJournal taskSound
      · rintro later ⟨⟩

theorem worked_sealDay
    {disk : InventoryDisk} {published : List ChunkManifestV1}
    {utcDate : Nat} {stage : SealStage}
    (sound : DiskSound disk published)
    (taskSound : (IndexTask.sealDay utcDate stage).Sound disk published) :
    ∃ after next,
      Worked disk published (.sealDay utcDate stage) after next := by
  have isSealed : stage ≠ .writeSealed → disk.DayIsSealed utcDate := by
    cases stage with
    | writeSealed => exact fun writes => (writes rfl).elim
    | cleanJournal | cleanAcked => exact fun _ => taskSound
  refine ⟨_, _, rfl, ?_, fun _ => dayIsSealed_sealStep stage, ?_⟩
  · have writes : (IndexTask.sealDay utcDate stage).writes = [] := rfl
    rw [writes, List.append_nil]
    exact sound.sealStep isSealed
  · intro later isNext
    rcases Option.map_eq_some_iff.mp isNext with ⟨next, isStage, rfl⟩
    refine ⟨?_, rfl⟩
    cases stage with
    | writeSealed =>
        have isNow : (sealStep disk utcDate .writeSealed).1.DayIsSealed
            utcDate := by
          simp only [sealStep]
          split
          next already => exact already
          next => simp [InventoryDisk.DayIsSealed]
        have same : next = .cleanJournal := by
          simp only [sealStep] at isStage
          split at isStage <;> cases isStage <;> rfl
        rw [same]
        exact isNow
    | cleanJournal =>
        cases isStage
        exact dayIsSealed_sealStep .cleanJournal taskSound
    | cleanAcked => cases isStage

theorem IndexTask.manifest_of_writes
    {task : IndexTask} {manifest : ChunkManifestV1}
    (writes : manifest ∈ task.writes) : task.manifest? = some manifest := by
  unfold IndexTask.writes at writes
  split at writes
  · rw [List.mem_singleton.mp writes]
    rfl
  · rw [List.mem_singleton.mp writes]
    rfl
  · cases writes

theorem InventorySound.work
    {task : IndexTask} {others : List IndexTask}
    (sound : InventorySound before)
    (turn : before.tasks.Perm (task :: others)) :
    InventorySound
      { disk := (taskWork before.disk task).1
        tasks := others ++ (taskWork before.disk task).2.toList
        published := before.published ++ task.writes } := by
  have known : ∀ manifest, task.manifest? = some manifest →
      manifest ∈ before.manifests := by
    intro manifest isManifest
    apply List.mem_append_right
    exact List.mem_filterMap.mpr
      ⟨task, turn.mem_iff.mpr List.mem_cons_self, isManifest⟩
  have apart : ∀ manifest, task.manifest? = some manifest →
      ManifestsApart (before.published ++ [manifest]) := by
    intro manifest isManifest
    apply sound.apart.subset
    intro other member
    rcases List.mem_append.mp member with old | new
    · exact List.mem_append_left _ old
    · rw [List.mem_singleton.mp new]
      exact known manifest isManifest
  have taskSound := sound.tasks task (turn.mem_iff.mpr List.mem_cons_self)
  have worked : ∃ after next,
      Worked before.disk before.published task after next := by
    cases task with
    | finish manifest stage =>
        exact worked_finish sound.disk taskSound (apart manifest rfl)
    | recordGenerated manifest stage =>
        exact worked_recordGenerated sound.disk taskSound (apart manifest rfl)
    | sealDay utcDate stage => exact worked_sealDay sound.disk taskSound
  rcases worked with ⟨after, next, worked⟩
  rw [worked.result]
  exact {
    disk := worked.sound
    apart := by
      apply sound.apart.subset
      intro manifest member
      rcases List.mem_append.mp member with written | pending
      · rcases List.mem_append.mp written with old | new
        · exact List.mem_append_left _ old
        · exact known manifest (IndexTask.manifest_of_writes new)
      · rcases List.mem_filterMap.mp pending with
          ⟨running, isRunning, isManifest⟩
        rcases List.mem_append.mp isRunning with other | isNext
        · apply List.mem_append_right
          exact List.mem_filterMap.mpr
            ⟨running, turn.mem_iff.mpr (List.mem_cons_of_mem task other),
              isManifest⟩
        · have same := (worked.next running (Option.mem_toList.mp isNext)).2
          exact known manifest (same ▸ isManifest)
    tasks := by
      intro running isRunning
      rcases List.mem_append.mp isRunning with other | isNext
      · exact (sound.tasks running
          (turn.mem_iff.mpr (List.mem_cons_of_mem task other))).mono
          worked.seals (List.subset_append_left _ _)
      · exact (worked.next running (Option.mem_toList.mp isNext)).1 }

theorem InventorySound.fewer
    (sound : InventorySound before) {tasks : List IndexTask}
    (subset : tasks ⊆ before.tasks) :
    InventorySound { before with tasks := tasks } where
  disk := sound.disk
  apart := by
    apply sound.apart.subset
    intro manifest member
    rcases List.mem_append.mp member with written | pending
    · exact List.mem_append_left _ written
    · rcases List.mem_filterMap.mp pending with ⟨task, isTask, isManifest⟩
      exact List.mem_append_right _
        (List.mem_filterMap.mpr ⟨task, subset isTask, isManifest⟩)
  tasks := fun task isTask => sound.tasks task (subset isTask)

theorem InventorySound.start
    (sound : InventorySound before) {task : IndexTask}
    (placed : ∀ manifest, task.manifest? = some manifest →
      Placed before manifest)
    (taskSound : task.Sound before.disk before.published) :
    InventorySound { before with tasks := before.tasks ++ [task] } where
  disk := sound.disk
  apart := by
    have cases : ∀ manifest ∈ InventoryHistory.manifests
        { before with tasks := before.tasks ++ [task] },
        manifest ∈ before.manifests ∨ task.manifest? = some manifest := by
      intro manifest member
      rcases List.mem_append.mp member with written | pending
      · exact Or.inl (List.mem_append_left _ written)
      · rw [List.filterMap_append] at pending
        rcases List.mem_append.mp pending with old | new
        · exact Or.inl (List.mem_append_right _ old)
        · exact Or.inr (by simpa using new)
    exact {
      placed := by
        intro manifest member
        rcases cases manifest member with old | new
        · exact sound.apart.placed manifest old
        · exact (placed manifest new).1
      apart := by
        intro left isLeft right isRight same
        rcases cases left isLeft with oldLeft | newLeft
        · rcases cases right isRight with oldRight | newRight
          · exact sound.apart.apart left oldLeft right oldRight same
          · exact (placed right newRight).2 left oldLeft
              ⟨same.1.symm, same.2.symm⟩
        · rcases cases right isRight with oldRight | newRight
          · exact ((placed left newLeft).2 right oldRight same).symm
          · rw [Option.some.inj (newLeft.symm.trans newRight)] }
  tasks := by
    intro running isRunning
    rcases List.mem_append.mp isRunning with old | new
    · exact sound.tasks running old
    · rw [List.mem_singleton.mp new]
      exact taskSound

theorem InventorySound.step
    {label : InventoryLabel} (sound : InventorySound before)
    (stepped : indexStep before label = some after) :
    InventorySound after := by
  cases label with
  | finish manifest =>
      simp only [indexStep, Option.ite_none_right_eq_some] at stepped
      rcases stepped with ⟨placed, ⟨⟩⟩
      apply sound.start
      · rintro other ⟨⟩
        exact placed
      · trivial
  | recordGenerated manifest =>
      simp only [indexStep, Option.ite_none_right_eq_some] at stepped
      rcases stepped with ⟨placed, ⟨⟩⟩
      apply sound.start
      · rintro other ⟨⟩
        exact placed
      · trivial
  | sealDay utcDate =>
      cases stepped
      apply sound.start
      · rintro other ⟨⟩
      · trivial
  | collect path =>
      cases stepped
      have seals : ∀ utcDate, before.disk.DayIsSealed utcDate →
          (collectManifest before.disk path).DayIsSealed utcDate := by
        intro utcDate isSealed
        unfold collectManifest
        split
        · exact isSealed
        · split <;> exact isSealed
      have written : ManifestsApart before.published :=
        sound.apart.subset (List.subset_append_left _ _)
      exact {
        disk := sound.disk.collectManifest written path
        apart := sound.apart
        tasks := fun task isTask =>
          (sound.tasks task isTask).mono seals (List.Subset.refl _) }
  | work position =>
      simp only [indexStep, Option.map_eq_some_iff] at stepped
      rcases stepped with ⟨task, found, rfl⟩
      exact sound.work (perm_eraseIdx found)
  | cancel position =>
      cases stepped
      exact sound.fewer (List.eraseIdx_sublist _ _).subset
  | crash =>
      cases stepped
      exact sound.fewer (List.nil_subset _)

theorem inventorySound_start : InventorySound {} where
  disk := {
    ready := by
      rintro path manifest ⟨⟩
    acked := by
      rintro utcDate name manifest ⟨⟩
    journals := by
      rintro utcDate lines ⟨⟩
    kept := by
      rintro manifest ⟨⟩ }
  apart := {
    placed := by
      rintro manifest ⟨⟩
    apart := by
      rintro left ⟨⟩ }
  tasks := by
    rintro task ⟨⟩

theorem sealedDays_taskWork
    {disk : InventoryDisk} (task : IndexTask) {utcDate : Nat}
    {inventory : List ChunkRefV1}
    (isSealed : disk.sealedDays.get? utcDate = some inventory) :
    (taskWork disk task).1.sealedDays.get? utcDate = some inventory := by
  cases task with
  | finish manifest stage =>
      cases stage with
      | writeManifest | openJournal | append => exact isSealed
      | checkSealed =>
          by_cases present : disk.DayIsSealed manifest.utcDate
          · simpa only [taskWork, finishStep, if_pos present] using isSealed
          · simpa only [taskWork, finishStep, if_neg present] using isSealed
  | recordGenerated manifest stage =>
      cases stage with
      | writeManifest | openJournal | append => exact isSealed
      | checkSealed =>
          by_cases present : disk.DayIsSealed manifest.utcDate
          · simpa only [taskWork, recordGeneratedStep, if_pos present] using
              isSealed
          · simpa only [taskWork, recordGeneratedStep, if_neg present] using
              isSealed
  | sealDay other stage =>
      cases stage with
      | cleanJournal | cleanAcked => exact isSealed
      | writeSealed =>
          simp only [taskWork, sealStep]
          split
          next => exact isSealed
          next unsealed =>
            have different : utcDate ≠ other := by
              rintro rfl
              exact unsealed (by simp [InventoryDisk.DayIsSealed, isSealed])
            rw [Dict.get?_set, if_neg different]
            exact isSealed

/-- The day is sealed with this inventory. -/
def SealedAs (utcDate : Nat) (inventory : List ChunkRefV1)
    (history : InventoryHistory) : Prop :=
  history.disk.sealedDays.get? utcDate = some inventory

theorem SealedAs.step
    {label : InventoryLabel} {utcDate : Nat} {inventory : List ChunkRefV1}
    (isSealed : SealedAs utcDate inventory before)
    (stepped : indexStep before label = some after) :
    SealedAs utcDate inventory after := by
  cases label with
  | finish manifest | recordGenerated manifest =>
      simp only [indexStep, Option.ite_none_right_eq_some] at stepped
      rcases stepped with ⟨_, ⟨⟩⟩
      exact isSealed
  | sealDay _ | cancel _ | crash =>
      cases stepped
      exact isSealed
  | collect path =>
      cases stepped
      show (collectManifest before.disk path).sealedDays.get? utcDate = _
      unfold collectManifest
      split
      · exact isSealed
      · split <;> exact isSealed
  | work position =>
      simp only [indexStep, Option.map_eq_some_iff] at stepped
      rcases stepped with ⟨task, _, rfl⟩
      exact sealedDays_taskWork task isSealed

/-- A sealed inventory never changes. -/
theorem SealedAs.run
    {labels : List InventoryLabel} {utcDate : Nat}
    {inventory : List ChunkRefV1}
    (isSealed : SealedAs utcDate inventory before)
    (reached : runFrom indexStep before labels = some after) :
    SealedAs utcDate inventory after :=
  invariant_of_run (fun _ _ _ before _ stepped => before.step stepped)
    isSealed (stepsMeet_true _ labels) reached

end Steps

/-! ## The result -/

/-- The day's journal exists, or no manifest of the day is on disk. -/
def JournalCovers (disk : InventoryDisk) (utcDate : Nat) : Prop :=
  (disk.journals.get? utcDate).isSome ∨
    readyManifests disk utcDate = [] ∧ ackedManifests disk utcDate = []

instance (disk : InventoryDisk) (utcDate : Nat) :
    Decidable (JournalCovers disk utcDate) :=
  inferInstanceAs (Decidable (_ ∨ _ ∧ _))

/-- Every chunk of the day whose manifest was written is listed. -/
def Complete (published : List ChunkManifestV1) (utcDate : Nat)
    (inventory : List ChunkRefV1) : Prop :=
  ∀ manifest ∈ published, manifest.utcDate = utcDate →
    ∃ chunk ∈ inventory, chunk.identity = manifest.asRef.identity

section Reading

variable {disk : InventoryDisk} {published : List ChunkManifestV1}
variable {utcDate : Nat} {manifest : ChunkManifestV1}

theorem mem_readyManifests_iff :
    manifest ∈ readyManifests disk utcDate ↔
      ∃ path, disk.ready.get? path = some manifest ∧
        path.directory.head? = some (.date utcDate) := by
  simp only [readyManifests, List.mem_map, List.mem_filter,
    decide_eq_true_eq, Prod.exists, exists_eq_right, Dict.mem_entries_iff]

theorem mem_ackedManifests_iff :
    manifest ∈ ackedManifests disk utcDate ↔
      ∃ name, disk.acked.get? (utcDate, name) = some manifest := by
  simp only [ackedManifests, List.mem_map, List.mem_filter,
    decide_eq_true_eq, Prod.exists, exists_eq_right, Dict.mem_entries_iff]
  constructor
  · rintro ⟨date, name, found, rfl⟩
    exact ⟨name, found⟩
  · rintro ⟨name, found⟩
    exact ⟨utcDate, name, found, rfl⟩

section Holding

variable {known : ChunkManifestV1 → Prop}

/-- A manifest on disk is of the day under whose date it lies. -/
theorem DiskHolds.of_day
    (holds : DiskHolds known disk)
    (placed : ∀ manifest, known manifest → manifest.dataPath.directory =
      [.date manifest.utcDate, .writer manifest.writerGroup])
    (onDisk : manifest ∈ readyManifests disk utcDate ∨
      manifest ∈ ackedManifests disk utcDate) :
    known manifest ∧ manifest.utcDate = utcDate := by
  rcases onDisk with isReady | isAcked
  · rcases mem_readyManifests_iff.mp isReady with ⟨path, found, dated⟩
    rcases holds.ready path manifest found with ⟨isKnown, rfl⟩
    have directory := placed manifest isKnown
    change manifest.dataPath.directory.head? = _ at dated
    rw [directory] at dated
    exact ⟨isKnown, by simpa using dated⟩
  · rcases mem_ackedManifests_iff.mp isAcked with ⟨name, found⟩
    rcases holds.acked utcDate name manifest found with ⟨isKnown, same, _⟩
    exact ⟨isKnown, same.symm⟩

/-- What is read of a day are its known chunks. -/
theorem DiskHolds.mem_readRefs
    (holds : DiskHolds known disk)
    (placed : ∀ manifest, known manifest → manifest.dataPath.directory =
      [.date manifest.utcDate, .writer manifest.writerGroup])
    {chunk : ChunkRefV1} (listed : chunk ∈ readRefs disk utcDate) :
    ∃ manifest, known manifest ∧
      manifest.asRef = chunk ∧ manifest.utcDate = utcDate := by
  unfold readRefs at listed
  split at listed
  next => cases listed
  next lines journal =>
    have member := (mem_of_byIdentity (mem_inventoryOf_iff.mp listed)).1
    rcases List.mem_append.mp member with other | isAcked
    · rcases List.mem_append.mp other with isLine | isReady
      · exact holds.journals utcDate lines journal chunk isLine
      · rcases List.mem_map.mp isReady with ⟨manifest, onDisk, rfl⟩
        rcases holds.of_day placed (Or.inl onDisk) with ⟨isKnown, sameDay⟩
        exact ⟨manifest, isKnown, rfl, sameDay⟩
    · rcases List.mem_map.mp isAcked with ⟨manifest, onDisk, rfl⟩
      rcases holds.of_day placed (Or.inr onDisk) with ⟨isKnown, sameDay⟩
      exact ⟨manifest, isKnown, rfl, sameDay⟩

end Holding

/-- A day which is not sealed is read completely if its journal covers it. -/
theorem DiskSound.readRefs_complete_iff
    (sound : DiskSound disk published) (apart : ManifestsApart published)
    (unsealed : ¬ disk.DayIsSealed utcDate) :
    Complete published utcDate (readRefs disk utcDate) ↔
      JournalCovers disk utcDate := by
  constructor
  · intro complete
    unfold JournalCovers
    cases journal : disk.journals.get? utcDate with
    | some lines => exact Or.inl rfl
    | none =>
        have nothing : ∀ manifest,
            (manifest ∈ readyManifests disk utcDate ∨
              manifest ∈ ackedManifests disk utcDate) → False := by
          intro manifest onDisk
          rcases sound.toDiskHolds.of_day apart.placed onDisk with
            ⟨member, sameDay⟩
          rcases complete manifest member sameDay with ⟨chunk, listed, _⟩
          simp [readRefs, journal] at listed
        refine Or.inr ⟨?_, ?_⟩
        · exact List.eq_nil_iff_forall_not_mem.mpr fun manifest isReady =>
            nothing manifest (Or.inl isReady)
        · exact List.eq_nil_iff_forall_not_mem.mpr fun manifest isAcked =>
            nothing manifest (Or.inr isAcked)
  · intro covers manifest member sameDay
    rcases sound.kept manifest member (sameDay ▸ unsealed) with
      ⟨kept, identity, place⟩
    have onDisk : kept ∈ readyManifests disk utcDate ∨
        kept ∈ ackedManifests disk utcDate := by
      rcases place with isReady | isAcked
      · apply Or.inl
        refine mem_readyManifests_iff.mpr ⟨_, isReady, ?_⟩
        change manifest.dataPath.directory.head? = _
        rw [apart.placed manifest member, sameDay]
        rfl
      · exact Or.inr (mem_ackedManifests_iff.mpr ⟨_, sameDay ▸ isAcked⟩)
    rcases covers with exists_ | ⟨noReady, noAcked⟩
    · rcases Option.isSome_iff_exists.mp exists_ with ⟨lines, journal⟩
      rw [← identity]
      simp only [readRefs, journal]
      apply exists_mem_inventoryOf
      rcases onDisk with isReady | isAcked
      · exact List.mem_append_left _
          (List.mem_append_right _ (List.mem_map_of_mem isReady))
      · exact List.mem_append_right _ (List.mem_map_of_mem isAcked)
    · rw [noReady, noAcked] at onDisk
      rcases onDisk with absent | absent <;> cases absent

theorem readRefs_sorted (disk : InventoryDisk) (utcDate : Nat) :
    ((readRefs disk utcDate).map ChunkRefV1.identity).Pairwise (· < ·) := by
  unfold readRefs
  split
  · exact List.Pairwise.nil
  · exact inventoryOf_sorted _

end Reading

/--
Whatever has happened before, the inventory which a seal writes lists chunks
of the day only, each identity once and in order, and stays as it is; it lists
every chunk whose manifest was written exactly when the journal covers the day.
-/
theorem sealed_inventory_complete_iff
    {labels : List InventoryLabel} {before : InventoryHistory}
    (reached : runFrom indexStep {} labels = some before)
    {position utcDate : Nat}
    (turn : before.tasks[position]? = some (.sealDay utcDate .writeSealed))
    (unsealed : ¬ before.disk.DayIsSealed utcDate) :
    ∃ after, indexStep before (.work position) = some after ∧
      ∃ inventory, after.disk.sealedDays.get? utcDate = some inventory ∧
        (∀ later final, runFrom indexStep after later = some final →
          final.disk.sealedDays.get? utcDate = some inventory) ∧
        (inventory.map ChunkRefV1.identity).Pairwise (· < ·) ∧
        (∀ chunk ∈ inventory, ∃ manifest ∈ before.published,
          manifest.asRef = chunk ∧ manifest.utcDate = utcDate) ∧
        (Complete before.published utcDate inventory ↔
          JournalCovers before.disk utcDate) := by
  have sound : InventorySound before :=
    invariant_of_run
      (fun _ _ _ before _ stepped => before.step stepped)
      inventorySound_start (stepsMeet_true _ labels) reached
  have apart : ManifestsApart before.published :=
    sound.apart.subset (List.subset_append_left _ _)
  let after : InventoryHistory :=
    { disk := (taskWork before.disk (.sealDay utcDate .writeSealed)).1
      tasks := before.tasks.eraseIdx position ++
        (taskWork before.disk (.sealDay utcDate .writeSealed)).2.toList
      published := before.published ++ [] }
  have isSealed : after.disk.sealedDays.get? utcDate =
      some (readRefs before.disk utcDate) := by
    show (sealStep before.disk utcDate .writeSealed).1.sealedDays.get? _ = _
    simp only [sealStep, if_neg unsealed, Dict.get?_set_self]
  refine ⟨after, ?_, readRefs before.disk utcDate, isSealed, ?_,
    readRefs_sorted _ _,
    fun chunk => sound.disk.toDiskHolds.mem_readRefs apart.placed,
    sound.disk.readRefs_complete_iff apart unsealed⟩
  · simp only [indexStep, turn, Option.map_some]
    rfl
  · intro later final reached
    exact SealedAs.run isSealed reached

/-! ## Runs -/

/-- A chunk of day 3 with the given id. -/
def chunkManifest (chunkId : String) : ChunkManifestV1 where
  chunkId := chunkId
  dataPath := relativePath 3 .depth (chunkId ++ ".parquet")
  sha256 := chunkId
  sizeBytes := 100
  contentType := .parquet
  collectorId := "collector"
  writerGroup := .depth
  utcDate := 3
  eventCount := 1
  minAppReceiveRealtimeNs := midnightNs 3
  maxAppReceiveRealtimeNs := midnightNs 3
  dataContractHash := ""
  universeHash := ""
  createdAt := 0
  timeRange := le_refl _

/--
The first chunk is recorded, acknowledged and moved away; a crash keeps the
second from being recorded; then the day is about to be sealed.
-/
def crashedRun : List InventoryLabel :=
  [.finish (chunkManifest "chunk-first"), .work 0, .work 0, .work 0, .work 0,
    .collect (chunkManifest "chunk-first").dataPath.manifest,
    .finish (chunkManifest "chunk-second"), .work 0, .crash, .sealDay 3]

theorem crashedRun_runs :
    (runFrom indexStep {} crashedRun).isSome := by
  decide +kernel

/-- Where the run leads. -/
def crashedFinal : InventoryHistory :=
  (runFrom indexStep {} crashedRun).get crashedRun_runs

theorem sealed_inventory_complete_crashed :
    ∃ after, indexStep crashedFinal (.work 0) = some after ∧
      ∃ inventory, after.disk.sealedDays.get? 3 = some inventory ∧
        Complete crashedFinal.published 3 inventory := by
  have turn : crashedFinal.tasks[0]? = some (.sealDay 3 .writeSealed) := by
    decide +kernel
  have unsealed : ¬ crashedFinal.disk.DayIsSealed 3 := by
    decide +kernel
  have covers : JournalCovers crashedFinal.disk 3 := by
    decide +kernel
  rcases sealed_inventory_complete_iff
    (Option.some_get crashedRun_runs).symm turn unsealed with
    ⟨after, stepped, inventory, isSealed, _, _, _, complete⟩
  exact ⟨after, stepped, inventory, isSealed, complete.mpr covers⟩

/-- The day's only chunk, its journal not created when the crash comes. -/
def unrecordedRun : List InventoryLabel :=
  [.finish (chunkManifest "chunk-first"), .work 0, .crash, .sealDay 3, .work 0]

/-- The day is sealed without the chunk whose manifest is there. -/
theorem sealed_inventory_empty :
    ∃ final ∈ runFrom indexStep {} unrecordedRun,
      chunkManifest "chunk-first" ∈ final.published ∧
        final.disk.ready.get? (chunkManifest "chunk-first").dataPath.manifest =
          some (chunkManifest "chunk-first") ∧
        final.disk.sealedDays.get? 3 = some [] := by
  decide +kernel

end ShadowDataPlane.Edge
