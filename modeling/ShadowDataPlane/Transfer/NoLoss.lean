import ShadowDataPlane.Transfer.Protocol

/-!
# No chunk is lost in the transfer

A chunk leaves the edge only for an acknowledgement, and the centre stages an
acknowledgement only for a file which it has verified under its final name.
Files under final names are never written again, so what has been
acknowledged stays.

Files are written under a hidden name first.  A mirror whose manifest names
such a hidden name as its data path breaks the argument: the file is
acknowledged under a name which another download truncates (`chunk_lost`).
For all other mirrors, stale or corrupted, nothing is ever lost
(`published_chunk_is_kept`).
-/

namespace ShadowDataPlane.Transfer

open ShadowDataPlane.Foundation
open ShadowDataPlane.Contracts
open ShadowDataPlane.Central
open ShadowDataPlane.Edge

/-! ## Hidden names -/

/-- The name is `.<name>.partial`, as those are under which files are written
first. -/
def Hidden (path : DataPath) : Prop :=
  ['.'] <+: path.name.toList ∧ ".partial".toList <:+ path.name.toList.tail

instance (path : DataPath) : Decidable (Hidden path) :=
  inferInstanceAs (Decidable (_ ∧ _))

theorem toList_hidden (path : DataPath) :
    path.hidden.name.toList =
      '.' :: (path.name.toList ++ ".partial".toList) := by
  simp [DataPath.hidden]

theorem hidden_hidden (path : DataPath) : Hidden path.hidden := by
  unfold Hidden
  rw [toList_hidden]
  constructor
  · exact ⟨path.name.toList ++ ".partial".toList, rfl⟩
  · exact ⟨path.name.toList, rfl⟩

theorem Hidden.suffix {path : DataPath} (hidden : Hidden path) :
    ".partial".toList <:+ path.name.toList :=
  hidden.2.trans (List.tail_suffix _)

theorem hidden_ne (path : DataPath) : path.hidden ≠ path := by
  intro same
  have lengths := congrArg (fun path => path.name.toList.length) same
  simp only [toList_hidden, List.length_cons, List.length_append] at lengths
  omega

theorem not_hidden_manifest (path : DataPath) : ¬ Hidden path.manifest := by
  intro hidden
  rcases hidden.suffix with ⟨rest, isName⟩
  have last := congrArg List.getLast? isName
  simp [DataPath.manifest] at last

/-! ## The invariant -/

section Invariant

variable {β : Type} (codec : FileCodec β)

/-- The files below the raw root of the centre. -/
abbrev RawFiles (β : Type) := Dict (String × DataPath) β

/-- A file with this hash stands under a final name. -/
def Durable (raw : RawFiles β) (sha256 : String) : Prop :=
  ∃ place content, raw.get? place = some content ∧
    codec.sha256 content = sha256 ∧ ¬ Hidden place.2

/-- What a stage of an ingest relies on. -/
def IngestSound (raw : RawFiles β) : IngestStage β → Prop
  | .readManifest => True
  | .checkDestination manifest _ => ¬ Hidden manifest.dataPath
  | .openPartial manifest _ | .download manifest _
  | .verifyPartial manifest _ =>
      ¬ Hidden manifest.dataPath ∧ raw.get? (destination manifest) = none
  | .replacePartial manifest _ =>
      ¬ Hidden manifest.dataPath ∧ raw.get? (destination manifest) = none ∧
        ∃ content,
          raw.get? (hiddenBeside (destination manifest)) = some content ∧
            codec.sha256 content = manifest.sha256
  | .checkManifest manifest _ | .writeAck manifest =>
      Durable codec raw manifest.sha256
  | .writeManifest manifest _ | .replaceManifest manifest _ =>
      Durable codec raw manifest.sha256 ∧
        raw.get? (manifestBeside (destination manifest)) = none

/-- What a stage of a day publication relies on. -/
def DaySound (raw : RawFiles β) : DayStage β → Prop
  | .readDay => True
  | .writeDay place _ | .replaceDay place => raw.get? place = none

def PullSound (raw : RawFiles β) : PullTask β → Prop
  | .ingest _ stage => IngestSound codec raw stage
  | .publishDay _ stage => DaySound raw stage

/-- A chunk which is ready on the edge or stands at the centre. -/
def Safe (data : Dict DataPath β) (raw : RawFiles β)
    (manifest : ChunkManifestV1) : Prop :=
  (∃ content, data.get? manifest.dataPath = some content ∧
    codec.sha256 content = manifest.sha256) ∨
      Durable codec raw manifest.sha256

/-- What a transaction relies on. -/
structure TransactionSound (raw : RawFiles β)
    (published : List ChunkManifestV1) (transaction : AckTransaction) :
    Prop where
  published : transaction.manifest ∈ published
  durable : Durable codec raw transaction.manifest.sha256

/-- What a stage of `apply_acks` relies on. -/
def ApplySound (raw : RawFiles β) (published : List ChunkManifestV1) :
    ApplyStage → Prop
  | .readManifests | .apply _ _ | .unlinkTransactions _ => True
  | .accept manifests _ _ | .unlinkAck manifests _ _ _ =>
      ∀ chunkId manifest, manifests.get? chunkId = some manifest →
        manifest ∈ published
  | .moveManifest transaction _ _ | .removeData transaction _ _ =>
      TransactionSound codec raw published transaction

def EdgeTaskSound (used : List (DataPath × String)) (raw : RawFiles β)
    (published : List ChunkManifestV1) : EdgeTask β → Prop
  | .publish content draft _ => (draft.dataPath, codec.sha256 content) ∈ used
  | .applyAcks stage => ApplySound codec raw published stage

/-- What the files of the edge stand for. -/
structure EdgeSound (used : List (DataPath × String)) (raw : RawFiles β)
    (edge : SpoolDisk β) (published : List ChunkManifestV1) : Prop where
  data : ∀ path content, edge.data.get? path = some content →
    (path, codec.sha256 content) ∈ used
  manifests : ∀ path manifest, edge.manifests.get? path = some manifest →
    manifest ∈ published
  isUsed : ∀ manifest ∈ published, (manifest.dataPath, manifest.sha256) ∈ used
  safe : ∀ manifest ∈ published, Safe codec edge.data raw manifest
  acks : ∀ chunkId ack, edge.acks.get? chunkId = some ack →
    Durable codec raw ack.sha256
  applying : ∀ chunkId transaction,
    edge.applying.get? chunkId = some transaction →
      TransactionSound codec raw published transaction

/-- One path is used for one hash. -/
def Functional (used : List (DataPath × String)) : Prop :=
  ∀ left ∈ used, ∀ right ∈ used, left.1 = right.1 → left.2 = right.2

/-- What every run guarantees. -/
structure TransferSound (state : TransferState β) : Prop where
  edge : EdgeSound codec state.used state.central.raw state.edge
    state.published
  functional : Functional state.used
  tasks : ∀ task ∈ state.edgeTasks,
    EdgeTaskSound codec state.used state.central.raw state.published task
  pull : ∀ task ∈ state.pull, PullSound codec state.central.raw task
  staged : ∀ chunkId ack, state.central.staged.get? chunkId = some ack →
    Durable codec state.central.raw ack.sha256
  network : ∀ ack ∈ state.network,
    Durable codec state.central.raw ack.sha256

/-- The manifest which the puller is about to read. -/
def reading : Option (PullTask β) → Option DataPath
  | some (.ingest path .readManifest) => some path
  | _ => none

/-- The manifest the puller is about to read names no hidden file. -/
def NamesVisible (state : TransferState β) : TransferLabel β → Prop
  | .pullWork =>
      ∀ path ∈ reading state.pull,
        ∀ bytes ∈ state.central.mirror.get? path,
          ∀ manifest ∈ codec.parseManifest bytes, ¬ Hidden manifest.dataPath
  | _ => True

instance (state : TransferState β) :
    (label : TransferLabel β) → Decidable (NamesVisible codec state label)
  | .pullWork => inferInstanceAs (Decidable (∀ path ∈ _, _))
  | .tick _ | .publish _ _ | .applyAcks | .sealDay _ | .edgeWork _
  | .edgeCrash | .mirror _ | .ingest _ | .publishDay _ | .tear _
  | .centralCrash | .pushAcks | .unstage _ | .deliver _ =>
      inferInstanceAs (Decidable True)

/-! ## The centre -/

/-- Files under final names stay as they are. -/
def RawKept (raw after : RawFiles β) : Prop :=
  ∀ place content, ¬ Hidden place.2 → raw.get? place = some content →
    after.get? place = some content

variable {codec} {raw after : RawFiles β}

theorem Durable.mono
    {sha256 : String} (durable : Durable codec raw sha256)
    (kept : RawKept raw after) : Durable codec after sha256 := by
  rcases durable with ⟨place, content, found, hash, visible⟩
  exact ⟨place, content, kept place content visible found, hash, visible⟩

theorem rawKept_refl (raw : RawFiles β) : RawKept raw raw :=
  fun _ _ _ found => found

theorem rawKept_hidden
    (raw : RawFiles β) (place : String × DataPath) (bytes : β) :
    RawKept raw (raw.set (hiddenBeside place) bytes) := by
  intro other content visible found
  rw [Dict.get?_set, if_neg]
  · exact found
  · rintro rfl
    exact visible (hidden_hidden place.2)

theorem hiddenBeside_ne (place : String × DataPath) :
    hiddenBeside place ≠ place :=
  fun same => hidden_ne place.2 (congrArg Prod.snd same)

/-- A hidden file which is renamed to a free place. -/
theorem renameHidden_ok
    {place : String × DataPath}
    (renamed : renameHidden raw place = .ok after)
    (free : raw.get? place = none) :
    RawKept raw after ∧
      ∃ content, raw.get? (hiddenBeside place) = some content ∧
        after.get? place = some content := by
  unfold renameHidden at renamed
  split at renamed
  next => simp at renamed
  next content hidden =>
    cases renamed
    constructor
    · intro other present visible found
      rw [Dict.get?_set, Dict.get?_erase]
      split
      next same => simp [← same, found] at free
      next =>
        rw [if_neg]
        · exact found
        · rintro rfl
          exact visible (hidden_hidden place.2)
    · exact ⟨content, hidden, Dict.get?_set_self _ _ _⟩

theorem verifyLocal_ok
    {content : β} {chunk : ChunkRefV1}
    (verified : verifyLocal codec content chunk = .ok ()) :
    codec.sha256 content = chunk.sha256 := by
  unfold verifyLocal at verified
  split at verified
  next => simp at verified
  next =>
    split at verified
    next => simp at verified
    next equal => simpa using equal

/-- What one step of the puller does. -/
structure Pulled (codec : FileCodec β) (before after : CentralDisk β) :
    Prop where
  kept : RawKept before.raw after.raw
  staged : ∀ chunkId ack, after.staged.get? chunkId = some ack →
    before.staged.get? chunkId = some ack ∨
      Durable codec after.raw ack.sha256

theorem Pulled.refl (codec : FileCodec β) (disk : CentralDisk β) :
    Pulled codec disk disk :=
  ⟨rawKept_refl _, fun _ _ found => Or.inl found⟩

variable [DecidableEq β]

theorem ingestStep_sound
    {before after : CentralDisk β} {path : DataPath} {nowNs : Nat}
    {stage : IngestStage β} {next : Option (IngestStage β)}
    (sound : IngestSound codec before.raw stage)
    (visible : stage = .readManifest → ∀ bytes ∈ before.mirror.get? path,
      ∀ manifest ∈ codec.parseManifest bytes, ¬ Hidden manifest.dataPath)
    (completed :
      ingestStep codec before path nowNs stage = .ok (after, next)) :
    Pulled codec before after ∧
      ∀ later ∈ next, IngestSound codec after.raw later := by
  cases ingestStep_effect completed with
  | readManifest found parsed _ =>
      refine ⟨Pulled.refl .., ?_⟩
      rintro later ⟨⟩
      exact visible rfl _ found _ parsed
  | destinationFree free =>
      refine ⟨Pulled.refl .., ?_⟩
      rintro later ⟨⟩
      exact ⟨sound, free⟩
  | destinationVerified found verified =>
      refine ⟨Pulled.refl .., ?_⟩
      rintro later ⟨⟩
      exact ⟨_, _, found, verifyLocal_ok verified, sound⟩
  | openPartial =>
      refine ⟨⟨rawKept_hidden _ _ _, fun _ _ found => Or.inl found⟩, ?_⟩
      rintro later ⟨⟩
      refine ⟨sound.1, ?_⟩
      rw [Dict.get?_set, if_neg (hiddenBeside_ne _).symm]
      exact sound.2
  | download =>
      refine ⟨⟨rawKept_hidden _ _ _, fun _ _ found => Or.inl found⟩, ?_⟩
      rintro later ⟨⟩
      refine ⟨sound.1, ?_⟩
      rw [Dict.get?_set, if_neg (hiddenBeside_ne _).symm]
      exact sound.2
  | verifyPartial hidden verified =>
      refine ⟨Pulled.refl .., ?_⟩
      rintro later ⟨⟩
      exact ⟨sound.1, sound.2, _, hidden, verifyLocal_ok verified⟩
  | replacePartial renamed =>
      rcases sound with ⟨isVisible, free, content, hidden, hash⟩
      rcases renameHidden_ok renamed free with ⟨kept, moved, isMoved, placed⟩
      refine ⟨⟨kept, fun _ _ found => Or.inl found⟩, ?_⟩
      rintro later ⟨⟩
      rw [hidden] at isMoved
      cases isMoved
      exact ⟨_, content, placed, hash, isVisible⟩
  | manifestFree free =>
      refine ⟨Pulled.refl .., ?_⟩
      rintro later ⟨⟩
      exact ⟨sound, free⟩
  | manifestSame =>
      refine ⟨Pulled.refl .., ?_⟩
      rintro later ⟨⟩
      exact sound
  | @writeManifest manifest bytes =>
      have kept := rawKept_hidden before.raw
        (manifestBeside (destination manifest)) bytes
      refine ⟨⟨kept, fun _ _ found => Or.inl found⟩, ?_⟩
      rintro later ⟨⟩
      refine ⟨sound.1.mono kept, ?_⟩
      rw [Dict.get?_set, if_neg (hiddenBeside_ne _).symm]
      exact sound.2
  | replaceManifest renamed =>
      have kept := (renameHidden_ok renamed sound.2).1
      refine ⟨⟨kept, fun _ _ found => Or.inl found⟩, ?_⟩
      rintro later ⟨⟩
      exact sound.1.mono kept
  | writeAck =>
      refine ⟨⟨rawKept_refl _, ?_⟩, by rintro later ⟨⟩⟩
      intro chunkId ack found
      rw [Dict.get?_set] at found
      split at found
      next =>
        cases found
        exact Or.inr sound
      next => exact Or.inl found

theorem publishDayStep_sound
    {before after : CentralDisk β} {path : DataPath}
    {stage : DayStage β} {next : Option (DayStage β)}
    (sound : DaySound before.raw stage)
    (completed : publishDayStep codec before path stage = .ok (after, next)) :
    Pulled codec before after ∧ ∀ later ∈ next, DaySound after.raw later := by
  cases publishDayStep_effect completed with
  | unchanged => exact ⟨Pulled.refl .., by rintro later ⟨⟩⟩
  | readDay _ _ _ free =>
      refine ⟨Pulled.refl .., ?_⟩
      rintro later ⟨⟩
      exact free
  | @writeDay place bytes =>
      refine ⟨⟨rawKept_hidden _ _ _, fun _ _ found => Or.inl found⟩, ?_⟩
      rintro later ⟨⟩
      show (before.raw.set _ _).get? place = none
      rw [Dict.get?_set, if_neg (hiddenBeside_ne _).symm]
      exact sound
  | replaceDay renamed =>
      exact ⟨⟨(renameHidden_ok renamed sound).1,
        fun _ _ found => Or.inl found⟩, by rintro later ⟨⟩⟩

end Invariant

/-! ## The edge -/

section Edge

variable {β : Type} {codec : FileCodec β} {raw after : RawFiles β}
variable {used : List (DataPath × String)}
variable {published : List ChunkManifestV1}

theorem Safe.mono
    {data : Dict DataPath β} {manifest : ChunkManifestV1}
    (safe : Safe codec data raw manifest) (kept : RawKept raw after) :
    Safe codec data after manifest :=
  safe.imp_right fun durable => durable.mono kept

theorem EdgeSound.mono
    {edge : SpoolDisk β} (sound : EdgeSound codec used raw edge published)
    (kept : RawKept raw after) :
    EdgeSound codec used after edge published where
  data := sound.data
  manifests := sound.manifests
  isUsed := sound.isUsed
  safe := fun manifest member => (sound.safe manifest member).mono kept
  acks := fun chunkId ack found => (sound.acks chunkId ack found).mono kept
  applying := fun chunkId transaction found =>
    ⟨(sound.applying chunkId transaction found).published,
      (sound.applying chunkId transaction found).durable.mono kept⟩

theorem ApplySound.mono
    {stage : ApplyStage} {more : List ChunkManifestV1}
    (sound : ApplySound codec raw published stage)
    (kept : RawKept raw after) (subset : published ⊆ more) :
    ApplySound codec after more stage := by
  cases stage with
  | readManifests | apply _ _ | unlinkTransactions _ => trivial
  | accept manifests acks transactions
  | unlinkAck manifests chunkId acks transactions =>
      exact fun chunkId manifest found =>
        subset (sound chunkId manifest found)
  | moveManifest transaction transactions completed
  | removeData transaction transactions completed =>
      exact ⟨subset sound.published, sound.durable.mono kept⟩

theorem EdgeTaskSound.mono
    {task : EdgeTask β} {wider : List (DataPath × String)}
    {more : List ChunkManifestV1}
    (sound : EdgeTaskSound codec used raw published task)
    (kept : RawKept raw after) (isUsed : used ⊆ wider)
    (subset : published ⊆ more) :
    EdgeTaskSound codec wider after more task := by
  cases task with
  | publish content draft stage => exact isUsed sound
  | applyAcks stage => exact ApplySound.mono sound kept subset

theorem EdgeSound.publishStep
    {edge : SpoolDisk β} {content : β} {draft : ChunkManifestV1}
    {stage : PublishStage}
    (sound : EdgeSound codec used raw edge published)
    (functional : Functional used)
    (isUsed : (draft.dataPath, codec.sha256 content) ∈ used) :
    EdgeSound codec used raw (publishStep codec edge content draft stage).1
      (published ++ publishes codec edge (.publish content draft stage)) := by
  cases stage with
  | writeData =>
      have none_ : publishes codec edge (.publish content draft .writeData) =
          [] := rfl
      rw [none_, List.append_nil]
      exact {
        data := by
          intro path found isFound
          rw [Edge.publishStep, Dict.get?_set] at isFound
          split at isFound
          next same =>
            cases isFound
            rw [same]
            exact isUsed
          next => exact sound.data path found isFound
        manifests := sound.manifests
        isUsed := sound.isUsed
        safe := by
          intro manifest member
          by_cases same : manifest.dataPath = draft.dataPath
          · refine Or.inl ⟨content, ?_, ?_⟩
            · rw [Edge.publishStep, Dict.get?_set, if_pos same]
            · exact functional _ isUsed _ (sound.isUsed manifest member)
                same.symm
          · rcases sound.safe manifest member with ⟨kept, found, hash⟩ | far
            · refine Or.inl ⟨kept, ?_, hash⟩
              rw [Edge.publishStep, Dict.get?_set, if_neg same]
              exact found
            · exact Or.inr far
        acks := sound.acks
        applying := sound.applying }
  | writeManifest =>
      simp only [Edge.publishStep, publishes]
      cases present : edge.data.get? draft.dataPath with
      | none => simpa using sound
      | some found =>
          have isWritten := sound.data _ _ present
          have old : published ⊆
              published ++ [manifestFor codec draft found] :=
            List.subset_append_left _ _
          show EdgeSound codec used raw _
            (published ++ [manifestFor codec draft found])
          exact {
            data := sound.data
            manifests := by
              intro path manifest isManifest
              rw [Dict.get?_set] at isManifest
              split at isManifest
              next =>
                cases isManifest
                simp
              next => exact old (sound.manifests path manifest isManifest)
            isUsed := by
              intro manifest member
              rcases List.mem_append.mp member with before | new
              · exact sound.isUsed manifest before
              · rw [List.mem_singleton.mp new]
                exact isWritten
            safe := by
              intro manifest member
              rcases List.mem_append.mp member with before | new
              · exact sound.safe manifest before
              · rw [List.mem_singleton.mp new]
                exact Or.inl ⟨found, present, rfl⟩
            acks := sound.acks
            applying := fun chunkId transaction isFound =>
              ⟨old (sound.applying chunkId transaction isFound).published,
                (sound.applying chunkId transaction isFound).durable⟩ }

theorem addReady_get?
    {start : ReadyManifests} {entry : DataPath × ChunkManifestV1}
    {chunkId : String} {manifest : ChunkManifestV1}
    (found : (addReady start entry).byId.get? chunkId = some manifest) :
    start.byId.get? chunkId = some manifest ∨ entry.2 = manifest := by
  unfold addReady at found
  split at found
  · exact Or.inl found
  · split at found
    · exact Or.inl found
    · split at found
      · rw [Dict.get?_set] at found
        split at found
        · exact Or.inr (Option.some.inj found)
        · exact Or.inl found
      · split at found
        · exact Or.inl found
        · rw [Dict.get?_erase] at found
          split at found
          · cases found
          · exact Or.inl found

theorem foldl_addReady_get?
    (entries : List (DataPath × ChunkManifestV1)) (start : ReadyManifests)
    {chunkId : String} {manifest : ChunkManifestV1}
    (found :
      (entries.foldl addReady start).byId.get? chunkId = some manifest) :
    start.byId.get? chunkId = some manifest ∨
      ∃ path, (path, manifest) ∈ entries := by
  induction entries generalizing start with
  | nil => exact Or.inl found
  | cons entry rest induction =>
      rcases induction (addReady start entry) found with before | later
      · rcases addReady_get? before with old | rfl
        · exact Or.inl old
        · exact Or.inr ⟨entry.1, List.mem_cons_self⟩
      · rcases later with ⟨path, member⟩
        exact Or.inr ⟨path, List.mem_cons_of_mem entry member⟩

theorem EdgeSound.readyById
    {edge : SpoolDisk β} (sound : EdgeSound codec used raw edge published)
    (chunkId : String) (manifest : ChunkManifestV1)
    (found : (readyById edge.manifests.entries).get? chunkId =
      some manifest) :
    manifest ∈ published := by
  rcases foldl_addReady_get? _ _ found with absent | ⟨path, member⟩
  · cases absent
  · exact sound.manifests path manifest
      ((Dict.mem_entries_iff _).mp member)

theorem EdgeSound.quarantineAck
    {edge : SpoolDisk β} (sound : EdgeSound codec used raw edge published)
    (chunkId : String) (ack : AckV1) :
    EdgeSound codec used raw (quarantineAck edge chunkId ack) published :=
  { sound with
    acks := by
      intro other found isFound
      rw [Edge.quarantineAck, Dict.get?_erase] at isFound
      split at isFound
      next => cases isFound
      next => exact sound.acks other found isFound }

theorem EdgeSound.acceptStep
    {edge : SpoolDisk β}
    (sound : EdgeSound codec used raw edge published) (nowNs : Nat)
    {manifests : Dict String ChunkManifestV1} (chunkId : String)
    (acks transactions : List String)
    (known : ∀ chunkId manifest, manifests.get? chunkId = some manifest →
      manifest ∈ published) :
    EdgeSound codec used raw
        (acceptStep edge nowNs manifests chunkId acks transactions).1
        published ∧
      ApplySound codec raw published
        (acceptStep edge nowNs manifests chunkId acks transactions).2 := by
  unfold Edge.acceptStep
  split
  next => exact ⟨sound, known⟩
  next ack isAck =>
    split
    next => exact ⟨sound.quarantineAck chunkId ack, known⟩
    next =>
      split
      next => exact ⟨sound.quarantineAck chunkId ack, known⟩
      next manifest isManifest =>
        split
        next => exact ⟨sound.quarantineAck chunkId ack, known⟩
        next equal =>
          have hash : ack.sha256 = manifest.sha256 := not_not.mp equal
          split
          next =>
            refine ⟨{ sound with applying := ?_ }, known⟩
            intro other transaction found
            rw [Dict.get?_set] at found
            split at found
            next =>
              cases found
              exact ⟨known _ manifest isManifest,
                hash ▸ sound.acks chunkId ack isAck⟩
            next => exact sound.applying other transaction found
          next =>
            split
            next => exact ⟨sound, known⟩
            next => exact ⟨sound.quarantineAck chunkId ack, known⟩

theorem EdgeSound.moveManifest
    {edge : SpoolDisk β} (sound : EdgeSound codec used raw edge published)
    (manifest : ChunkManifestV1) :
    EdgeSound codec used raw (moveManifest edge manifest) published := by
  have erased : ∀ path found,
      (edge.manifests.erase manifest.dataPath.manifest).get? path =
        some found → found ∈ published := by
    intro path found isFound
    rw [Dict.get?_erase] at isFound
    split at isFound
    next => cases isFound
    next => exact sound.manifests path found isFound
  unfold Edge.moveManifest
  split
  next => exact sound
  next =>
    split
    next => exact { sound with manifests := erased }
    next => exact { sound with manifests := erased }

/-- The data of a durable chunk may go. -/
theorem EdgeSound.removeData
    {edge : SpoolDisk β} (sound : EdgeSound codec used raw edge published)
    (functional : Functional used) {transaction : AckTransaction}
    (isSound : TransactionSound codec raw published transaction) :
    EdgeSound codec used raw
      { edge with data := edge.data.erase transaction.manifest.dataPath }
      published :=
  { sound with
    data := by
      intro path content found
      rw [Dict.get?_erase] at found
      split at found
      next => cases found
      next => exact sound.data path content found
    safe := by
      intro manifest member
      by_cases same : manifest.dataPath = transaction.manifest.dataPath
      · have hash : manifest.sha256 = transaction.manifest.sha256 :=
          functional _ (sound.isUsed manifest member) _
            (sound.isUsed _ isSound.published) same
        exact Or.inr (hash ▸ isSound.durable)
      · rcases sound.safe manifest member with ⟨kept, found, hash⟩ | far
        · refine Or.inl ⟨kept, ?_, hash⟩
          rw [Dict.get?_erase, if_neg same]
          exact found
        · exact Or.inr far }

theorem EdgeSound.eraseApplying
    {edge : SpoolDisk β} (sound : EdgeSound codec used raw edge published)
    (chunkId : String) :
    EdgeSound codec used raw
      { edge with applying := edge.applying.erase chunkId } published :=
  { sound with
    applying := by
      intro other transaction found
      rw [Dict.get?_erase] at found
      split at found
      next => cases found
      next => exact sound.applying other transaction found }

theorem EdgeSound.applyStep
    {edge : SpoolDisk β} {stage : ApplyStage}
    (sound : EdgeSound codec used raw edge published) (nowNs : Nat)
    (functional : Functional used)
    (isSound : ApplySound codec raw published stage) :
    EdgeSound codec used raw (applyStep edge nowNs stage).1 published ∧
      ∀ later ∈ (applyStep edge nowNs stage).2,
        ApplySound codec raw published later := by
  cases stage with
  | readManifests =>
      refine ⟨sound, ?_⟩
      rintro later ⟨⟩
      exact sound.readyById
  | accept manifests acks transactions =>
      cases acks with
      | nil =>
          refine ⟨sound, ?_⟩
          rintro later ⟨⟩
          trivial
      | cons chunkId acks =>
          have accepted :=
            sound.acceptStep nowNs chunkId acks transactions isSound
          refine ⟨accepted.1, ?_⟩
          rintro later ⟨⟩
          exact accepted.2
  | unlinkAck manifests chunkId acks transactions =>
      constructor
      · exact { sound with
          acks := by
            intro other found isFound
            rw [Edge.applyStep, Dict.get?_erase] at isFound
            split at isFound
            next => cases isFound
            next => exact sound.acks other found isFound }
      · rintro later ⟨⟩
        intro other manifest found
        rw [Dict.get?_erase] at found
        split at found
        next => cases found
        next => exact isSound other manifest found
  | apply transactions completed =>
      cases transactions with
      | nil =>
          refine ⟨sound, ?_⟩
          rintro later ⟨⟩
          trivial
      | cons chunkId transactions =>
          simp only [Edge.applyStep]
          split
          next =>
            refine ⟨sound, ?_⟩
            rintro later ⟨⟩
            trivial
          next transaction found =>
            split
            next =>
              refine ⟨sound.eraseApplying chunkId, ?_⟩
              rintro later ⟨⟩
              trivial
            next =>
              refine ⟨sound, ?_⟩
              rintro later ⟨⟩
              exact sound.applying chunkId transaction found
  | moveManifest transaction transactions completed =>
      refine ⟨sound.moveManifest _, ?_⟩
      rintro later ⟨⟩
      exact isSound
  | removeData transaction transactions completed =>
      refine ⟨sound.removeData functional isSound, ?_⟩
      rintro later ⟨⟩
      trivial
  | unlinkTransactions completed =>
      cases completed with
      | nil => exact ⟨sound, by rintro later ⟨⟩⟩
      | cons chunkId completed =>
          refine ⟨sound.eraseApplying chunkId, ?_⟩
          rintro later ⟨⟩
          trivial

end Edge

/-! ## Every step keeps the invariant -/

section Steps

variable {β : Type} {codec : FileCodec β}
variable {before after : TransferState β}

theorem TransferSound.edgeWork
    {task : EdgeTask β} {others : List (EdgeTask β)}
    (sound : TransferSound codec before)
    (turn : before.edgeTasks.Perm (task :: others)) :
    TransferSound codec (edgeWork codec before task others) := by
  have taskSound := sound.tasks task (turn.mem_iff.mpr List.mem_cons_self)
  have old : before.published ⊆
      before.published ++ publishes codec before.edge task :=
    List.subset_append_left _ _
  have worked : EdgeSound codec before.used before.central.raw
      (edgeTaskStep codec before.edge before.nowNs task).1
      (before.published ++ publishes codec before.edge task) ∧
    ∀ later ∈ (edgeTaskStep codec before.edge before.nowNs task).2,
      EdgeTaskSound codec before.used before.central.raw
        (before.published ++ publishes codec before.edge task) later := by
    cases task with
    | publish content draft stage =>
        refine ⟨sound.edge.publishStep sound.functional taskSound, ?_⟩
        intro later isNext
        rcases Option.map_eq_some_iff.mp isNext with ⟨next, _, rfl⟩
        exact taskSound
    | applyAcks stage =>
        have none_ : publishes codec before.edge (.applyAcks stage) = [] :=
          rfl
        rw [none_, List.append_nil]
        have applied :=
          sound.edge.applyStep before.nowNs sound.functional taskSound
        refine ⟨applied.1, ?_⟩
        intro later isNext
        rcases Option.map_eq_some_iff.mp isNext with ⟨next, isStage, rfl⟩
        exact applied.2 next isStage
  exact {
    edge := worked.1
    functional := sound.functional
    tasks := by
      intro running isRunning
      rcases List.mem_append.mp isRunning with other | isNext
      · exact (sound.tasks running
          (turn.mem_iff.mpr (List.mem_cons_of_mem task other))).mono
            (rawKept_refl _) (List.Subset.refl _) old
      · exact worked.2 running (Option.mem_toList.mp isNext)
    pull := sound.pull
    staged := sound.staged
    network := sound.network }

/-- The centre has moved on without losing a file under a final name. -/
theorem TransferSound.pulled
    {central : CentralDisk β} {pull : Option (PullTask β)}
    (sound : TransferSound codec before)
    (pulled : Pulled codec before.central central)
    (next : ∀ task ∈ pull, PullSound codec central.raw task) :
    TransferSound codec
      { before with
        central := central
        pull := pull } where
  edge := sound.edge.mono pulled.kept
  functional := sound.functional
  tasks := fun task member =>
    (sound.tasks task member).mono pulled.kept (List.Subset.refl _)
      (List.Subset.refl _)
  pull := next
  staged := by
    intro chunkId ack found
    rcases pulled.staged chunkId ack found with old | new
    · exact (sound.staged chunkId ack old).mono pulled.kept
    · exact new
  network := fun ack member => (sound.network ack member).mono pulled.kept

theorem TransferSound.pullWork
    [DecidableEq β] {task : PullTask β} (sound : TransferSound codec before)
    (running : before.pull = some task)
    (visible : NamesVisible codec before .pullWork) :
    TransferSound codec (pullWork codec before task) := by
  have taskSound := sound.pull task running
  have dropped : TransferSound codec { before with pull := none } :=
    sound.pulled (Pulled.refl ..) (by rintro task ⟨⟩)
  unfold Transfer.pullWork
  cases completed : pullStep codec before.central before.nowNs task with
  | error problem => exact dropped
  | ok result =>
      rcases result with ⟨central, next⟩
      have stepped : Pulled codec before.central central ∧
          ∀ later ∈ next, PullSound codec central.raw later := by
        cases task with
        | ingest path stage =>
            simp only [pullStep] at completed
            split at completed
            next => simp at completed
            next ingested =>
              cases completed
              have named : stage = .readManifest →
                  ∀ bytes ∈ before.central.mirror.get? path,
                    ∀ manifest ∈ codec.parseManifest bytes,
                      ¬ Hidden manifest.dataPath := by
                rintro rfl
                rw [NamesVisible, running] at visible
                exact visible path rfl
              have isSound := ingestStep_sound taskSound named ingested
              refine ⟨isSound.1, ?_⟩
              intro later isNext
              rcases Option.map_eq_some_iff.mp isNext with
                ⟨stage, isStage, rfl⟩
              exact isSound.2 stage isStage
        | publishDay path stage =>
            simp only [pullStep] at completed
            split at completed
            next => simp at completed
            next published =>
              cases completed
              have isSound := publishDayStep_sound taskSound published
              refine ⟨isSound.1, ?_⟩
              intro later isNext
              rcases Option.map_eq_some_iff.mp isNext with
                ⟨stage, isStage, rfl⟩
              exact isSound.2 stage isStage
      exact sound.pulled stepped.1 stepped.2

theorem downloading_eq_some
    {pull : Option (PullTask β)} {place : String × DataPath}
    (isPlace : downloading pull = some place) :
    ∃ path manifest bytes,
      pull = some (.ingest path (.download manifest bytes)) ∧
        place = hiddenBeside (destination manifest) := by
  unfold downloading at isPlace
  split at isPlace
  · cases isPlace
    exact ⟨_, _, _, rfl, rfl⟩
  · cases isPlace

theorem TransferSound.step
    [DecidableEq β] {label : TransferLabel β} (sound : TransferSound codec before)
    (visible : NamesVisible codec before label)
    (stepped : transferStep codec before label = some after) :
    TransferSound codec after := by
  cases label with
  | tick nowNs =>
      simp only [transferStep, Option.ite_none_right_eq_some] at stepped
      rcases stepped with ⟨_, ⟨⟩⟩
      exact ⟨sound.edge, sound.functional, sound.tasks, sound.pull,
        sound.staged, sound.network⟩
  | publish content draft =>
      simp only [transferStep, Option.ite_none_right_eq_some] at stepped
      rcases stepped with ⟨unused, ⟨⟩⟩
      have old : before.used ⊆
          before.used ++ [(draft.dataPath, codec.sha256 content)] :=
        List.subset_append_left _ _
      exact {
        edge := {
          data := fun path found isFound =>
            old (sound.edge.data path found isFound)
          manifests := sound.edge.manifests
          isUsed := fun manifest member =>
            old (sound.edge.isUsed manifest member)
          safe := sound.edge.safe
          acks := sound.edge.acks
          applying := sound.edge.applying }
        functional := by
          intro left isLeft right isRight same
          rw [List.mem_append, List.mem_singleton] at isLeft isRight
          rcases isLeft with isLeft | rfl
          · rcases isRight with isRight | rfl
            · exact sound.functional left isLeft right isRight same
            · exact unused left isLeft same
          · rcases isRight with isRight | rfl
            · exact (unused right isRight same.symm).symm
            · rfl
        tasks := by
          intro task member
          rcases List.mem_append.mp member with running | new
          · exact (sound.tasks task running).mono (rawKept_refl _) old
              (List.Subset.refl _)
          · rw [List.mem_singleton.mp new]
            exact List.mem_append_right _ (List.mem_singleton_self _)
        pull := sound.pull
        staged := sound.staged
        network := sound.network }
  | applyAcks =>
      simp only [transferStep, Option.ite_none_right_eq_some] at stepped
      rcases stepped with ⟨_, ⟨⟩⟩
      refine ⟨sound.edge, sound.functional, ?_, sound.pull, sound.staged,
        sound.network⟩
      intro task member
      rcases List.mem_append.mp member with running | new
      · exact sound.tasks task running
      · rw [List.mem_singleton.mp new]
        trivial
  | sealDay utcDate =>
      cases stepped
      exact {
        edge := { sound.edge with }
        functional := sound.functional
        tasks := sound.tasks
        pull := sound.pull
        staged := sound.staged
        network := sound.network }
  | edgeWork position =>
      simp only [transferStep, Option.map_eq_some_iff] at stepped
      rcases stepped with ⟨task, found, rfl⟩
      exact sound.edgeWork (perm_eraseIdx found)
  | edgeCrash =>
      cases stepped
      exact ⟨sound.edge, sound.functional, by rintro task ⟨⟩, sound.pull,
        sound.staged, sound.network⟩
  | mirror files =>
      cases stepped
      exact ⟨sound.edge, sound.functional, sound.tasks, sound.pull,
        sound.staged, sound.network⟩
  | ingest path =>
      simp only [transferStep, Option.ite_none_right_eq_some] at stepped
      rcases stepped with ⟨_, ⟨⟩⟩
      apply sound.pulled (Pulled.refl ..)
      rintro task ⟨⟩
      trivial
  | publishDay path =>
      simp only [transferStep, Option.ite_none_right_eq_some] at stepped
      rcases stepped with ⟨_, ⟨⟩⟩
      apply sound.pulled (Pulled.refl ..)
      rintro task ⟨⟩
      trivial
  | tear bytes =>
      simp only [transferStep, Option.map_eq_some_iff] at stepped
      rcases stepped with ⟨place, isPlace, rfl⟩
      rcases downloading_eq_some isPlace with
        ⟨path, manifest, content, running, rfl⟩
      have torn : Pulled codec before.central
          { before.central with
            raw := before.central.raw.set
              (hiddenBeside (destination manifest)) bytes } :=
        ⟨rawKept_hidden _ _ _, fun _ _ found => Or.inl found⟩
      apply sound.pulled torn
      intro task isTask
      have before := sound.pull task isTask
      rw [running] at isTask
      cases isTask
      refine ⟨before.1, ?_⟩
      rw [Dict.get?_set, if_neg (hiddenBeside_ne _).symm]
      exact before.2
  | pullWork =>
      simp only [transferStep, Option.map_eq_some_iff] at stepped
      rcases stepped with ⟨task, running, rfl⟩
      exact sound.pullWork running visible
  | centralCrash =>
      cases stepped
      exact sound.pulled (Pulled.refl ..) (by rintro task ⟨⟩)
  | pushAcks =>
      cases stepped
      refine ⟨sound.edge, sound.functional, sound.tasks, sound.pull,
        sound.staged, ?_⟩
      intro ack member
      rcases List.mem_append.mp member with old | new
      · exact sound.network ack old
      · rcases (Dict.mem_values_iff _).mp new with ⟨chunkId, found⟩
        exact sound.staged chunkId ack found
  | unstage chunkId =>
      simp only [transferStep] at stepped
      split at stepped
      next => cases stepped
      next =>
        split at stepped
        next =>
          cases stepped
          refine ⟨sound.edge, sound.functional, sound.tasks, sound.pull, ?_,
            sound.network⟩
          intro other ack found
          rw [Dict.get?_erase] at found
          split at found
          next => cases found
          next => exact sound.staged other ack found
        next => cases stepped
  | deliver ack =>
      simp only [transferStep, Option.ite_none_right_eq_some] at stepped
      rcases stepped with ⟨sent, ⟨⟩⟩
      refine ⟨{ sound.edge with acks := ?_ }, sound.functional, sound.tasks,
        sound.pull, sound.staged, sound.network⟩
      intro chunkId other found
      rw [Dict.get?_set] at found
      split at found
      next =>
        cases found
        exact sound.network ack sent
      next => exact sound.edge.acks chunkId other found

theorem transferSound_start : TransferSound codec ({} : TransferState β) where
  edge := {
    data := by
      rintro path content ⟨⟩
    manifests := by
      rintro path manifest ⟨⟩
    isUsed := by
      rintro manifest ⟨⟩
    safe := by
      rintro manifest ⟨⟩
    acks := by
      rintro chunkId ack ⟨⟩
    applying := by
      rintro chunkId transaction ⟨⟩ }
  functional := by
    rintro left ⟨⟩
  tasks := by
    rintro task ⟨⟩
  pull := by
    rintro task ⟨⟩
  staged := by
    rintro chunkId ack ⟨⟩
  network := by
    rintro ack ⟨⟩

end Steps

/-! ## The result -/

/-- The chunk is ready on the edge or stands at the centre, by its hash. -/
def Present {β : Type} (codec : FileCodec β) (state : TransferState β)
    (manifest : ChunkManifestV1) : Prop :=
  (∃ content, state.edge.data.get? manifest.dataPath = some content ∧
    codec.sha256 content = manifest.sha256) ∨
      ∃ place content, state.central.raw.get? place = some content ∧
        codec.sha256 content = manifest.sha256

/--
As long as no manifest of a mirror names a hidden file as its data, every
chunk whose manifest was ever published is ready or stands at the centre.
-/
theorem published_chunk_is_kept
    {β : Type} [DecidableEq β] (codec : FileCodec β)
    {labels : List (TransferLabel β)} {final : TransferState β}
    (visible : StepsMeet (transferStep codec) (NamesVisible codec) {} labels)
    (reached : runFrom (transferStep codec) {} labels = some final) :
    ∀ manifest ∈ final.published, Present codec final manifest := by
  have sound : TransferSound codec final :=
    invariant_of_run
      (fun _ _ _ before condition stepped => before.step condition stepped)
      transferSound_start visible reached
  intro manifest member
  apply (sound.edge.safe manifest member).imp_right
  rintro ⟨place, content, found, hash, _⟩
  exact ⟨place, content, found, hash⟩

/-! ## Runs -/

/-- Files of a small transfer. -/
inductive SampleFile where
  | text (content : String)
  | manifest (content : ChunkManifestV1)
  | day (content : DayManifestV1)
deriving DecidableEq

def sampleCodec : FileCodec SampleFile where
  sha256
    | .text content => content
    | .manifest content => "manifest of " ++ content.chunkId
    | .day content => "day of " ++ content.collectorId
  size
    | .text content => content.length
    | .manifest _ | .day _ => 1
  empty := .text ""
  manifestBytes := .manifest
  parseManifest
    | .manifest content => some content
    | .text _ | .day _ => none
  parseDay
    | .day content => some content
    | .text _ | .manifest _ => none
  parseManifest_manifestBytes := fun _ => rfl

theorem sampleManifest_timeRange : midnightNs 3 ≤ midnightNs 3 := le_refl _

/-- The manifest of a chunk of day 3 whose data is the given text. -/
def sampleManifest (chunkId text : String) (dataPath : DataPath) :
    ChunkManifestV1 where
  chunkId := chunkId
  dataPath := dataPath
  sha256 := text
  sizeBytes := text.length
  contentType := .parquet
  collectorId := "collector"
  writerGroup := .depth
  utcDate := 3
  eventCount := 1
  minAppReceiveRealtimeNs := midnightNs 3
  maxAppReceiveRealtimeNs := midnightNs 3
  dataContractHash := ""
  universeHash := ""
  createdAt := 0
  timeRange := sampleManifest_timeRange

def firstPath : DataPath := relativePath 3 .depth "chunk-first.parquet"

def secondPath : DataPath := relativePath 3 .depth "chunk-second.parquet"

def publishFirst : List (TransferLabel SampleFile) :=
  [.publish (.text "abc") (sampleManifest "chunk-first" "" firstPath),
    .edgeWork 0, .edgeWork 0]

/-- A mirror which holds one manifest, at its usual place, and some data. -/
def mirrorOf (manifest : ChunkManifestV1) (data : SampleFile) :
    TransferLabel SampleFile :=
  .mirror ((Dict.empty.set firstPath.manifest (.manifest manifest)).set
    manifest.dataPath data)

/-- The chunk is taken over, acknowledged and removed from the edge. -/
def takeOver : List (TransferLabel SampleFile) :=
  [.ingest firstPath.manifest] ++ List.replicate 10 .pullWork ++
    [.pushAcks, .unstage "chunk-first",
      .deliver { chunkId := "chunk-first", sha256 := "abc", durableAt := 0 },
      .applyAcks] ++ List.replicate 10 (.edgeWork 0)

def takenOverRun : List (TransferLabel SampleFile) :=
  publishFirst ++
    [mirrorOf (sampleManifest "chunk-first" "abc" firstPath) (.text "abc")] ++
    takeOver

theorem takenOverRun_runs :
    (runFrom (transferStep sampleCodec) {} takenOverRun).isSome := by
  decide +kernel

/-- Where the run leads. -/
def takenOverFinal : TransferState SampleFile :=
  (runFrom (transferStep sampleCodec) {} takenOverRun).get takenOverRun_runs

theorem published_chunk_is_kept_takenOver :
    takenOverFinal.edge.data.get? firstPath = none ∧
      ∃ manifest ∈ takenOverFinal.published, manifest.dataPath = firstPath ∧
        Present sampleCodec takenOverFinal manifest := by
  have visible : StepsMeet (transferStep sampleCodec)
      (NamesVisible sampleCodec) {} takenOverRun := by
    decide +kernel
  have published : ∃ manifest ∈ takenOverFinal.published,
      manifest.dataPath = firstPath := by
    decide +kernel
  have gone : takenOverFinal.edge.data.get? firstPath = none := by
    decide +kernel
  rcases published with ⟨manifest, member, isPath⟩
  exact ⟨gone, manifest, member, isPath,
    published_chunk_is_kept sampleCodec visible
      (Option.some_get takenOverRun_runs).symm manifest member⟩

/--
The first mirror names the hidden name of a second file as the data path of
the chunk; the second mirror makes the centre download that file.
-/
def hiddenRun : List (TransferLabel SampleFile) :=
  publishFirst ++
    [mirrorOf (sampleManifest "chunk-first" "abc" secondPath.hidden)
      (.text "abc")] ++
    takeOver ++
    [mirrorOf (sampleManifest "chunk-second" "xyz" secondPath) (.text "xyz"),
      .ingest firstPath.manifest, .pullWork, .pullWork, .pullWork]

/-- The chunk is neither on the edge nor at the centre. -/
theorem chunk_lost :
    ∃ final ∈ runFrom (transferStep sampleCodec) {} hiddenRun,
      ∃ manifest ∈ final.published,
        ¬ Present sampleCodec final manifest := by
  have lost : ∃ final ∈ runFrom (transferStep sampleCodec) {} hiddenRun,
      ∃ manifest ∈ final.published, manifest.sha256 = "abc" ∧
        final.edge.data.entries = [] ∧
        ∀ entry ∈ final.central.raw.entries,
          sampleCodec.sha256 entry.2 ≠ "abc" := by
    decide +kernel
  rcases lost with ⟨final, reached, manifest, member, hash, gone, others⟩
  refine ⟨final, reached, manifest, member, ?_⟩
  rintro (⟨content, found, _⟩ | ⟨place, content, found, isHash⟩)
  · have entry := (Dict.mem_entries_iff _).mpr found
    simp [gone] at entry
  · exact others _ ((Dict.mem_entries_iff _).mpr found) (isHash.trans hash)

end ShadowDataPlane.Transfer
