import ShadowDataPlane.Transfer.PullRun

/-!
# Sessions of the puller and their ledger

A session pulls the mirror, makes a run over it, records a `LOCAL_DURABLE`
event for every chunk whose data the run has written, sets aside the staged
acknowledgements which it cannot read, carries the others to the edge, records
`ACK_PUSHED` for each, and only then unlinks them.  Sessions follow one another,
and any of them may fail or crash anywhere.

No acknowledgement is lost on the way and no chunk is recorded as durable
twice.  An acknowledgement may however reach the edge without its chunk ever
being recorded as durable, namely if a call fails, or a session ends, between
the renaming of the data and the append to the ledger: the next session finds
the data in its place and does not count it as written
(`durable_record_missing`).  Without such a disturbance every acknowledgement
on the edge has its record (`pull_sessions_audited`).
-/

namespace ShadowDataPlane.Transfer

open ShadowDataPlane.Foundation
open ShadowDataPlane.Contracts
open ShadowDataPlane.Central

/-! ## Sessions -/

/-- What `status` reports of a session which came to its end. -/
structure PullStatus where
  remoteManifests : Nat
  newChunks : Nat
  existingChunksVerified : Nat
  verifiedBytes : Nat
  acksQueued : Nat
  acksPushed : Nat
  invalidStagedAcks : Nat
  dayManifestsSeen : Nat
  daysPublished : Nat
  failures : Nat
deriving DecidableEq, Repr

/-- The events of the puller; their fields are those of what is kept here. -/
inductive LedgerEvent where
  | localDurable (chunk : PulledChunk)
  | ackStagingInvalid (name : String)
  | ackPushed (ack : AckV1)
  | pullRunCompleted (status : PullStatus)
  | pullRunFailed (status : Option PullStatus)
deriving DecidableEq

/-- `AckPushResult`. -/
structure AckPushResult where
  queued : Nat
  pushed : Nat
  invalid : Nat
deriving DecidableEq, Repr

/-- Where `main` stands. -/
inductive SessionPhase where
  | idle
  | running
  /-- `push_acks` has these files to read, and has read or rejected others. -/
  | readAcks (names : List String) (valid : List AckV1)
      (rejected : List String)
  | pushAcks (valid : List AckV1) (result : AckPushResult)
  | journalPushed (acks : List AckV1) (result : AckPushResult)
  | unlinkAcks (acks : List AckV1) (result : AckPushResult)
  | conclude (result : AckPushResult)
deriving DecidableEq

/-- `ledger` holds the events whose `append` has returned, and `rejected` what
stands in `rejected-acks`. -/
structure SessionState (β : Type) where
  phase : SessionPhase := .idle
  run : RunState β
  ledger : List LedgerEvent := []
  rejected : List AckV1 := []
  carried : List AckV1 := []
deriving DecidableEq

/-- The statements of a session, and what may end it. -/
inductive SessionLabel (β : Type) where
  /-- `pull_ready`, which leaves anything in the mirror. -/
  | mirror (files : Dict DataPath β)
  | start (files : List DataPath)
  | call (label : RunLabel β)
  | journal
  /-- The next staged file is read, or there is an `OSError`. -/
  | readAck (readable : Bool)
  | journalRejected
  /-- `rsync` carries a file and then others, or fails. -/
  | carry (chunkId : String)
  | push
  | journalPushed
  | unlink
  | conclude
  /-- An exception of the session, which may be recorded or not. -/
  | fail (written : Option β) (recorded : Bool)
  | crash (written : Option β)
deriving DecidableEq

/-- Before the first session. -/
def noSession {β : Type} : SessionState β where
  run := { puller := {}, result := { manifestsSeen := 0, dayManifestsSeen := 0 } }

/-- The chunks of a run which are recorded as durable. -/
def durableEvents (result : PullResult) : List LedgerEvent :=
  (result.chunks.filter PulledChunk.wroteData).map .localDurable

/-- Whether the name of a staged file is the one of its chunk. -/
def namedByChunk (entry : String × AckV1) : Bool :=
  entry.1 = entry.2.chunkId

/-- `status`. -/
def pullStatus (result : PullResult) (pushed : AckPushResult) : PullStatus where
  remoteManifests := result.manifestsSeen
  newChunks := result.newChunks
  existingChunksVerified := result.existingChunks
  verifiedBytes := result.verifiedBytes
  acksQueued := pushed.queued
  acksPushed := pushed.pushed
  invalidStagedAcks := pushed.invalid
  dayManifestsSeen := result.dayManifestsSeen
  daysPublished := result.daysPublished
  failures := result.failures.length + pushed.invalid

section Source

variable {β : Type}

/-- The staging directory, in any phase. -/
def SessionState.staged (state : SessionState β) : Dict String AckV1 :=
  state.run.puller.central.staged

def SessionState.raw (state : SessionState β) : RawFiles β :=
  state.run.puller.central.raw

/-- The staging directory is left with these files. -/
def withStaged (state : SessionState β) (staged : Dict String AckV1) :
    RunState β :=
  { state.run with
    puller :=
      { state.run.puller with
        central := { state.run.puller.central with staged } } }

/-- A staged file is valid, or it is moved to `rejected-acks`. -/
def readAck (state : SessionState β) (readable : Bool) (name : String)
    (names : List String) (valid : List AckV1) (rejected : List String)
    (ack : AckV1) : SessionState β :=
  if readable ∧ namedByChunk (name, ack) then
    { state with phase := .readAcks names (valid ++ [ack]) rejected }
  else
    { state with
      phase := .readAcks names valid (rejected ++ [name])
      run := withStaged state (state.staged.erase name)
      rejected := state.rejected ++ [ack] }

/-- All files are read, and the rejected ones are recorded. -/
def journalRejected (state : SessionState β) (valid : List AckV1)
    (rejected : List String) : SessionState β :=
  let result : AckPushResult :=
    { queued := valid.length + rejected.length
      pushed := valid.length
      invalid := rejected.length }
  { state with
    phase :=
      if valid.isEmpty then .conclude result else .pushAcks valid result
    ledger := state.ledger ++ rejected.map .ackStagingInvalid }

/-- The last append of a session. -/
def conclude (state : SessionState β) (pushed : AckPushResult) :
    SessionState β :=
  let status := pullStatus state.run.result pushed
  { state with
    phase := .idle
    ledger := state.ledger ++
      [if status.failures = 0 then .pullRunCompleted status
        else .pullRunFailed (some status)] }

/-- The session is over, in the middle of a write or not. -/
def abandon (state : SessionState β) (written : Option β) :
    SessionState β :=
  { state with
    phase := .idle
    run :=
      { state.run with
        puller :=
          { state.run.puller with
            central := interrupted state.run.puller written
            task := none
            pending := [] } } }

variable [DecidableEq β] (codec : FileCodec β)

/-- One step of a pull session, of the edge or of the audit. -/
def sessionStep (state : SessionState β) :
    SessionLabel β → Option (SessionState β)
  | .mirror files =>
      if state.phase = .idle then
        some
          { state with
            run :=
              { state.run with
                puller :=
                  { state.run.puller with
                    central :=
                      { state.run.puller.central with mirror := files } } } }
      else none
  | .start files =>
      if state.phase = .idle then
        some
          { state with
            phase := .running
            run := startRun state.run.puller files }
      else none
  | .call label =>
      if state.phase = .running then
        (runStep codec state.run label).map fun run => { state with run }
      else none
  | .journal =>
      if state.phase = .running ∧ state.run.puller.task = none ∧
          state.run.puller.pending = [] then
        some
          { state with
            phase :=
              .readAcks (state.staged.entries.map Prod.fst) [] []
            ledger := state.ledger ++ durableEvents state.run.result }
      else none
  | .readAck readable =>
      match state.phase with
      | .readAcks (name :: names) valid rejected =>
          (state.staged.get? name).map
            (readAck state readable name names valid rejected)
      | _ => none
  | .journalRejected =>
      match state.phase with
      | .readAcks [] valid rejected =>
          some (journalRejected state valid rejected)
      | _ => none
  | .carry chunkId =>
      match state.phase with
      | .pushAcks _ _ =>
          (state.staged.get? chunkId).map fun ack =>
            { state with carried := state.carried ++ [ack] }
      | _ => none
  | .push =>
      match state.phase with
      | .pushAcks valid result =>
          some
            { state with
              phase := .journalPushed valid result
              carried := state.carried ++
                state.staged.entries.map Prod.snd }
      | _ => none
  | .journalPushed =>
      match state.phase with
      | .journalPushed acks result =>
          some
            { state with
              phase := .unlinkAcks acks result
              ledger := state.ledger ++ acks.map .ackPushed }
      | _ => none
  | .unlink =>
      match state.phase with
      | .unlinkAcks (ack :: rest) result =>
          some
            { state with
              phase := .unlinkAcks rest result
              run := withStaged state (state.staged.erase ack.chunkId) }
      | _ => none
  | .conclude =>
      match state.phase with
      | .unlinkAcks [] result | .conclude result =>
          some (conclude state result)
      | _ => none
  | .fail written recorded =>
      if state.phase = .idle then none
      else
        some
          { abandon state written with
            ledger := state.ledger ++
              if recorded then [.pullRunFailed none] else [] }
  | .crash written => some (abandon state written)

/-! ## What a step does -/

/-- The steps of the sessions, with what each finds. -/
inductive SessionEffect (before : SessionState β) :
    SessionLabel β → SessionState β → Prop where
  | mirror {files : Dict DataPath β} (idle : before.phase = .idle) :
      SessionEffect before (.mirror files)
        { before with
          run :=
            { before.run with
              puller :=
                { before.run.puller with
                  central :=
                    { before.run.puller.central with mirror := files } } } }
  | start {files : List DataPath} (idle : before.phase = .idle) :
      SessionEffect before (.start files)
        { before with
          phase := .running
          run := startRun before.run.puller files }
  | call {label : RunLabel β} {run : RunState β}
      (running : before.phase = .running)
      (called : runStep codec before.run label = some run) :
      SessionEffect before (.call label) { before with run }
  | journal (running : before.phase = .running)
      (ended : before.run.puller.task = none) :
      SessionEffect before .journal
        { before with
          phase := .readAcks (before.staged.entries.map Prod.fst) [] []
          ledger := before.ledger ++ durableEvents before.run.result }
  | readAck {readable : Bool} {name : String} {names rejected : List String}
      {valid : List AckV1} {ack : AckV1}
      (isRead : before.phase = .readAcks (name :: names) valid rejected)
      (staged : before.staged.get? name = some ack) :
      SessionEffect before (.readAck readable)
        (Transfer.readAck before readable name names valid rejected ack)
  | journalRejected {valid : List AckV1} {rejected : List String}
      (isRead : before.phase = .readAcks [] valid rejected) :
      SessionEffect before .journalRejected
        (Transfer.journalRejected before valid rejected)
  | carry {chunkId : String} {valid : List AckV1} {result : AckPushResult}
      {ack : AckV1} (isPush : before.phase = .pushAcks valid result)
      (staged : before.staged.get? chunkId = some ack) :
      SessionEffect before (.carry chunkId)
        { before with carried := before.carried ++ [ack] }
  | push {valid : List AckV1} {result : AckPushResult}
      (isPush : before.phase = .pushAcks valid result) :
      SessionEffect before .push
        { before with
          phase := .journalPushed valid result
          carried := before.carried ++ before.staged.entries.map Prod.snd }
  | journalPushed {acks : List AckV1} {result : AckPushResult}
      (isJournal : before.phase = .journalPushed acks result) :
      SessionEffect before .journalPushed
        { before with
          phase := .unlinkAcks acks result
          ledger := before.ledger ++ acks.map .ackPushed }
  | unlink {ack : AckV1} {rest : List AckV1} {result : AckPushResult}
      (isUnlink : before.phase = .unlinkAcks (ack :: rest) result) :
      SessionEffect before .unlink
        { before with
          phase := .unlinkAcks rest result
          run := withStaged before (before.staged.erase ack.chunkId) }
  | conclude {result : AckPushResult}
      (ended : before.phase = .unlinkAcks [] result ∨
        before.phase = .conclude result) :
      SessionEffect before .conclude (Transfer.conclude before result)
  | fail {written : Option β} {recorded : Bool} :
      SessionEffect before (.fail written recorded)
        { abandon before written with
          ledger := before.ledger ++
            if recorded then [.pullRunFailed none] else [] }
  | crash {written : Option β} :
      SessionEffect before (.crash written) (abandon before written)

theorem sessionStep_effect
    {before after : SessionState β} {label : SessionLabel β}
    (stepped : sessionStep codec before label = some after) :
    SessionEffect codec before label after := by
  cases label with
  | mirror files =>
      simp only [sessionStep, Option.ite_none_right_eq_some] at stepped
      rcases stepped with ⟨idle, ⟨⟩⟩
      exact .mirror idle
  | start files =>
      simp only [sessionStep, Option.ite_none_right_eq_some] at stepped
      rcases stepped with ⟨idle, ⟨⟩⟩
      exact .start idle
  | call label =>
      simp only [sessionStep, Option.ite_none_right_eq_some] at stepped
      rcases stepped with ⟨running, isSome⟩
      rcases Option.map_eq_some_iff.mp isSome with ⟨run, called, rfl⟩
      exact .call running called
  | journal =>
      simp only [sessionStep, Option.ite_none_right_eq_some] at stepped
      rcases stepped with ⟨⟨running, ended, _⟩, ⟨⟩⟩
      exact .journal running ended
  | readAck readable =>
      simp only [sessionStep] at stepped
      split at stepped
      next isRead =>
        rcases Option.map_eq_some_iff.mp stepped with ⟨ack, staged, rfl⟩
        exact .readAck isRead staged
      next => cases stepped
  | journalRejected =>
      simp only [sessionStep] at stepped
      split at stepped
      next isRead =>
        cases stepped
        exact .journalRejected isRead
      next => cases stepped
  | carry chunkId =>
      simp only [sessionStep] at stepped
      split at stepped
      next isPush =>
        rcases Option.map_eq_some_iff.mp stepped with ⟨ack, staged, rfl⟩
        exact .carry isPush staged
      next => cases stepped
  | push =>
      simp only [sessionStep] at stepped
      split at stepped
      next isPush =>
        cases stepped
        exact .push isPush
      next => cases stepped
  | journalPushed =>
      simp only [sessionStep] at stepped
      split at stepped
      next isJournal =>
        cases stepped
        exact .journalPushed isJournal
      next => cases stepped
  | unlink =>
      simp only [sessionStep] at stepped
      split at stepped
      next isUnlink =>
        cases stepped
        exact .unlink isUnlink
      next => cases stepped
  | conclude =>
      simp only [sessionStep] at stepped
      split at stepped
      next isUnlink =>
        cases stepped
        exact .conclude (Or.inl isUnlink)
      next isConclude =>
        cases stepped
        exact .conclude (Or.inr isConclude)
      next => cases stepped
  | fail written recorded =>
      simp only [sessionStep] at stepped
      split at stepped
      next => cases stepped
      next =>
        cases stepped
        exact .fail
  | crash written =>
      cases stepped
      exact .crash

end Source

/-! ## Chunks of the mirror -/

/-- A path of a chunk, which is no path of a manifest. -/
def ChunkPath (path : DataPath) : Prop :=
  Storable path ∧ namesChunk path = false

instance : DecidablePred ChunkPath :=
  fun _ => inferInstanceAs (Decidable (_ ∧ _))

/-- Every mirror of the sessions names chunks by such paths. -/
def SessionNames {β : Type} (codec : FileCodec β) : SessionLabel β → Prop
  | .mirror files => NamesOnly codec ChunkPath files
  | _ => True

instance {β : Type} (codec : FileCodec β) :
    DecidablePred (SessionNames codec)
  | .mirror _ => inferInstanceAs (Decidable (NamesOnly ..))
  | .start _ | .call _ | .journal | .readAck _ | .journalRejected
  | .carry _ | .push | .journalPushed | .unlink | .conclude | .fail _ _
  | .crash _ => inferInstanceAs (Decidable True)

section Chunks

variable {β : Type} {codec : FileCodec β}

theorem NamesOnly.mono
    {allowed weaker : DataPath → Prop} {files : Dict DataPath β}
    (names : NamesOnly codec allowed files)
    (implies : ∀ path, allowed path → weaker path) :
    NamesOnly codec weaker files :=
  fun entry isEntry =>
    ⟨fun manifest parsed => implies _ ((names entry isEntry).1 manifest parsed),
      fun day parsed chunk isChunk =>
        implies _ ((names entry isEntry).2 day parsed chunk isChunk)⟩

/-- The chunk of an acknowledgement is here, at a path of a chunk. -/
def AckBacked (codec : FileCodec β) (raw : RawFiles β) (ack : AckV1) : Prop :=
  ∃ manifest bytes, ChunkPath manifest.dataPath ∧
    AckHere codec raw ack manifest bytes

theorem AckBacked.mono
    {raw after : RawFiles β} {ack : AckV1}
    (backed : AckBacked codec raw ack) (kept : RawKept raw after) :
    AckBacked codec after ack := by
  rcases backed with ⟨manifest, bytes, isChunk, here⟩
  exact ⟨manifest, bytes, isChunk, here.mono isChunk.1.2 kept⟩

variable [DecidableEq β]

/-- The only acknowledgement which a step stages is backed by its chunk. -/
theorem pullStep_acks
    {before after : CentralDisk β} {nowNs : Nat} {task : PullTask β}
    {next : Option (PullTask β)}
    (names : NamesOnly codec ChunkPath before.mirror)
    (stores : TaskStores codec before.raw task)
    (reads : TaskReads codec before task)
    (completed : pullStep codec before nowNs task = .ok (after, next)) :
    ∀ chunkId ack, after.staged.get? chunkId = some ack →
      before.staged.get? chunkId = some ack ∨
        ack.chunkId = chunkId ∧ AckBacked codec after.raw ack := by
  intro chunkId ack found
  cases task with
  | publishDay path stage =>
      simp only [pullStep] at completed
      split at completed
      next => cases completed
      next disk next stepped =>
        cases completed
        rw [(DayReads.step stores reads stepped).staged] at found
        exact Or.inl found
  | ingest path stage =>
      simp only [pullStep] at completed
      split at completed
      next => cases completed
      next disk next stepped =>
        cases completed
        cases ingestStep_effect stepped with
        | writeAck =>
            rw [Dict.get?_set] at found
            split at found
            next same =>
              cases found
              rcases reads with ⟨bytes, mirrored, beside⟩
              rcases stores with ⟨_, other, parsed, here, isOther⟩
              rw [beside] at isOther
              cases isOther
              have listed := (Dict.mem_entries_iff _).mpr mirrored
              exact Or.inr ⟨same.symm, _, bytes,
                (names _ listed).1 _ parsed, parsed, rfl, rfl, here, beside⟩
            next => exact Or.inl found
        | _ => exact Or.inl found

/-- A step changes the data of a chunk only where it renames a download. -/
theorem pullStep_data
    {before after : CentralDisk β} {nowNs : Nat} {task : PullTask β}
    {next : Option (PullTask β)}
    (stores : TaskStores codec before.raw task)
    (reads : TaskReads codec before task)
    (completed : pullStep codec before nowNs task = .ok (after, next))
    {place : String × DataPath} (isChunk : ChunkPath place.2) :
    after.raw.get? place = before.raw.get? place ∨
      ∃ path manifest bytes,
        task = .ingest path (.replacePartial manifest bytes) ∧
          place = destination manifest := by
  have untouched (target : String × DataPath) (bytes : β) :
      (before.raw.set (hiddenBeside target) bytes).get? place =
        before.raw.get? place :=
    dataKept_hidden before.raw target bytes place isChunk.1
  cases task with
  | publishDay path stage =>
      simp only [pullStep] at completed
      split at completed
      next => cases completed
      next disk next stepped =>
        cases completed
        exact Or.inl ((DayReads.step stores reads stepped).data _ isChunk.1)
  | ingest path stage =>
      simp only [pullStep] at completed
      split at completed
      next => cases completed
      next disk next stepped =>
        cases completed
        cases ingestStep_effect stepped with
        | readManifest | destinationFree | destinationVerified
        | verifyPartial | manifestFree | manifestSame | writeAck =>
            exact Or.inl rfl
        | openPartial | download | writeManifest =>
            exact Or.inl (untouched _ _)
        | @replacePartial manifest bytes raw renamed =>
            by_cases same : place = destination manifest
            · exact Or.inr ⟨path, manifest, bytes, rfl, same⟩
            · exact Or.inl (get?_renameHidden renamed same isChunk.1.2)
        | @replaceManifest manifest bytes raw renamed =>
            refine Or.inl (get?_renameHidden renamed ?_ isChunk.1.2)
            rintro rfl
            have names := namesChunk_manifest manifest.dataPath
            exact absurd (names.symm.trans isChunk.2) (by simp)

end Chunks

/-! ## What every session keeps -/

/-- Where the chunks stand which are recorded as durable. -/
def durablePlaces (ledger : List LedgerEvent) : List (String × DataPath) :=
  ledger.filterMap fun
    | .localDurable chunk => some (destination chunk.manifest)
    | _ => none

section Sound

variable {β : Type} (codec : FileCodec β)

/-- The acknowledgements which have been read are staged. -/
def StagesValid (state : SessionState β) (valid : List AckV1) : Prop :=
  ∀ ack ∈ valid, state.staged.get? ack.chunkId = some ack

/-- What a phase relies on. -/
def PhaseSound (state : SessionState β) : SessionPhase → Prop
  | .idle | .conclude _ => state.run.puller.task = none
  | .readAcks names valid _ =>
      state.run.puller.task = none ∧ names.Nodup ∧
        StagesValid state valid ∧ ∀ ack ∈ valid, ack.chunkId ∉ names
  | .pushAcks valid _ =>
      state.run.puller.task = none ∧ StagesValid state valid
  | .running =>
      ∃ before files handled,
        RunSound codec before files handled state.run ∧
          ∀ place ∈ durablePlaces state.ledger,
            ∃ content, before.raw.get? place = some content
  | .journalPushed acks _ =>
      state.run.puller.task = none ∧ ∀ ack ∈ acks, ack ∈ state.carried
  | .unlinkAcks acks _ =>
      state.run.puller.task = none ∧
        ∀ ack ∈ acks, .ackPushed ack ∈ state.ledger

/-- What every session guarantees. -/
structure SessionSound (state : SessionState β) : Prop where
  names : NamesOnly codec ChunkPath state.run.puller.central.mirror
  store : StoreSound codec state.run.puller
  phase : PhaseSound codec state state.phase
  once : (durablePlaces state.ledger).Nodup
  present : ∀ place ∈ durablePlaces state.ledger, ¬ Hidden place.2 ∧
    ∃ content, state.raw.get? place = some content
  staged : ∀ chunkId ack, state.staged.get? chunkId = some ack →
    ack.chunkId = chunkId ∧ AckBacked codec state.raw ack
  pushed : ∀ ack, .ackPushed ack ∈ state.ledger → ack ∈ state.carried

variable {codec}

theorem durablePlaces_append (earlier later : List LedgerEvent) :
    durablePlaces (earlier ++ later) =
      durablePlaces earlier ++ durablePlaces later :=
  List.filterMap_append

/-- Events which record no chunk. -/
theorem durablePlaces_append_others
    (ledger : List LedgerEvent) {events : List LedgerEvent}
    (others : ∀ chunk, .localDurable chunk ∉ events) :
    durablePlaces (ledger ++ events) = durablePlaces ledger := by
  have none : durablePlaces events = [] := by
    refine List.filterMap_eq_nil_iff.mpr ?_
    intro event isEvent
    cases event with
    | localDurable chunk => exact absurd isEvent (others chunk)
    | _ => rfl
  rw [durablePlaces_append, none, List.append_nil]

theorem durablePlaces_durableEvents (result : PullResult) :
    durablePlaces (durableEvents result) = result.newPlaces := by
  simp [durablePlaces, durableEvents, PullResult.newPlaces,
    List.filterMap_map]

/-- No file of the staging directory is rejected for its name. -/
theorem readAck_of_sound
    {state : SessionState β} (sound : SessionSound codec state)
    {readable : Bool} {name : String} {names rejected : List String}
    {valid : List AckV1} {ack : AckV1}
    (staged : state.staged.get? name = some ack) :
    readAck state readable name names valid rejected ack =
      if readable then
        { state with phase := .readAcks names (valid ++ [ack]) rejected }
      else
        { state with
          phase := .readAcks names valid (rejected ++ [name])
          run := withStaged state (state.staged.erase name)
          rejected := state.rejected ++ [ack] } := by
  have named : namedByChunk (name, ack) = true :=
    decide_eq_true (sound.staged name ack staged).1.symm
  simp [readAck, named]

/-- The store keeps its promises when acknowledgements are unlinked. -/
theorem StoreSound.withStaged
    {puller : PullerState β} (sound : StoreSound codec puller)
    {staged : Dict String AckV1}
    (fewer : ∀ chunkId ack, staged.get? chunkId = some ack →
      puller.central.staged.get? chunkId = some ack) :
    StoreSound codec
      { puller with central := { puller.central with staged } } :=
  { sound with
    acks := fun chunkId ack found =>
      sound.acks chunkId ack (fewer chunkId ack found) }

theorem sessionSound_start :
    SessionSound codec (noSession : SessionState β) where
  names := by
    rintro entry ⟨⟩
  store := storeSound_start
  phase := rfl
  once := List.nodup_nil
  present := by
    rintro place ⟨⟩
  staged := by
    rintro chunkId ack ⟨⟩
  pushed := by
    rintro ack ⟨⟩

/-! ## One step of a session -/

/-- The end of a session, whatever the disk is left with. -/
theorem SessionSound.abandon
    {state : SessionState β} (sound : SessionSound codec state)
    (written : Option β) : SessionSound codec (abandon state written) := by
  rcases interrupted_keeps state.run.puller written with ⟨mirror, staged, _⟩
  have stored : Stores codec state.run.puller.central _ :=
    stores_interrupted state.run.puller written
  exact
    { names := by
        rw [Transfer.abandon, mirror]
        exact sound.names
      store := sound.store.stored stored (by rintro task ⟨⟩)
        (by rintro task ⟨⟩)
      phase := rfl
      once := sound.once
      present := by
        intro place isPlace
        rcases sound.present place isPlace with ⟨visible, content, found⟩
        exact ⟨visible, content, stored.kept place content visible found⟩
      staged := by
        intro chunkId ack found
        rw [SessionState.staged, Transfer.abandon, staged] at found
        rcases sound.staged chunkId ack found with ⟨named, backed⟩
        exact ⟨named, backed.mono stored.kept⟩
      pushed := sound.pushed }

/-- Events which are neither records nor notices are of no consequence. -/
theorem SessionSound.note
    {state : SessionState β} (sound : SessionSound codec state)
    (idle : state.phase = .idle) {events : List LedgerEvent}
    (records : ∀ chunk, .localDurable chunk ∉ events)
    (notices : ∀ ack, .ackPushed ack ∉ events) :
    SessionSound codec { state with ledger := state.ledger ++ events } :=
  { sound with
    phase := by
      have phase := sound.phase
      rw [idle] at phase
      simp only [idle]
      exact phase
    once := by
      rw [durablePlaces_append_others _ records]
      exact sound.once
    present := by
      rw [durablePlaces_append_others _ records]
      exact sound.present
    pushed := by
      intro ack isEvent
      rcases List.mem_append.mp isEvent with isEarlier | isLast
      · exact sound.pushed ack isEarlier
      · exact absurd isLast (notices ack) }

/-- The chunks which a run has written are recorded. -/
theorem SessionSound.journal
    {state : SessionState β} (sound : SessionSound codec state)
    (running : state.phase = .running)
    (ended : state.run.puller.task = none) :
    SessionSound codec
      { state with
        phase := .readAcks (state.staged.entries.map Prod.fst) [] []
        ledger := state.ledger ++ durableEvents state.run.result } := by
  have phase := sound.phase
  rw [running] at phase
  rcases phase with ⟨before, files, handled, runSound, recorded⟩
  have places : durablePlaces
      (state.ledger ++ durableEvents state.run.result) =
        durablePlaces state.ledger ++ state.run.result.newPlaces := by
    rw [durablePlaces_append, durablePlaces_durableEvents]
  exact
    { sound with
      phase := ⟨ended, state.staged.distinct, by rintro ack ⟨⟩, by
        rintro ack ⟨⟩⟩
      once := by
        rw [places, List.nodup_append]
        refine ⟨sound.once, runSound.achieved.once, ?_⟩
        rintro place isOld other isNew rfl
        rcases recorded place isOld with ⟨content, found⟩
        rw [runSound.achieved.free place isNew] at found
        cases found
      present := by
        rw [places]
        intro place isPlace
        rcases List.mem_append.mp isPlace with isOld | isNew
        · exact sound.present place isOld
        · rcases List.mem_map.mp isNew with ⟨chunk, isChunk, rfl⟩
          rcases runSound.achieved.taken chunk
            (List.mem_of_mem_filter isChunk) with ⟨_, _, _, storable, here⟩
          exact ⟨storable.2, here.stands⟩
      pushed := by
        intro ack isEvent
        rcases List.mem_append.mp isEvent with isEarlier | isLast
        · exact sound.pushed ack isEarlier
        · rcases List.mem_map.mp isLast with ⟨chunk, _, same⟩
          cases same }

/-- Files of the staging directory are taken out of it. -/
theorem SessionSound.fewer
    {state after : SessionState β} (sound : SessionSound codec state)
    {staged : Dict String AckV1}
    (fewer : ∀ chunkId ack, staged.get? chunkId = some ack →
      state.staged.get? chunkId = some ack)
    (run : after.run = withStaged state staged)
    (ledger : after.ledger = state.ledger)
    (carried : after.carried = state.carried)
    (phase : PhaseSound codec after after.phase) :
    SessionSound codec after where
  names := by
    rw [run]
    exact sound.names
  store := by
    rw [run]
    exact sound.store.withStaged fewer
  phase := phase
  once := by
    rw [ledger]
    exact sound.once
  present := by
    rw [ledger, SessionState.raw, run]
    exact sound.present
  staged := by
    rw [SessionState.staged, SessionState.raw, run]
    exact fun chunkId ack found =>
      sound.staged chunkId ack (fewer chunkId ack found)
  pushed := by
    rw [ledger, carried]
    exact sound.pushed

theorem get?_of_erase
    {staged : Dict String AckV1} {name chunkId : String} {ack : AckV1}
    (found : (staged.erase name).get? chunkId = some ack) :
    staged.get? chunkId = some ack := by
  rw [Dict.get?_erase] at found
  split at found
  next => cases found
  next => exact found

theorem SessionSound.readAck
    {state : SessionState β} (sound : SessionSound codec state)
    {readable : Bool} {name : String} {names rejected : List String}
    {valid : List AckV1} {ack : AckV1}
    (phase : state.phase = .readAcks (name :: names) valid rejected)
    (staged : state.staged.get? name = some ack) :
    SessionSound codec
      (readAck state readable name names valid rejected ack) := by
  have reads := sound.phase
  rw [phase] at reads
  rcases reads with ⟨idle, distinct, stages, apart⟩
  rcases List.nodup_cons.mp distinct with ⟨fresh, distinct⟩
  rw [readAck_of_sound sound staged]
  split
  · refine { sound with phase := ⟨idle, distinct, ?_, ?_⟩ }
    · intro other isValid
      rcases List.mem_append.mp isValid with isEarlier | isLast
      · exact stages other isEarlier
      · cases List.mem_singleton.mp isLast
        rw [(sound.staged name ack staged).1]
        exact staged
    · intro other isValid
      rcases List.mem_append.mp isValid with isEarlier | isLast
      · exact fun isName =>
          apart other isEarlier (List.mem_cons_of_mem _ isName)
      · cases List.mem_singleton.mp isLast
        rw [(sound.staged name ack staged).1]
        exact fresh
  · refine sound.fewer (fun _ _ => get?_of_erase) rfl rfl rfl
      ⟨idle, distinct, ?_, ?_⟩
    · intro other isValid
      have others : other.chunkId ≠ name := by
        rintro rfl
        exact apart other isValid List.mem_cons_self
      simp only [SessionState.staged, withStaged]
      rw [Dict.get?_erase, if_neg others]
      exact stages other isValid
    · exact fun other isValid isName =>
        apart other isValid (List.mem_cons_of_mem _ isName)

variable [DecidableEq β]

/-- What a step of a run leaves on the disk. -/
theorem runStep_disk
    {run after : RunState β} {label : RunLabel β}
    (stepped : runStep codec run label = some after) :
    after.puller.central = run.puller.central ∨
      (∃ written, after.puller.central = interrupted run.puller written) ∨
        ∃ task next, run.puller.task = some task ∧
          pullStep codec run.puller.central run.puller.nowNs task =
            .ok (after.puller.central, next) := by
  cases label with
  | tick nowNs =>
      cases stepped
      exact Or.inl rfl
  | work =>
      simp only [runStep, runWork] at stepped
      split at stepped
      next => cases stepped
      next =>
        cases stepped
        exact Or.inl rfl
      next task isTask =>
        split at stepped
        next =>
          cases stepped
          exact Or.inl rfl
        next completed =>
          cases stepped
          exact Or.inr (Or.inr ⟨task, _, isTask, completed⟩)
        next completed =>
          cases stepped
          exact Or.inr (Or.inr ⟨task, _, isTask, completed⟩)
  | fail written =>
      rcases Option.map_eq_some_iff.mp stepped with ⟨task, _, rfl⟩
      exact Or.inr (Or.inl ⟨written, rfl⟩)
  | failLate =>
      simp only [runStep] at stepped
      split at stepped
      next => cases stepped
      next task isTask =>
        split at stepped
        next => cases stepped
        next completed =>
          cases stepped
          exact Or.inr (Or.inr ⟨task, _, isTask, completed⟩)

/-- What a step of a run means for the acknowledgements. -/
theorem runStep_acks
    {before : CentralDisk β} {files : List DataPath}
    {handled : List (PullTask β)} {run after : RunState β}
    {label : RunLabel β}
    (sound : RunSound codec before files handled run)
    (names : NamesOnly codec ChunkPath run.puller.central.mirror)
    (stepped : runStep codec run label = some after) :
    StagedKept run.puller.central.staged after.puller.central.staged ∧
      ∀ chunkId ack, after.puller.central.staged.get? chunkId = some ack →
        run.puller.central.staged.get? chunkId = some ack ∨
          ack.chunkId = chunkId ∧
            AckBacked codec after.puller.central.raw ack := by
  rcases runStep_disk stepped with
    same | ⟨written, same⟩ | ⟨task, next, isTask, completed⟩
  · rw [same]
    exact ⟨stagedKept_of_eq rfl, fun _ _ found => Or.inl found⟩
  · have staged := (interrupted_keeps run.puller written).2.1
    rw [same, staged]
    exact ⟨stagedKept_of_eq rfl, fun _ _ found => Or.inl found⟩
  · have stores := sound.store.task task isTask
    have reads := sound.reads task isTask
    exact
      ⟨(pullStep_task sound.store.mirror stores reads completed).staged.kept,
      pullStep_acks names stores reads completed⟩

theorem SessionSound.call
    {state : SessionState β} (sound : SessionSound codec state)
    (running : state.phase = .running) {label : RunLabel β}
    {run : RunState β} (stepped : runStep codec state.run label = some run) :
    SessionSound codec { state with run } := by
  have phase := sound.phase
  rw [running] at phase
  rcases phase with ⟨before, files, handled, runSound, recorded⟩
  rcases runSound.step stepped with ⟨later, soundAfter⟩
  have kept := (sound.store.run (pullerLabels_name label)
    (runStep_refines stepped)).2
  have mirror : run.puller.central.mirror =
      state.run.puller.central.mirror :=
    soundAfter.mirror.trans runSound.mirror.symm
  exact
    { names := by
        rw [mirror]
        exact sound.names
      store := soundAfter.store
      phase := by
        simp only [running]
        exact ⟨before, files, later, soundAfter, recorded⟩
      once := sound.once
      present := by
        intro place isPlace
        rcases sound.present place isPlace with ⟨visible, content, found⟩
        exact ⟨visible, content, kept place content visible found⟩
      staged := by
        intro chunkId ack found
        rcases (runStep_acks runSound sound.names stepped).2 chunkId ack
            found with old | new
        · rcases sound.staged chunkId ack old with ⟨named, backed⟩
          exact ⟨named, backed.mono kept⟩
        · exact new
      pushed := sound.pushed }

/-- Every step of a session keeps what it guarantees. -/
theorem SessionSound.step
    {before after : SessionState β} {label : SessionLabel β}
    (sound : SessionSound codec before) (names : SessionNames codec label)
    (stepped : sessionStep codec before label = some after) :
    SessionSound codec after := by
  have phase := sound.phase
  cases sessionStep_effect codec stepped with
  | mirror idle =>
      rw [idle] at phase
      exact
        { sound with
          names := names
          store :=
            { sound.store with mirror := names.mono fun _ isChunk => isChunk.1 }
          phase := by
            simp only [idle]
            exact phase }
  | @start files idle =>
      rw [idle] at phase
      have started := runSound_start sound.store phase files
      exact
        { sound with
          store := started.store
          phase := ⟨_, files, [], started,
            fun place isPlace => (sound.present place isPlace).2⟩ }
  | call running called => exact sound.call running called
  | journal running ended => exact sound.journal running ended
  | readAck isRead staged => exact sound.readAck isRead staged
  | journalRejected isRead =>
      rw [isRead] at phase
      have idle : SessionSound codec { before with phase := .idle } :=
        { sound with phase := phase.1 }
      refine { idle.note rfl ?_ ?_ with phase := ?_ }
      · simp
      · simp
      · dsimp only [journalRejected]
        split
        · exact phase.1
        · exact ⟨phase.1, phase.2.2.1⟩
  | carry isPush staged =>
      rw [isPush] at phase
      exact
        { sound with
          phase := by
            simp only [isPush]
            exact phase
          pushed := fun ack isEvent =>
            List.mem_append_left _ (sound.pushed ack isEvent) }
  | push isPush =>
      rw [isPush] at phase
      refine
        { sound with
          phase := ⟨phase.1, ?_⟩
          pushed := fun ack isEvent =>
            List.mem_append_left _ (sound.pushed ack isEvent) }
      intro ack isValid
      exact List.mem_append_right _ (List.mem_map.mpr
        ⟨_, (Dict.mem_entries_iff _).mpr (phase.2 ack isValid), rfl⟩)
  | @journalPushed acks result isJournal =>
      rw [isJournal] at phase
      have records : ∀ chunk, .localDurable chunk ∉
          acks.map LedgerEvent.ackPushed := by simp
      refine
        { sound with
          phase := ⟨phase.1, ?_⟩
          once := ?_
          present := ?_
          pushed := ?_ }
      · intro ack isAck
        exact List.mem_append_right _ (List.mem_map.mpr ⟨ack, isAck, rfl⟩)
      · rw [durablePlaces_append_others _ records]
        exact sound.once
      · rw [durablePlaces_append_others _ records]
        exact sound.present
      · intro ack isEvent
        rcases List.mem_append.mp isEvent with isEarlier | isLast
        · exact sound.pushed ack isEarlier
        · rcases List.mem_map.mp isLast with ⟨other, isOther, same⟩
          cases same
          exact phase.2 ack isOther
  | unlink isUnlink =>
      rw [isUnlink] at phase
      exact sound.fewer (fun _ _ => get?_of_erase) rfl rfl rfl
        ⟨phase.1,
          fun other inRest => phase.2 other (List.mem_cons_of_mem _ inRest)⟩
  | conclude ended =>
      have idle : SessionSound codec { before with phase := .idle } := by
        refine { sound with phase := ?_ }
        rcases ended with isUnlink | isConclude
        · rw [isUnlink] at phase
          exact phase.1
        · rw [isConclude] at phase
          exact phase
      apply idle.note rfl
      · intro chunk
        split <;> simp
      · intro ack
        split <;> simp
  | fail =>
      apply (sound.abandon _).note rfl
      · intro chunk
        split <;> simp
      · intro ack
        split <;> simp
  | crash => exact sound.abandon _

end Sound

/-! ## Records which are missing -/

/-- The place which a call has filled, until it returns. -/
def currentPlace {β : Type} (wroteData : Bool) :
    PullTask β → List (String × DataPath)
  | .ingest _ (.checkManifest manifest _)
  | .ingest _ (.writeManifest manifest _)
  | .ingest _ (.replaceManifest manifest _)
  | .ingest _ (.writeAck manifest) =>
      if wroteData then [destination manifest] else []
  | _ => []

/-- The next step of the call renames a download. -/
def renamesDownload {β : Type} : PullTask β → Bool
  | .ingest _ (.replacePartial _ _) => true
  | _ => false

section Records

variable {β : Type}

/-- The place of the current call, if it has been filled. -/
def filledPlace (run : RunState β) : List (String × DataPath) :=
  match run.puller.task with
  | none => []
  | some task => currentPlace run.wroteData task

/-- The places which a run has filled and which are not recorded yet. -/
def unrecorded (state : SessionState β) : List (String × DataPath) :=
  if state.phase = .running then
    state.run.result.newPlaces ++ filledPlace state.run
  else []

variable (codec : FileCodec β)

/-- The chunk which stands at a place has been recorded. -/
def Recorded (raw : RawFiles β) (ledger : List LedgerEvent)
    (place : String × DataPath) : Prop :=
  ∃ bytes chunk, raw.get? (manifestBeside place) = some bytes ∧
    codec.parseManifest bytes = some chunk.manifest ∧
    destination chunk.manifest = place ∧ .localDurable chunk ∈ ledger

/-- The chunk of an acknowledgement has been recorded. -/
def AckRecorded (ledger : List LedgerEvent) (ack : AckV1) : Prop :=
  ∃ chunk, .localDurable chunk ∈ ledger ∧
    chunk.manifest.chunkId = ack.chunkId ∧
    chunk.manifest.sha256 = ack.sha256

/-- Data which stands at the centre is recorded, or going to be. -/
structure Audited (state : SessionState β) : Prop where
  recorded : ∀ place content, ChunkPath place.2 →
    state.raw.get? place = some content →
      Recorded codec state.raw state.ledger place ∨
        place ∈ unrecorded state
  carried : ∀ ack ∈ state.carried, AckRecorded state.ledger ack

variable {codec}

theorem Recorded.mono
    {raw after : RawFiles β} {ledger later : List LedgerEvent}
    {place : String × DataPath} (recorded : Recorded codec raw ledger place)
    (kept : RawKept raw after) (grows : ledger ⊆ later) :
    Recorded codec after later place := by
  rcases recorded with ⟨bytes, chunk, beside, parsed, isPlace, isEvent⟩
  exact ⟨bytes, chunk, kept _ bytes (not_hidden_manifest place.2) beside,
    parsed, isPlace, grows isEvent⟩

theorem AckRecorded.mono
    {ledger later : List LedgerEvent} {ack : AckV1}
    (recorded : AckRecorded ledger ack) (grows : ledger ⊆ later) :
    AckRecorded later ack := by
  rcases recorded with ⟨chunk, isEvent, same⟩
  exact ⟨chunk, grows isEvent, same⟩

/-- The chunks which a run has written are recorded at its end. -/
theorem Audited.journal
    {state : SessionState β} (audited : Audited codec state)
    (sound : SessionSound codec state) (running : state.phase = .running)
    (ended : state.run.puller.task = none) :
    Audited codec
      { state with
        phase := .readAcks (state.staged.entries.map Prod.fst) [] []
        ledger := state.ledger ++ durableEvents state.run.result } where
  recorded place content isChunk found := by
    refine Or.inl ?_
    have grows := List.subset_append_left state.ledger
      (durableEvents state.run.result)
    rcases audited.recorded place content isChunk found with
      recorded | waits
    · exact recorded.mono (rawKept_refl _) grows
    · rw [unrecorded, if_pos running, filledPlace, ended,
        List.append_nil] at waits
      rcases List.mem_map.mp waits with ⟨chunk, isWritten, rfl⟩
      have phase := sound.phase
      rw [running] at phase
      rcases phase with ⟨before, files, handled, runSound, _⟩
      rcases runSound.achieved.taken chunk
        (List.mem_of_mem_filter isWritten) with
          ⟨_, bytes, _, _, parsed, _, _, _, beside⟩
      exact ⟨bytes, chunk, beside, parsed, rfl, List.mem_append_right _
        (List.mem_map.mpr ⟨chunk, isWritten, rfl⟩)⟩
  carried ack isCarried :=
    (audited.carried ack isCarried).mono (List.subset_append_left _ _)

/-- Outside a run a staged acknowledgement is that of a recorded chunk. -/
theorem Audited.ackRecorded
    {state : SessionState β} (audited : Audited codec state)
    (sound : SessionSound codec state) (others : state.phase ≠ .running)
    {chunkId : String} {ack : AckV1}
    (staged : state.staged.get? chunkId = some ack) :
    AckRecorded state.ledger ack := by
  rcases sound.staged chunkId ack staged with
    ⟨_, manifest, bytes, isChunk, here⟩
  rcases here.stands with ⟨content, stands⟩
  rcases here with ⟨parsed, isId, isHash, _, beside⟩
  rcases audited.recorded _ content isChunk stands with recorded | waits
  · rcases recorded with ⟨other, chunk, found, isManifest, _, isEvent⟩
    rw [beside] at found
    cases found
    rw [parsed] at isManifest
    cases isManifest
    exact ⟨chunk, isEvent, isId, isHash⟩
  · rw [unrecorded, if_neg others] at waits
    cases waits

/-- The disk keeps the chunks, and the ledger its events. -/
theorem Audited.keep
    {state after : SessionState β} (audited : Audited codec state)
    (nothing : unrecorded state = [])
    (kept : RawKept state.raw after.raw)
    (data : DataKept state.raw after.raw)
    (grows : state.ledger ⊆ after.ledger)
    (carried : ∀ ack ∈ after.carried, ack ∈ state.carried ∨
      AckRecorded state.ledger ack) :
    Audited codec after where
  recorded place content isChunk found := by
    rw [data place isChunk.1] at found
    rcases audited.recorded place content isChunk found with
      recorded | waits
    · exact Or.inl (recorded.mono kept grows)
    · rw [nothing] at waits
      cases waits
  carried ack isCarried := by
    rcases carried ack isCarried with earlier | recorded
    · exact (audited.carried ack earlier).mono grows
    · exact recorded.mono grows

theorem unrecorded_of_ne
    {state : SessionState β} (others : state.phase ≠ .running) :
    unrecorded state = [] :=
  if_neg others

end Records

/-! ## Steps which record first -/

section Steps

variable {β : Type} [DecidableEq β] (codec : FileCodec β)

/-- A call which has renamed its data is going to return. -/
def CallReturns (run : RunState β) : RunLabel β → Prop
  | .tick _ => True
  | .work =>
      filledPlace run = [] ∨
        ∀ task ∈ run.puller.task,
          (pullStep codec run.puller.central run.puller.nowNs task).isOk
  | .fail _ => filledPlace run = []
  | .failLate =>
      filledPlace run = [] ∧
        ∀ task ∈ run.puller.task, renamesDownload task = false

/-- No call and no session ends over data which is not recorded. -/
def RecordsFirst (state : SessionState β) : SessionLabel β → Prop
  | .call label => CallReturns codec state.run label
  | .fail _ _ | .crash _ => unrecorded state = []
  | _ => True

instance (run : RunState β) : DecidablePred (CallReturns codec run)
  | .tick _ => inferInstanceAs (Decidable True)
  | .work => inferInstanceAs (Decidable (_ ∨ ∀ task ∈ _, _))
  | .fail _ => inferInstanceAs (Decidable (_ = _))
  | .failLate => inferInstanceAs (Decidable (_ ∧ ∀ task ∈ _, _))

instance (state : SessionState β) :
    (label : SessionLabel β) → Decidable (RecordsFirst codec state label)
  | .call label => inferInstanceAs (Decidable (CallReturns _ _ label))
  | .fail _ _ | .crash _ => inferInstanceAs (Decidable (_ = _))
  | .mirror _ | .start _ | .journal | .readAck _ | .journalRejected
  | .carry _ | .push | .journalPushed | .unlink | .conclude =>
      inferInstanceAs (Decidable True)

variable {codec}

theorem pullStep_replacePartial
    {before after : CentralDisk β} {nowNs : Nat} {path : DataPath}
    {manifest : ChunkManifestV1} {bytes : β} {next : Option (PullTask β)}
    (completed : pullStep codec before nowNs
      (.ingest path (.replacePartial manifest bytes)) = .ok (after, next)) :
    next = some (.ingest path (.checkManifest manifest bytes)) := by
  simp only [pullStep] at completed
  split at completed
  next => cases completed
  next disk next stepped =>
    cases completed
    cases ingestStep_effect stepped with
    | replacePartial => rfl

/-- A place which a call has filled stays its place until it returns. -/
theorem currentPlace_next
    {before after : CentralDisk β} {nowNs : Nat} {task later : PullTask β}
    (completed : pullStep codec before nowNs task = .ok (after, some later))
    (wroteData : Bool) :
    currentPlace wroteData task ⊆
      currentPlace (wroteAfter wroteData task) later := by
  cases task with
  | publishDay path stage => exact List.nil_subset _
  | ingest path stage =>
      simp only [pullStep] at completed
      split at completed
      next => cases completed
      next disk next stepped =>
        cases ingestStep_effect stepped with
        | readManifest | destinationFree | destinationVerified | openPartial
        | download | verifyPartial | replacePartial =>
            exact List.nil_subset _
        | manifestFree | manifestSame | writeManifest | replaceManifest =>
            cases completed
            exact List.Subset.refl _
        | writeAck => cases completed

theorem currentPlace_return
    {before after : CentralDisk β} {nowNs : Nat} {task : PullTask β}
    (completed : pullStep codec before nowNs task = .ok (after, none))
    (result : PullResult) (now : Nat) (wroteData : Bool) :
    result.newPlaces ++ currentPlace wroteData task ⊆
      (noteReturn result now wroteData task).newPlaces := by
  cases task with
  | publishDay path stage =>
      have unfilled : currentPlace wroteData (.publishDay path stage) = [] :=
        rfl
      rw [unfilled, List.append_nil]
      cases stage <;> exact List.Subset.refl _
  | ingest path stage =>
      simp only [pullStep] at completed
      split at completed
      next => cases completed
      next disk next stepped =>
        cases ingestStep_effect stepped with
        | writeAck =>
            cases wroteData <;>
              simp [noteReturn, PullResult.newPlaces, currentPlace]
        | _ => cases completed

/-- What a step of a run means for the data of the chunks. -/
structure CallFills (before after : RunState β) : Prop where
  data : ∀ place, ChunkPath place.2 →
    after.puller.central.raw.get? place =
        before.puller.central.raw.get? place ∨
      place ∈ filledPlace after
  waiting : before.result.newPlaces ++ filledPlace before ⊆
    after.result.newPlaces ++ filledPlace after

theorem runStep_fills
    {before : CentralDisk β} {files : List DataPath}
    {handled : List (PullTask β)} {run after : RunState β}
    {label : RunLabel β}
    (sound : RunSound codec before files handled run)
    (returns : CallReturns codec run label)
    (stepped : runStep codec run label = some after) :
    CallFills run after := by
  have data (task : PullTask β) (isTask : run.puller.task = some task)
      (central : CentralDisk β) (next : Option (PullTask β))
      (completed : pullStep codec run.puller.central run.puller.nowNs task =
        .ok (central, next)) :=
    fun (place : String × DataPath) (isChunk : ChunkPath place.2) =>
      pullStep_data (sound.store.task task isTask)
        (sound.reads task isTask) completed isChunk
  cases label with
  | tick nowNs =>
      cases stepped
      exact ⟨fun _ _ => Or.inl rfl, List.Subset.refl _⟩
  | work =>
      simp only [runStep, runWork] at stepped
      split at stepped
      next => cases stepped
      next task rest noTask isPending =>
        cases stepped
        refine ⟨fun _ _ => Or.inl rfl, ?_⟩
        rw [filledPlace, noTask]
        exact List.append_subset.mpr
          ⟨List.subset_append_left _ _, List.nil_subset _⟩
      next task isTask =>
        split at stepped
        next failed =>
          cases stepped
          rcases returns with empty | isOk
          · refine ⟨fun _ _ => Or.inl rfl, ?_⟩
            rw [empty]
            exact List.Subset.refl _
          · have contradiction := isOk task isTask
            rw [failed] at contradiction
            cases contradiction
        next central next completed =>
          cases stepped
          constructor
          · intro place isChunk
            rcases data task isTask _ _ completed place isChunk with
              same | ⟨path, manifest, bytes, rfl, rfl⟩
            · exact Or.inl same
            · cases pullStep_replacePartial completed
              exact Or.inr List.mem_cons_self
          · simp only [filledPlace, isTask]
            exact List.append_subset.mpr
              ⟨List.subset_append_left _ _,
                List.Subset.trans (currentPlace_next completed _)
                  (List.subset_append_right _ _)⟩
        next central completed =>
          cases stepped
          constructor
          · intro place isChunk
            rcases data task isTask _ _ completed place isChunk with
              same | ⟨path, manifest, bytes, rfl, rfl⟩
            · exact Or.inl same
            · cases pullStep_replacePartial completed
          · simp only [filledPlace, isTask, List.append_nil]
            exact currentPlace_return completed _ _ _
  | fail written =>
      rcases Option.map_eq_some_iff.mp stepped with ⟨task, _, rfl⟩
      refine ⟨fun place isChunk => Or.inl ?_, ?_⟩
      · exact (interrupted_keeps run.puller written).2.2 place isChunk.1
      · rw [returns]
        exact List.Subset.refl _
  | failLate =>
      simp only [runStep] at stepped
      split at stepped
      next => cases stepped
      next task isTask =>
        split at stepped
        next => cases stepped
        next central next completed =>
          cases stepped
          constructor
          · intro place isChunk
            rcases data task isTask _ _ completed place isChunk with
              same | ⟨path, manifest, bytes, rfl, rfl⟩
            · exact Or.inl same
            · cases returns.2 _ isTask
          · rw [returns.1]
            exact List.Subset.refl _

theorem Audited.call
    {state : SessionState β} (audited : Audited codec state)
    (sound : SessionSound codec state) (running : state.phase = .running)
    {label : RunLabel β} {run : RunState β}
    (returns : CallReturns codec state.run label)
    (stepped : runStep codec state.run label = some run) :
    Audited codec { state with run } := by
  have phase := sound.phase
  rw [running] at phase
  rcases phase with ⟨before, files, handled, runSound, _⟩
  have kept := (sound.store.run (pullerLabels_name label)
    (runStep_refines stepped)).2
  have fills := runStep_fills runSound returns stepped
  refine { audited with recorded := ?_ }
  intro place content isChunk found
  simp only [unrecorded, if_pos running]
  rcases fills.data place isChunk with same | filled
  · have stood : state.raw.get? place = some content := same.symm.trans found
    rcases audited.recorded place content isChunk stood with
      recorded | waits
    · exact Or.inl (recorded.mono kept (List.Subset.refl _))
    · rw [unrecorded, if_pos running] at waits
      exact Or.inr (fills.waiting waits)
  · exact Or.inr (List.mem_append_right _ filled)

theorem Audited.step
    {before after : SessionState β} {label : SessionLabel β}
    (audited : Audited codec before) (sound : SessionSound codec before)
    (first : RecordsFirst codec before label)
    (stepped : sessionStep codec before label = some after) :
    Audited codec after := by
  -- Most steps are taken outside a run, and leave the data alone.
  have apart {next : SessionState β} (others : before.phase ≠ .running)
      (raw : next.raw = before.raw) (ledger : before.ledger ⊆ next.ledger)
      (carried : ∀ ack ∈ next.carried,
        ack ∈ before.carried ∨ AckRecorded before.ledger ack) :
      Audited codec next :=
    audited.keep (unrecorded_of_ne others) (raw ▸ rawKept_refl _)
      (raw ▸ dataKept_refl _) ledger carried
  cases sessionStep_effect codec stepped with
  | mirror idle | start idle =>
      exact apart (by simp [idle]) rfl (List.Subset.refl _)
        (fun ack isCarried => Or.inl isCarried)
  | call running called => exact audited.call sound running first called
  | journal running ended => exact audited.journal sound running ended
  | readAck isRead staged =>
      rw [readAck_of_sound sound staged]
      split <;>
        exact apart (by simp [isRead]) rfl (List.Subset.refl _)
          (fun ack isCarried => Or.inl isCarried)
  | journalRejected isRead =>
      exact apart (by simp [isRead]) rfl (List.subset_append_left _ _)
        (fun ack isCarried => Or.inl isCarried)
  | carry isPush staged =>
      have others : before.phase ≠ .running := by simp [isPush]
      refine apart others rfl (List.Subset.refl _) ?_
      intro other isCarried
      rcases List.mem_append.mp isCarried with earlier | isLast
      · exact Or.inl earlier
      · cases List.mem_singleton.mp isLast
        exact Or.inr (audited.ackRecorded sound others staged)
  | push isPush =>
      have others : before.phase ≠ .running := by simp [isPush]
      refine apart others rfl (List.Subset.refl _) ?_
      intro other isCarried
      rcases List.mem_append.mp isCarried with earlier | isLast
      · exact Or.inl earlier
      · rcases List.mem_map.mp isLast with ⟨entry, isEntry, rfl⟩
        exact Or.inr (audited.ackRecorded sound others
          ((Dict.mem_entries_iff _).mp isEntry))
  | journalPushed isJournal =>
      exact apart (by simp [isJournal]) rfl (List.subset_append_left _ _)
        (fun ack isCarried => Or.inl isCarried)
  | unlink isUnlink =>
      exact apart (by simp [isUnlink]) rfl (List.Subset.refl _)
        (fun ack isCarried => Or.inl isCarried)
  | conclude ended =>
      have others : before.phase ≠ .running := by
        rcases ended with isUnlink | isConclude
        · simp [isUnlink]
        · simp [isConclude]
      exact apart others rfl (List.subset_append_left _ _)
        (fun ack isCarried => Or.inl isCarried)
  | @fail written =>
      have stored : Stores codec before.run.puller.central _ :=
        stores_interrupted before.run.puller written
      exact audited.keep first stored.kept
        (interrupted_keeps before.run.puller written).2.2
        (List.subset_append_left _ _)
        (fun ack isCarried => Or.inl isCarried)
  | @crash written =>
      have stored : Stores codec before.run.puller.central _ :=
        stores_interrupted before.run.puller written
      exact audited.keep first stored.kept
        (interrupted_keeps before.run.puller written).2.2
        (List.Subset.refl _) (fun ack isCarried => Or.inl isCarried)

/-! ## Acknowledgements on their way -/

/-- An acknowledgement of the chunk is staged, one has been pushed, or one which
could not be read stands in `rejected-acks`. -/
def AckUnderway (chunkId : String) (state : SessionState β) : Prop :=
  (∃ ack, state.staged.get? chunkId = some ack) ∨
    ∃ ack, ack.chunkId = chunkId ∧
      (.ackPushed ack ∈ state.ledger ∨ ack ∈ state.rejected)

theorem AckUnderway.step
    {before after : SessionState β} {label : SessionLabel β}
    {chunkId : String} (underway : AckUnderway chunkId before)
    (sound : SessionSound codec before)
    (stepped : sessionStep codec before label = some after) :
    AckUnderway chunkId after := by
  -- Unless a file is taken out, it is enough that all of it only grows.
  have grow {next : SessionState β}
      (staged : StagedKept before.staged next.staged)
      (ledger : before.ledger ⊆ next.ledger)
      (rejected : before.rejected = next.rejected) :
      AckUnderway chunkId next := by
    rcases underway with ⟨ack, found⟩ | ⟨ack, isChunk, isEvent | isRejected⟩
    · rcases staged chunkId ack found (sound.staged chunkId ack found).1 with
        ⟨later, isLater, _⟩
      exact Or.inl ⟨later, isLater⟩
    · exact Or.inr ⟨ack, isChunk, Or.inl (ledger isEvent)⟩
    · exact Or.inr ⟨ack, isChunk, Or.inr (rejected ▸ isRejected)⟩
  -- The file which is taken out has been pushed or is rejected.
  have takeOut {next : SessionState β} {ack : AckV1}
      (staged : next.staged = before.staged.erase ack.chunkId)
      (ledger : next.ledger = before.ledger)
      (rejected : before.rejected ⊆ next.rejected)
      (taken : .ackPushed ack ∈ next.ledger ∨ ack ∈ next.rejected) :
      AckUnderway chunkId next := by
    rcases underway with ⟨other, found⟩ | ⟨other, isChunk, isEvent | isRejected⟩
    · by_cases same : chunkId = ack.chunkId
      · exact Or.inr ⟨ack, same.symm, taken⟩
      · refine Or.inl ⟨other, ?_⟩
        rw [staged, Dict.get?_erase, if_neg same]
        exact found
    · exact Or.inr ⟨other, isChunk, Or.inl (ledger ▸ isEvent)⟩
    · exact Or.inr ⟨other, isChunk, Or.inr (rejected isRejected)⟩
  cases sessionStep_effect codec stepped with
  | mirror | start | carry | push =>
      exact grow (stagedKept_of_eq rfl) (List.Subset.refl _) rfl
  | call running called =>
      have phase := sound.phase
      rw [running] at phase
      rcases phase with ⟨disk, files, handled, runSound, _⟩
      exact grow (runStep_acks runSound sound.names called).1
        (List.Subset.refl _) rfl
  | journal | journalRejected | journalPushed | conclude =>
      exact grow (stagedKept_of_eq rfl) (List.subset_append_left _ _) rfl
  | @readAck _ name _ _ _ ack isRead staged =>
      rw [readAck_of_sound sound staged]
      split
      · exact grow (stagedKept_of_eq rfl) (List.Subset.refl _) rfl
      · rw [← (sound.staged name ack staged).1]
        exact takeOut rfl rfl (List.subset_append_left _ _)
          (Or.inr (List.mem_append_right _ List.mem_cons_self))
  | @unlink ack rest result isUnlink =>
      have phase := sound.phase
      rw [isUnlink] at phase
      exact takeOut rfl rfl (List.Subset.refl _)
        (Or.inl (phase.2 ack List.mem_cons_self))
  | @fail written =>
      have staged := (interrupted_keeps before.run.puller written).2.1
      exact grow (stagedKept_of_eq staged) (List.subset_append_left _ _) rfl
  | @crash written =>
      have staged := (interrupted_keeps before.run.puller written).2.1
      exact grow (stagedKept_of_eq staged) (List.Subset.refl _) rfl

/-! ## Chunks which are never recorded -/

/-- Data stands, and is recorded only if it was at an earlier moment. -/
structure Overlooked (place : String × DataPath)
    (earlier : List LedgerEvent) (codec : FileCodec β)
    (state : SessionState β) : Prop where
  stands : ∃ content, state.raw.get? place = some content
  ledger : place ∈ durablePlaces state.ledger → place ∈ durablePlaces earlier
  running : state.phase = .running →
    ∃ before files handled, RunSound codec before files handled state.run ∧
      ∃ content, before.raw.get? place = some content

/-- Nothing but the end of a run records a chunk. -/
theorem durablePlaces_step
    {before after : SessionState β} {label : SessionLabel β}
    (stepped : sessionStep codec before label = some after) :
    durablePlaces after.ledger = durablePlaces before.ledger ∨
      before.phase = .running ∧
        durablePlaces after.ledger = durablePlaces before.ledger ++
          before.run.result.newPlaces := by
  cases sessionStep_effect codec stepped with
  | mirror | start | call | carry | push | unlink | crash => exact Or.inl rfl
  | journal running =>
      refine Or.inr ⟨running, ?_⟩
      rw [durablePlaces_append, durablePlaces_durableEvents]
  | readAck =>
      refine Or.inl ?_
      unfold readAck
      split <;> rfl
  | journalRejected | journalPushed =>
      exact Or.inl (durablePlaces_append_others _ (by simp))
  | conclude | fail =>
      refine Or.inl (durablePlaces_append_others _ ?_)
      intro chunk
      split <;> simp

theorem Overlooked.step
    {before after : SessionState β} {label : SessionLabel β}
    {place : String × DataPath} {earlier : List LedgerEvent}
    (overlooked : Overlooked place earlier codec before)
    (visible : ¬ Hidden place.2) (sound : SessionSound codec before)
    (stepped : sessionStep codec before label = some after) :
    Overlooked place earlier codec after := by
  have ledger : place ∈ durablePlaces after.ledger →
      place ∈ durablePlaces earlier := by
    rcases durablePlaces_step stepped with same | ⟨running, appended⟩
    · rw [same]
      exact overlooked.ledger
    · rw [appended]
      intro isPlace
      rcases List.mem_append.mp isPlace with isOld | isNew
      · exact overlooked.ledger isOld
      · rcases overlooked.running running with
          ⟨disk, files, handled, runSound, content, found⟩
        rw [runSound.achieved.free place isNew] at found
        cases found
  rcases overlooked.stands with ⟨content, found⟩
  -- Most steps leave the data alone and are taken outside a run.
  have apart (raw : RawKept before.raw after.raw)
      (others : after.phase ≠ .running) :
      Overlooked place earlier codec after :=
    ⟨⟨content, raw place content visible found⟩, ledger,
      fun running => absurd running others⟩
  cases sessionStep_effect codec stepped with
  | mirror idle => exact apart (rawKept_refl _) (by simp [idle])
  | @start files idle =>
      have phase := sound.phase
      rw [idle] at phase
      exact ⟨⟨content, found⟩, ledger, fun _ =>
        ⟨_, files, [], runSound_start sound.store phase files, content,
          found⟩⟩
  | @call label run running called =>
      rcases overlooked.running running with
        ⟨disk, files, handled, runSound, stood⟩
      rcases runSound.step called with ⟨later, soundAfter⟩
      have kept := (sound.store.run (pullerLabels_name label)
        (runStep_refines called)).2
      exact ⟨⟨content, kept place content visible found⟩, ledger,
        fun _ => ⟨disk, files, later, soundAfter, stood⟩⟩
  | readAck isRead staged =>
      apply apart
      · unfold readAck
        split <;> exact rawKept_refl _
      · unfold readAck
        split <;> simp
  | journalRejected =>
      refine apart (rawKept_refl _) ?_
      simp only [journalRejected]
      split <;> simp
  | carry isPush => exact apart (rawKept_refl _) (by simp [isPush])
  | journal | push | journalPushed | unlink =>
      exact apart (rawKept_refl _) (by simp)
  | conclude => exact apart (rawKept_refl _) (by simp [conclude])
  | @fail written | @crash written =>
      have stored : Stores codec before.run.puller.central _ :=
        stores_interrupted before.run.puller written
      exact apart stored.kept (by simp [abandon])

/-! ## Whole runs -/

theorem SessionSound.run
    {start final : SessionState β} {labels : List (SessionLabel β)}
    (sound : SessionSound codec start)
    (names : ∀ label ∈ labels, SessionNames codec label)
    (reached : runFrom (sessionStep codec) start labels = some final) :
    SessionSound codec final := by
  have preserved : ∀ before label after, SessionSound codec before →
      SessionNames codec label →
        sessionStep codec before label = some after →
          SessionSound codec after :=
    fun _ _ _ isSound named stepped => isSound.step named stepped
  exact invariant_of_run preserved sound
    (stepsMeet_of_forall (fun label isLabel _ => names label isLabel) start)
    reached

/-- What holds of a state and of all which a sound session reaches from it. -/
theorem keptAlong
    {property : SessionState β → Prop}
    (kept : ∀ before label after, property before →
      SessionSound codec before → sessionStep codec before label = some after →
        property after)
    {start final : SessionState β} {labels : List (SessionLabel β)}
    (sound : SessionSound codec start)
    (names : ∀ label ∈ labels, SessionNames codec label)
    (reached : runFrom (sessionStep codec) start labels = some final)
    (initially : property start) : property final := by
  have preserved : ∀ before label after,
      (SessionSound codec before ∧ property before) →
        SessionNames codec label →
          sessionStep codec before label = some after →
            SessionSound codec after ∧ property after := by
    rintro before label after ⟨isSound, holds⟩ named stepped
    exact ⟨isSound.step named stepped, kept _ _ _ holds isSound stepped⟩
  exact (invariant_of_run preserved ⟨sound, initially⟩
    (stepsMeet_of_forall (fun label isLabel _ => names label isLabel) start)
    reached).2

/-- Every acknowledgement which has been carried off is that of a record. -/
theorem audited_run
    {final : SessionState β} {labels : List (SessionLabel β)}
    (names : ∀ label ∈ labels, SessionNames codec label)
    (first : StepsMeet (sessionStep codec) (RecordsFirst codec) noSession
      labels)
    (reached : runFrom (sessionStep codec) noSession labels = some final) :
    Audited codec final := by
  have preserved : ∀ before label after,
      (SessionSound codec before ∧ Audited codec before) →
        (SessionNames codec label ∧ RecordsFirst codec before label) →
          sessionStep codec before label = some after →
            SessionSound codec after ∧ Audited codec after := by
    rintro before label after ⟨isSound, audited⟩ ⟨named, isFirst⟩ stepped
    exact ⟨isSound.step named stepped, audited.step isSound isFirst stepped⟩
  have initially : Audited codec (noSession : SessionState β) :=
    ⟨by rintro place content _ ⟨⟩, by rintro ack ⟨⟩⟩
  have meets : StepsMeet (sessionStep codec)
      (fun state label =>
        SessionNames codec label ∧ RecordsFirst codec state label)
      noSession labels :=
    (stepsMeet_of_forall
      (fun label isLabel _ => names label isLabel) _).and first
  exact (invariant_of_run preserved ⟨sessionSound_start, initially⟩ meets
    reached).2

end Steps

/-! ## The result -/

/-- The mirror of the first chunk. -/
def mirrorFirst : SessionLabel SampleFile :=
  .mirror ((Dict.empty.set firstPath.manifest
    (.manifest (sampleManifest "chunk-first" "abc" firstPath))).set
    firstPath (.text "abc"))

/-- The mirror is pulled, and some steps of the run are made. -/
def sessionStart (steps : Nat) : List (SessionLabel SampleFile) :=
  [mirrorFirst, .start [firstPath.manifest]] ++
    List.replicate steps (.call .work)

/-- What a session does after its run. -/
def sessionEnd : List (SessionLabel SampleFile) :=
  [.journal, .readAck true, .journalRejected, .push, .journalPushed, .unlink,
    .conclude]

theorem sessionStart_runs :
    (runFrom (sessionStep sampleCodec) noSession (sessionStart 11)).isSome := by
  decide +kernel

def sessionStarted : SessionState SampleFile :=
  (runFrom (sessionStep sampleCodec) noSession (sessionStart 11)).get
    sessionStart_runs

theorem sessionEnd_runs :
    (runFrom (sessionStep sampleCodec) sessionStarted sessionEnd).isSome := by
  decide +kernel

def sessionEnded : SessionState SampleFile :=
  (runFrom (sessionStep sampleCodec) sessionStarted sessionEnd).get
    sessionEnd_runs

/-- The staged file cannot be read. -/
def sessionRejects : List (SessionLabel SampleFile) :=
  [.journal, .readAck false, .journalRejected, .conclude]

theorem sessionRejects_runs :
    (runFrom (sessionStep sampleCodec) sessionStarted
      sessionRejects).isSome := by
  decide +kernel

def sessionRejected : SessionState SampleFile :=
  (runFrom (sessionStep sampleCodec) sessionStarted sessionRejects).get
    sessionRejects_runs

/--
The session crashes once the data is renamed; the next one acknowledges the
chunk, and no record of it is ever made.
-/
theorem durable_record_missing :
    ∃ crashed ∈ runFrom (sessionStep sampleCodec) noSession
        (sessionStart 7 ++ [.crash none]),
      ∃ final ∈ runFrom (sessionStep sampleCodec) crashed
          (.start [firstPath.manifest] ::
            (List.replicate 7 (.call .work) ++ sessionEnd)),
        final.carried ≠ [] ∧ durablePlaces final.ledger = [] ∧
          .pullRunCompleted
            { remoteManifests := 1
              newChunks := 0
              existingChunksVerified := 1
              verifiedBytes := 3
              acksQueued := 1
              acksPushed := 1
              invalidStagedAcks := 0
              dayManifestsSeen := 0
              daysPublished := 0
              failures := 0 } ∈ final.ledger := by
  decide +kernel

end ShadowDataPlane.Transfer
