import ShadowDataPlane.Foundation.Dict
import ShadowDataPlane.Foundation.Result
import ShadowDataPlane.Foundation.StableSort
import ShadowDataPlane.Foundation.Transition

/-!
# Retention

`expired_unpinned_days` lists the days which are old, sealed and in no release,
and `apply_retention` removes them: first the data of a day, then the directory
with its `SEALED.json`.  A release is pinned by the hash of that file alone,
and `release_cli` reads nothing else of a day.

So a day which is half removed is as good as any other for a release, and once
its directory is gone no later run finds its manifest: the days are enumerated
by their data.  All of this needs a crash between the first removal in the data
of a day and the removal of its manifest, and every such crash does it.

`release_cli` writes to any path, while only the files `*.json` of the release
root pin a day: what another release refers to is removed as well, and every
such removal breaks a release (`intact_iff`).

The commands run one after another.  A file is known by its path below the
directory of its day; a day which has no directory is not one with an empty
directory.  A release is known by its path from the release root.
-/

namespace ShadowDataPlane.Central

open ShadowDataPlane.Foundation

/-! ## The raw tree -/

/-- A collector and a date, counted in days. -/
structure RawDay where
  collectorId : String
  utcDate : Int
deriving DecidableEq

/-- The order of the directories of the days. -/
def RawDay.Before (left right : RawDay) : Prop :=
  left.collectorId < right.collectorId ∨
    left.collectorId = right.collectorId ∧ left.utcDate ≤ right.utcDate

instance (left right : RawDay) : Decidable (left.Before right) :=
  inferInstanceAs (Decidable (_ ∨ _))

/-- `SEALED.json`: its hash, and the day it is for if it validates. -/
structure SealedFile where
  sha256 : String
  manifest : Option RawDay
deriving DecidableEq

/-- `DayReleaseRefV1`. -/
structure DayReleaseRef where
  day : RawDay
  sealedManifestSha256 : String
deriving DecidableEq

/-- `DatasetReleaseV1`. -/
structure DatasetRelease where
  releaseId : String
  days : List DayReleaseRef
deriving DecidableEq

/-- How far the removal of a day has come. -/
inductive RemovalPhase where
  | untouched
  /-- Some of its files are gone. -/
  | removing
  /-- Its directory is gone, the one of its manifest is not. -/
  | unsealing
deriving DecidableEq

/-- `apply_retention` at one day, and the days which follow. -/
structure RetentionJob where
  day : RawDay
  phase : RemovalPhase
  rest : List RawDay
deriving DecidableEq

/-- The raw root and the release root; no job, no command. -/
structure RetentionTree where
  data : Dict RawDay (List String)
  manifests : Dict RawDay SealedFile
  /-- All releases by their paths, with what they hold if it validates. -/
  releases : Dict String (Option DatasetRelease)
  job : Option RetentionJob := none

/-- What a command raises. -/
inductive RetentionError where
  | retentionDays
  | changedManifest (release : String)
  | missingManifest (day : RawDay)
  | identityMismatch (day : RawDay)
  | validation
deriving DecidableEq

namespace RetentionTree

/-! ## The commands -/

/-- The days which a release file pins. -/
def releasePins (tree : RetentionTree) :
    String × Option DatasetRelease → Except RetentionError (List RawDay)
  | (_, none) => .error .validation
  | (name, some release) =>
      release.days.mapM fun ref =>
        match tree.manifests.get? ref.day with
        | none => .error (.changedManifest name)
        | some sealedFile =>
            if sealedFile.sha256 ≠ ref.sealedManifestSha256 then
              .error (.changedManifest name)
            else .ok ref.day

/-- `release_root.glob("*.json")` finds a file of the release root itself. -/
def GlobsJson (path : String) : Prop :=
  '/' ∉ path.toList ∧ ".json".toList <:+ path.toList

instance (path : String) : Decidable (GlobsJson path) :=
  inferInstanceAs (Decidable (_ ∧ _))

/-- The release files which are found, in their order. -/
def releaseFiles (tree : RetentionTree) :
    List (String × Option DatasetRelease) :=
  (tree.releases.entries.filter fun entry =>
    GlobsJson entry.1).insertionSort fun left right => left.1 ≤ right.1

/-- `_pinned_days`. -/
def pinnedDays (tree : RetentionTree) : Except RetentionError (List RawDay) :=
  (tree.releaseFiles.mapM tree.releasePins).map List.flatten

/-- The loop of `expired_unpinned_days` over the directories of the days. -/
def expiredAmong (tree : RetentionTree) (pinned : List RawDay)
    (cutoff : Int) : List RawDay → Except RetentionError (List RawDay)
  | [] => .ok []
  | day :: rest =>
      match tree.manifests.get? day with
      | none => tree.expiredAmong pinned cutoff rest
      | some sealedFile =>
          if day.utcDate < cutoff ∧ day ∉ pinned then
            match sealedFile.manifest with
            | none => .error .validation
            | some _ => (tree.expiredAmong pinned cutoff rest).map (day :: ·)
          else tree.expiredAmong pinned cutoff rest

/-- `expired_unpinned_days`. -/
def expiredUnpinnedDays (tree : RetentionTree) (retentionDays today : Int) :
    Except RetentionError (List RawDay) :=
  if retentionDays < 1 then .error .retentionDays
  else
    match tree.pinnedDays with
    | .error error => .error error
    | .ok pinned =>
        tree.expiredAmong pinned (today - retentionDays)
          ((tree.data.entries.map Prod.fst).insertionSort RawDay.Before)

/-- `ID_PATTERN`. -/
def IdPattern (text : String) : Prop :=
  8 ≤ text.toList.length ∧ text.toList.length ≤ 160 ∧
    text.toList.all fun letter =>
      letter.isAlphanum || letter == '.' || letter == '_' || letter == '-'

instance (text : String) : Decidable (IdPattern text) :=
  inferInstanceAs (Decidable (_ ∧ _ ∧ _))

/-- The reference to a sealed day. -/
def releaseRef (tree : RetentionTree) (day : RawDay) :
    Except RetentionError DayReleaseRef :=
  match tree.manifests.get? day with
  | none => .error (.missingManifest day)
  | some sealedFile =>
      match sealedFile.manifest with
      | none => .error .validation
      | some manifest =>
          if manifest ≠ day then .error (.identityMismatch day)
          else if day.collectorId.length < 1 ∨
              100 < day.collectorId.length then
            .error .validation
          else .ok ⟨day, sealedFile.sha256⟩

/-- The release which `release_cli` writes. -/
def newRelease (tree : RetentionTree) (releaseId : String)
    (days : List RawDay) : Except RetentionError DatasetRelease :=
  match days.mapM tree.releaseRef with
  | .error error => .error error
  | .ok refs =>
      if ¬ IdPattern releaseId ∨ refs = [] ∨
          ¬ (refs.map DayReleaseRef.day).Nodup then
        .error .validation
      else
        .ok {
          releaseId
          days := refs.insertionSort fun left right =>
            left.day.Before right.day }

/-! ## Steps -/

/-- The statements of retention, a crash, and the release of days. -/
inductive RetentionLabel where
  /-- `retention_cli`, up to the first removal. -/
  | retain (retentionDays today : Int) (apply : Bool)
  /-- `rmtree` removes a file of the day. -/
  | unlink (file : String)
  /-- `rmtree` removes the directory of the day. -/
  | rmdir
  /-- The directory of the manifest is removed. -/
  | dropManifest
  | crash
  /-- `release_cli`, with the name of its output. -/
  | release (releaseId : String) (days : List RawDay) (output : String)
deriving DecidableEq

/-- `apply_retention` takes the next day. -/
def jobOf : List RawDay → Option RetentionJob
  | [] => none
  | day :: rest => some ⟨day, .untouched, rest⟩

def step (tree : RetentionTree) : RetentionLabel → Option RetentionTree
  | .retain retentionDays today apply =>
      match tree.job with
      | some _ => none
      | none =>
          match tree.expiredUnpinnedDays retentionDays today with
          | .error _ => some tree
          | .ok days =>
              some (if apply then { tree with job := jobOf days } else tree)
  | .unlink file =>
      match tree.job with
      | none => none
      | some job =>
          match tree.data.get? job.day with
          | none => none
          | some files =>
              if job.phase ≠ .unsealing ∧ file ∈ files then
                some { tree with
                  data := tree.data.set job.day (files.erase file)
                  job := some { job with phase := .removing } }
              else none
  | .rmdir =>
      match tree.job with
      | none => none
      | some job =>
          if job.phase ≠ .unsealing ∧
              tree.data.get? job.day = some [] then
            some { tree with
              data := tree.data.erase job.day
              job := some { job with phase := .unsealing } }
          else none
  | .dropManifest =>
      match tree.job with
      | none => none
      | some job =>
          if job.phase = .unsealing then
            some { tree with
              manifests := tree.manifests.erase job.day
              job := jobOf job.rest }
          else none
  | .crash => tree.job.map fun _ => { tree with job := none }
  | .release releaseId days output =>
      match tree.job with
      | some _ => none
      | none =>
          match tree.newRelease releaseId days with
          | .error _ => some tree
          | .ok release =>
              some { tree with
                releases := tree.releases.set output (some release) }

/-! ## What the commands read -/

/-- Some release refers to the day. -/
def Pinned (tree : RetentionTree) (day : RawDay) : Prop :=
  ∃ name release, tree.releases.get? name = some (some release) ∧
    ∃ ref ∈ release.days, ref.day = day

/-- A release which `_pinned_days` finds refers to the day. -/
def PinFound (tree : RetentionTree) (day : RawDay) : Prop :=
  ∃ name release, GlobsJson name ∧
    tree.releases.get? name = some (some release) ∧
      ∃ ref ∈ release.days, ref.day = day

theorem mem_releaseFiles
    {tree : RetentionTree} {entry : String × Option DatasetRelease} :
    entry ∈ tree.releaseFiles ↔
      tree.releases.get? entry.1 = some entry.2 ∧ GlobsJson entry.1 := by
  rw [releaseFiles, (List.perm_insertionSort _ _).mem_iff, List.mem_filter,
    decide_eq_true_eq]
  exact and_congr_left fun _ => tree.releases.mem_entries_iff

theorem mem_pinnedDays
    {tree : RetentionTree} {pinned : List RawDay}
    (completed : tree.pinnedDays = .ok pinned) {day : RawDay}
    (isFound : tree.PinFound day) : day ∈ pinned := by
  rcases isFound with ⟨name, release, isFile, isRelease, ref, isRef, rfl⟩
  rw [pinnedDays] at completed
  cases lists : tree.releaseFiles.mapM tree.releasePins with
  | error error =>
      rw [lists] at completed
      cases completed
  | ok days =>
      rw [lists] at completed
      cases completed
      have isEntry : (name, some release) ∈ tree.releaseFiles :=
        mem_releaseFiles.mpr ⟨isRelease, isFile⟩
      rcases exists_result_of_mem_mapM lists isEntry with
        ⟨pins, isPins, read⟩
      rcases exists_result_of_mem_mapM read isRef with ⟨other, isOther, ok⟩
      refine List.mem_flatten.mpr ⟨pins, isPins, ?_⟩
      split at ok
      next => cases ok
      next =>
        split at ok
        next => cases ok
        next =>
          cases ok
          exact isOther

/-- What is expired is enumerated, sealed and in no release file. -/
theorem expiredAmong_sound
    {tree : RetentionTree} {pinned days expired : List RawDay} {cutoff : Int}
    (completed : tree.expiredAmong pinned cutoff days = .ok expired) :
    expired.Sublist days ∧
      ∀ day ∈ expired, (tree.manifests.get? day).isSome ∧ day ∉ pinned := by
  induction days generalizing expired with
  | nil =>
      cases completed
      exact ⟨List.Sublist.refl _, by simp⟩
  | cons day rest induction =>
      rw [expiredAmong] at completed
      split at completed
      next =>
        rcases induction completed with ⟨sublist, sound⟩
        exact ⟨sublist.cons day, sound⟩
      next sealedFile isSealed =>
        split at completed
        next expires =>
          split at completed
          next => cases completed
          next =>
            cases others : tree.expiredAmong pinned cutoff rest with
            | error error =>
                rw [others] at completed
                cases completed
            | ok tail =>
                rw [others] at completed
                cases completed
                rcases induction others with ⟨sublist, sound⟩
                refine ⟨sublist.cons_cons day, ?_⟩
                intro other member
                rcases List.mem_cons.mp member with rfl | inTail
                · exact ⟨by rw [isSealed]; rfl, expires.2⟩
                · exact sound other inTail
        next =>
          rcases induction completed with ⟨sublist, sound⟩
          exact ⟨sublist.cons day, sound⟩

theorem expiredUnpinnedDays_sound
    {tree : RetentionTree} {retentionDays today : Int} {expired : List RawDay}
    (completed : tree.expiredUnpinnedDays retentionDays today = .ok expired) :
    expired.Nodup ∧ ∀ day ∈ expired,
      (tree.manifests.get? day).isSome ∧ ¬ tree.PinFound day := by
  rw [expiredUnpinnedDays] at completed
  split at completed
  next => cases completed
  next =>
    split at completed
    next => cases completed
    next pinned isPinned =>
      rcases expiredAmong_sound completed with ⟨sublist, sound⟩
      constructor
      · apply sublist.nodup
        exact (List.perm_insertionSort _ _).nodup_iff.mpr tree.data.distinct
      · intro day member
        rcases sound day member with ⟨isSealed, notPinned⟩
        exact ⟨isSealed, fun pins => notPinned (mem_pinnedDays isPinned pins)⟩

/-- A release refers to sealed days. -/
theorem newRelease_sealed
    {tree : RetentionTree} {releaseId : String} {days : List RawDay}
    {release : DatasetRelease}
    (completed : tree.newRelease releaseId days = .ok release)
    {ref : DayReleaseRef} (member : ref ∈ release.days) :
    (tree.manifests.get? ref.day).isSome := by
  rw [newRelease] at completed
  split at completed
  next => cases completed
  next refs read =>
    split at completed
    next => cases completed
    next =>
      cases completed
      have isRef := (List.perm_insertionSort _ _).mem_iff.mp member
      rcases exists_of_mem_mapM read isRef with ⟨day, _, isRead⟩
      rw [releaseRef] at isRead
      split at isRead
      next => cases isRead
      next sealedFile isSealed =>
        split at isRead
        next => cases isRead
        next =>
          split at isRead
          next => cases isRead
          next =>
            split at isRead
            next => cases isRead
            next =>
              cases isRead
              rw [isSealed]
              rfl

/-! ## Days which are intact -/

/--
Every day which a release refers to has its files, and between the commands
every sealed day has them.
-/
structure Intact (start tree : RetentionTree) : Prop where
  isSealed : tree.job = none → ∀ day, (tree.manifests.get? day).isSome →
    tree.data.get? day = start.data.get? day
  pinned : ∀ day, tree.Pinned day →
    tree.data.get? day = start.data.get? day

/-- A crash does not come in the middle of a day. -/
def CrashesBetween (tree : RetentionTree) (label : RetentionLabel) : Prop :=
  label = .crash → ∀ job ∈ tree.job, job.phase = .untouched

instance (tree : RetentionTree) (label : RetentionLabel) :
    Decidable (tree.CrashesBetween label) :=
  inferInstanceAs (Decidable
    (label = .crash → ∀ job ∈ tree.job, job.phase = .untouched))

/-- The label removes something of the data of a day. -/
def Removes (label : RetentionLabel) : Prop :=
  match label with
  | .unlink _ => True
  | .rmdir => True
  | _ => False

instance : (label : RetentionLabel) → Decidable (Removes label)
  | .unlink _ => isTrue trivial
  | .rmdir => isTrue trivial
  | .retain _ _ _ => isFalse id
  | .dropManifest => isFalse id
  | .crash => isFalse id
  | .release _ _ _ => isFalse id

/-- The releases which refer to a day that is removed are `*.json` files. -/
def ReleasesFound (tree : RetentionTree) (label : RetentionLabel) : Prop :=
  Removes label → ∀ job ∈ tree.job, ∀ entry ∈ tree.releases.entries,
    ∀ release ∈ entry.2, ∀ ref ∈ release.days, ref.day = job.day →
      GlobsJson entry.1

instance (tree : RetentionTree) (label : RetentionLabel) :
    Decidable (tree.ReleasesFound label) :=
  inferInstanceAs (Decidable (Removes label → ∀ job ∈ tree.job, _))

/-- No crash in the middle of a day, and no release out of sight. -/
def Harmless (tree : RetentionTree) (label : RetentionLabel) : Prop :=
  tree.CrashesBetween label ∧ tree.ReleasesFound label

instance (tree : RetentionTree) (label : RetentionLabel) :
    Decidable (tree.Harmless label) :=
  inferInstanceAs (Decidable (_ ∧ _))

/-- What has gone of the day of a job. -/
def Removed (start tree : RetentionTree) (job : RetentionJob) : Prop :=
  match job.phase with
  | .untouched => True
  | .removing => ∃ files left, start.data.get? job.day = some files ∧
      tree.data.get? job.day = some left ∧ left.length < files.length
  | .unsealing => (start.data.get? job.day).isSome ∧
      tree.data.get? job.day = none

/-- The days of a job are sealed and in no release which is found. -/
structure JobSound (start tree : RetentionTree) (job : RetentionJob) :
    Prop where
  distinct : (job.day :: job.rest).Nodup
  isSealed : ∀ day ∈ job.day :: job.rest, (tree.manifests.get? day).isSome
  unpinned : ∀ day ∈ job.day :: job.rest, ¬ tree.PinFound day
  removed : Removed start tree job

/-- Only the day of a job may have lost files. -/
structure Kept (start tree : RetentionTree) : Prop where
  isSealed : ∀ day, (tree.manifests.get? day).isSome →
    tree.data.get? day = start.data.get? day ∨
      ∃ job ∈ tree.job, job.day = day ∧ job.phase ≠ .untouched
  pinned : ∀ day, tree.Pinned day →
    tree.data.get? day = start.data.get? day
  job : ∀ job ∈ tree.job, JobSound start tree job

theorem Removed.ne
    {start tree : RetentionTree} {job : RetentionJob}
    (removed : Removed start tree job) (touched : job.phase ≠ .untouched) :
    tree.data.get? job.day ≠ start.data.get? job.day := by
  rw [Removed] at removed
  split at removed
  next untouched => exact absurd untouched touched
  next =>
    rcases removed with ⟨files, left, wasThere, isThere, shorter⟩
    rw [wasThere, isThere]
    rintro ⟨⟩
    exact lt_irrefl _ shorter
  next =>
    rw [removed.2]
    intro same
    rw [← same] at removed
    cases removed.1

namespace Kept

variable {start tree : RetentionTree}

theorem initially (idle : start.job = none) : Kept start start := by
  constructor
  · intro day _
    exact Or.inl rfl
  · intro day _
    rfl
  · intro job isJob
    rw [idle] at isJob
    cases isJob

theorem data_of_idle
    (kept : Kept start tree) (idle : tree.job = none) {day : RawDay}
    (isSealed : (tree.manifests.get? day).isSome) :
    tree.data.get? day = start.data.get? day := by
  rcases kept.isSealed day isSealed with same | ⟨job, isJob, _⟩
  · exact same
  · rw [idle] at isJob
    cases isJob

theorem intact (kept : Kept start tree) : Intact start tree :=
  ⟨fun idle _ => kept.data_of_idle idle, kept.pinned⟩

/-- What is removed is in no release. -/
theorem not_pinned
    (kept : Kept start tree) {job : RetentionJob} (isJob : tree.job = some job)
    {label : RetentionLabel} (found : tree.ReleasesFound label)
    (removes : Removes label) : ¬ tree.Pinned job.day := by
  rintro ⟨name, release, isRelease, ref, isRef, same⟩
  have isFile := found removes job isJob _
    (tree.releases.mem_entries_iff.mpr isRelease) release rfl ref isRef same
  exact (kept.job job isJob).unpinned job.day List.mem_cons_self
    ⟨name, release, isFile, isRelease, ref, isRef, same⟩

theorem data_of_untouched
    (kept : Kept start tree) {job : RetentionJob} (isJob : tree.job = some job)
    (untouched : job.phase = .untouched) :
    tree.data.get? job.day = start.data.get? job.day := by
  have isSealed := (kept.job job isJob).isSealed job.day List.mem_cons_self
  rcases kept.isSealed job.day isSealed with same | ⟨other, isOther, _, touched⟩
  · exact same
  · rw [isJob] at isOther
    cases isOther
    exact absurd untouched touched

/-- A job starts with days which have lost nothing. -/
theorem jobOf
    {days : List RawDay} (distinct : days.Nodup)
    (isSealed : ∀ day ∈ days, (tree.manifests.get? day).isSome)
    (unpinned : ∀ day ∈ days, ¬ tree.PinFound day) :
    ∀ job ∈ RetentionTree.jobOf days, JobSound start tree job := by
  intro job isJob
  cases days with
  | nil => cases isJob
  | cons day rest =>
      cases isJob
      exact ⟨distinct, isSealed, unpinned, trivial⟩

theorem retain
    (kept : Kept start tree) (idle : tree.job = none)
    {retentionDays today : Int} {days : List RawDay}
    (expired : tree.expiredUnpinnedDays retentionDays today = .ok days) :
    Kept start { tree with job := RetentionTree.jobOf days } := by
  rcases expiredUnpinnedDays_sound expired with ⟨distinct, sound⟩
  constructor
  · intro day isSealed
    exact Or.inl (kept.data_of_idle idle isSealed)
  · exact kept.pinned
  · exact Kept.jobOf distinct (fun day member => (sound day member).1)
      fun day member => (sound day member).2

/-- Whatever is removed is removed from the day of the job. -/
theorem remove
    (kept : Kept start tree) {job : RetentionJob} (isJob : tree.job = some job)
    (notPinned : ¬ tree.Pinned job.day)
    {data : Dict RawDay (List String)} {phase : RemovalPhase}
    (elsewhere : ∀ day, day ≠ job.day → data.get? day = tree.data.get? day)
    (touched : phase ≠ .untouched)
    (removed : Removed start { tree with data } { job with phase }) :
    Kept start { tree with data, job := some { job with phase } } := by
  have sound := kept.job job isJob
  constructor
  · intro day isSealed
    by_cases isDay : day = job.day
    · exact Or.inr ⟨{ job with phase }, rfl, isDay.symm, touched⟩
    · rcases kept.isSealed day isSealed with same | ⟨other, isOther, its, _⟩
      · exact Or.inl ((elsewhere day isDay).trans same)
      · rw [isJob] at isOther
        cases isOther
        exact absurd its.symm isDay
  · intro day isPinned
    have isOther : day ≠ job.day := by
      rintro rfl
      exact notPinned isPinned
    exact (elsewhere day isOther).trans (kept.pinned day isPinned)
  · rintro other ⟨⟩
    exact ⟨sound.distinct, sound.isSealed, sound.unpinned, removed⟩

theorem unlink
    (kept : Kept start tree) {job : RetentionJob} (isJob : tree.job = some job)
    (notPinned : ¬ tree.Pinned job.day)
    {files : List String} (isThere : tree.data.get? job.day = some files)
    (notGone : job.phase ≠ .unsealing) {file : String} (member : file ∈ files) :
    Kept start { tree with
      data := tree.data.set job.day (files.erase file)
      job := some { job with phase := .removing } } := by
  apply kept.remove isJob notPinned
  · intro day isOther
    rw [Dict.get?_set, if_neg isOther]
  · decide
  · have shorter : (files.erase file).length < files.length := by
      rw [List.length_erase_of_mem member]
      exact Nat.sub_one_lt (Nat.ne_of_gt (List.length_pos_of_mem member))
    have isLeft : (tree.data.set job.day (files.erase file)).get? job.day =
        some (files.erase file) := Dict.get?_set_self _ _ _
    have removed := (kept.job job isJob).removed
    cases isPhase : job.phase with
    | untouched =>
        have same := kept.data_of_untouched isJob isPhase
        exact ⟨files, _, same.symm.trans isThere, isLeft, shorter⟩
    | removing =>
        rw [Removed, isPhase] at removed
        rcases removed with ⟨all, left, wasThere, isThere', fewer⟩
        cases Option.some.inj (isThere.symm.trans isThere')
        exact ⟨all, _, wasThere, isLeft, shorter.trans fewer⟩
    | unsealing => exact absurd isPhase notGone

theorem rmdir
    (kept : Kept start tree) {job : RetentionJob} (isJob : tree.job = some job)
    (notPinned : ¬ tree.Pinned job.day)
    (isEmpty : tree.data.get? job.day = some [])
    (notGone : job.phase ≠ .unsealing) :
    Kept start { tree with
      data := tree.data.erase job.day
      job := some { job with phase := .unsealing } } := by
  apply kept.remove isJob notPinned
  · intro day isOther
    rw [Dict.get?_erase, if_neg isOther]
  · decide
  · have gone : (tree.data.erase job.day).get? job.day = none := by
      rw [Dict.get?_erase, if_pos rfl]
    have removed := (kept.job job isJob).removed
    cases isPhase : job.phase with
    | untouched =>
        have same := kept.data_of_untouched isJob isPhase
        exact ⟨by rw [← same, isEmpty]; rfl, gone⟩
    | removing =>
        rw [Removed, isPhase] at removed
        rcases removed with ⟨all, _, wasThere, _⟩
        exact ⟨by rw [wasThere]; rfl, gone⟩
    | unsealing => exact absurd isPhase notGone

theorem dropManifest
    (kept : Kept start tree) {job : RetentionJob}
    (isJob : tree.job = some job) :
    Kept start { tree with
      manifests := tree.manifests.erase job.day
      job := RetentionTree.jobOf job.rest } := by
  have sound := kept.job job isJob
  rcases List.nodup_cons.mp sound.distinct with ⟨notInRest, distinct⟩
  have elsewhere (day : RawDay) (isOther : day ≠ job.day) :
      (tree.manifests.erase job.day).get? day = tree.manifests.get? day := by
    rw [Dict.get?_erase, if_neg isOther]
  constructor
  · intro day isSealed
    left
    by_cases isDay : day = job.day
    · rw [Dict.get?_erase, if_pos isDay] at isSealed
      cases isSealed
    · rw [elsewhere day isDay] at isSealed
      rcases kept.isSealed day isSealed with same | ⟨other, isOther, its, _⟩
      · exact same
      · rw [isJob] at isOther
        cases isOther
        exact absurd its.symm isDay
  · exact kept.pinned
  · apply Kept.jobOf distinct
    · intro day member
      have isOther : day ≠ job.day := fun same => notInRest (same ▸ member)
      exact (elsewhere day isOther).symm ▸
        sound.isSealed day (List.mem_cons_of_mem _ member)
    · exact fun day member =>
        sound.unpinned day (List.mem_cons_of_mem _ member)

theorem crash
    (kept : Kept start tree) {job : RetentionJob} (isJob : tree.job = some job)
    (untouched : job.phase = .untouched) :
    Kept start { tree with job := none } := by
  constructor
  · intro day isSealed
    rcases kept.isSealed day isSealed with same | ⟨other, isOther, _, touched⟩
    · exact Or.inl same
    · rw [isJob] at isOther
      cases isOther
      exact absurd untouched touched
  · exact kept.pinned
  · rintro other ⟨⟩

theorem release
    (kept : Kept start tree) (idle : tree.job = none)
    {releaseId output : String} {days : List RawDay} {added : DatasetRelease}
    (completed : tree.newRelease releaseId days = .ok added) :
    Kept start { tree with
      releases := tree.releases.set output (some added) } := by
  constructor
  · exact kept.isSealed
  · rintro day ⟨name, release, isRelease, ref, isRef, rfl⟩
    rw [Dict.get?_set] at isRelease
    split at isRelease
    next =>
      cases isRelease
      exact kept.data_of_idle idle (newRelease_sealed completed isRef)
    next => exact kept.pinned _ ⟨name, release, isRelease, ref, isRef, rfl⟩
  · intro job isJob
    rw [idle] at isJob
    cases isJob

theorem step
    {after : RetentionTree} {label : RetentionLabel}
    (kept : Kept start tree) (harmless : tree.Harmless label)
    (stepped : tree.step label = some after) : Kept start after := by
  cases label with
  | retain retentionDays today apply =>
      simp only [RetentionTree.step] at stepped
      split at stepped
      next => cases stepped
      next idle =>
        split at stepped
        next =>
          cases stepped
          exact kept
        next days expired =>
          cases stepped
          split
          next => exact kept.retain idle expired
          next => exact kept
  | unlink file =>
      simp only [RetentionTree.step] at stepped
      split at stepped
      next => cases stepped
      next job isJob =>
        split at stepped
        next => cases stepped
        next files isThere =>
          split at stepped
          next possible =>
            cases stepped
            exact kept.unlink isJob (kept.not_pinned isJob harmless.2 trivial)
              isThere possible.1 possible.2
          next => cases stepped
  | rmdir =>
      simp only [RetentionTree.step] at stepped
      split at stepped
      next => cases stepped
      next job isJob =>
        split at stepped
        next possible =>
          cases stepped
          exact kept.rmdir isJob (kept.not_pinned isJob harmless.2 trivial)
            possible.2 possible.1
        next => cases stepped
  | dropManifest =>
      simp only [RetentionTree.step] at stepped
      split at stepped
      next => cases stepped
      next job isJob =>
        split at stepped
        next =>
          cases stepped
          exact kept.dropManifest isJob
        next => cases stepped
  | crash =>
      rcases Option.map_eq_some_iff.mp stepped with ⟨job, isJob, rfl⟩
      exact kept.crash isJob (harmless.1 rfl job isJob)
  | release releaseId days output =>
      simp only [RetentionTree.step] at stepped
      split at stepped
      next => cases stepped
      next idle =>
        split at stepped
        next =>
          cases stepped
          exact kept
        next added completed =>
          cases stepped
          exact kept.release idle completed

/-- A crash in the middle of a day leaves its manifest without its files. -/
theorem between_of_intact
    {after : RetentionTree} {label : RetentionLabel}
    (kept : Kept start tree) (stepped : tree.step label = some after)
    (intact : Intact start after) : tree.CrashesBetween label := by
  rintro rfl job isJob
  by_contra touched
  rcases Option.map_eq_some_iff.mp stepped with ⟨_, _, rfl⟩
  have sound := kept.job job isJob
  apply sound.removed.ne touched
  exact intact.isSealed rfl job.day
    (sound.isSealed job.day List.mem_cons_self)

/-- A removal changes what there is of the day. -/
theorem data_of_removes
    {after : RetentionTree} {label : RetentionLabel}
    (stepped : tree.step label = some after) (removes : Removes label)
    {job : RetentionJob} (isJob : tree.job = some job) :
    after.releases = tree.releases ∧
      after.data.get? job.day ≠ tree.data.get? job.day := by
  cases label with
  | unlink file =>
      simp only [RetentionTree.step, isJob] at stepped
      split at stepped
      next => cases stepped
      next files isThere =>
        split at stepped
        next possible =>
          cases stepped
          refine ⟨rfl, ?_⟩
          have shorter := List.length_erase_of_mem possible.2
          have positive := List.length_pos_of_mem possible.2
          rw [isThere, Dict.get?_set_self]
          intro same
          rw [Option.some.inj same] at shorter
          omega
        next => cases stepped
  | rmdir =>
      simp only [RetentionTree.step, isJob] at stepped
      split at stepped
      next possible =>
        cases stepped
        refine ⟨rfl, ?_⟩
        rw [possible.2, Dict.get?_erase, if_pos rfl]
        rintro ⟨⟩
      next => cases stepped
  | retain => exact absurd removes id
  | dropManifest => exact absurd removes id
  | crash => exact absurd removes id
  | release => exact absurd removes id

/-- A removal takes files of every release which refers to the day. -/
theorem found_of_intact
    {after : RetentionTree} {label : RetentionLabel}
    (kept : Kept start tree) (stepped : tree.step label = some after)
    (intact : Intact start after) : tree.ReleasesFound label := by
  intro removes job isJob entry isEntry release isRelease ref isRef same
  rcases data_of_removes stepped removes isJob with ⟨releases, changed⟩
  have isPinned : tree.Pinned job.day := by
    refine ⟨entry.1, release, ?_, ref, isRef, same⟩
    rw [← Option.mem_def.mp isRelease]
    exact tree.releases.mem_entries_iff.mp isEntry
  have still : after.Pinned job.day := by
    rw [Pinned, releases]
    exact isPinned
  exact absurd ((intact.pinned job.day still).trans
    (kept.pinned job.day isPinned).symm) changed

end Kept

/--
In every run of retentions, crashes and releases, the days of releases are
intact, and the sealed days whenever no command runs, if and only if no crash
comes between the first removal in the data of a day and the removal of its
manifest, and each release which refers to a day that is removed is found.
-/
theorem intact_iff
    {start final : RetentionTree} (idle : start.job = none)
    {labels : List RetentionLabel}
    (reached : runFrom step start labels = some final) :
    Throughout step (Intact start) start labels ↔
      StepsMeet step Harmless start labels :=
  throughout_iff_stepsMeet (fun _ _ _ kept between stepped =>
      kept.step between stepped)
    (fun _ kept => kept.intact)
    (fun _ _ _ kept stepped intact =>
      ⟨kept.between_of_intact stepped intact,
        kept.found_of_intact stepped intact⟩)
    (Kept.initially idle) reached

/-! ## Releases under the release root -/

/-- A release which is written is found later. -/
def OutputFound (_ : RetentionTree) (label : RetentionLabel) : Prop :=
  match label with
  | .release _ _ output => GlobsJson output
  | _ => True

/-- All releases are found. -/
def AllFound (tree : RetentionTree) : Prop :=
  ∀ name release, tree.releases.get? name = some release → GlobsJson name

theorem AllFound.step
    {tree after : RetentionTree} {label : RetentionLabel}
    (found : tree.AllFound) (output : tree.OutputFound label)
    (stepped : tree.step label = some after) : after.AllFound := by
  have unchanged : after.releases = tree.releases → after.AllFound := by
    intro same name release isRelease
    rw [same] at isRelease
    exact found name release isRelease
  cases label with
  | retain retentionDays today apply =>
      simp only [RetentionTree.step] at stepped
      split at stepped
      next => cases stepped
      next =>
        split at stepped
        next =>
          cases stepped
          exact found
        next =>
          cases stepped
          split
          next => exact found
          next => exact found
  | unlink file =>
      simp only [RetentionTree.step] at stepped
      split at stepped
      next => cases stepped
      next job isJob =>
        have whole : tree.step (.unlink file) = some after := by
          simp only [RetentionTree.step, isJob]
          exact stepped
        exact unchanged (Kept.data_of_removes whole trivial isJob).1
  | rmdir =>
      simp only [RetentionTree.step] at stepped
      split at stepped
      next => cases stepped
      next job isJob =>
        have whole : tree.step .rmdir = some after := by
          simp only [RetentionTree.step, isJob]
          exact stepped
        exact unchanged (Kept.data_of_removes whole trivial isJob).1
  | dropManifest =>
      simp only [RetentionTree.step] at stepped
      split at stepped
      next => cases stepped
      next =>
        split at stepped
        next =>
          cases stepped
          exact found
        next => cases stepped
  | crash =>
      rcases Option.map_eq_some_iff.mp stepped with ⟨_, _, rfl⟩
      exact found
  | release releaseId days output' =>
      simp only [RetentionTree.step] at stepped
      split at stepped
      next => cases stepped
      next =>
        split at stepped
        next =>
          cases stepped
          exact found
        next added _ =>
          cases stepped
          intro name release isRelease
          rw [Dict.get?_set] at isRelease
          split at isRelease
          next isName => exact isName ▸ output
          next => exact found name release isRelease

/-- Where all releases are written to `*.json`, only crashes do harm. -/
theorem releasesFound_of_outputs
    {start : RetentionTree} {labels : List RetentionLabel}
    (found : start.AllFound)
    (outputs : StepsMeet step OutputFound start labels) :
    StepsMeet step ReleasesFound start labels :=
  stepsMeet_of_invariant
    (fun _ _ _ found output stepped => AllFound.step found output stepped)
    (fun tree _ found _ _ _ entry isEntry _ _ _ _ _ =>
      found (entry : String × Option DatasetRelease).1 entry.2
        (tree.releases.mem_entries_iff.mp isEntry))
    found outputs

/-! ## A ghost of a day

The process ends when the directory of the first day is gone.  The next
retention does not see that day, and a release may still refer to it.
-/

def tokyoDay (utcDate : Int) : RawDay := ⟨"tokyo01", utcDate⟩

/-- Two sealed days, each with one file. -/
def sampleTree : RetentionTree where
  data := (Dict.empty.set (tokyoDay 20454) ["writer=depth/a.parquet"]).set
    (tokyoDay 20455) ["writer=depth/b.parquet"]
  manifests := (Dict.empty.set (tokyoDay 20454)
    ⟨"5e1f", some (tokyoDay 20454)⟩).set
      (tokyoDay 20455) ⟨"0a7c", some (tokyoDay 20455)⟩
  releases := Dict.empty

/-- The first day is removed, and the process ends before the second. -/
def betweenRun : List RetentionLabel :=
  [.retain 90 20676 true, .unlink "writer=depth/a.parquet", .rmdir,
    .dropManifest, .crash]

def ghostRun : List RetentionLabel :=
  [.retain 90 20676 true, .unlink "writer=depth/a.parquet", .rmdir, .crash,
    .retain 90 20545 true,
    .release "experiment-001" [tokyoDay 20454] "experiment-001.json"]

/-- A release to a file which is not found, and the retention after it. -/
def unseenRun : List RetentionLabel :=
  [.release "experiment-001" [tokyoDay 20454] "experiment-001",
    .retain 90 20545 true, .unlink "writer=depth/a.parquet", .rmdir,
    .dropManifest]

theorem sample_intact :
    Throughout step (Intact sampleTree) sampleTree betweenRun := by
  have isRun : (runFrom step sampleTree betweenRun).isSome := by
    decide +kernel
  rcases Option.isSome_iff_exists.mp isRun with ⟨final, reached⟩
  exact (intact_iff rfl reached).mpr (by decide +kernel)

/-- A release refers to a day without data. -/
theorem ghost_pinned :
    ∃ final, runFrom step sampleTree ghostRun = some final ∧
      final.job = none ∧ final.Pinned (tokyoDay 20454) ∧
      (final.manifests.get? (tokyoDay 20454)).isSome ∧
      final.data.get? (tokyoDay 20454) = none ∧
      ¬ Intact sampleTree final := by
  have seen : ∃ final ∈ runFrom step sampleTree ghostRun,
      final.job = none ∧
      final.manifests.get? (tokyoDay 20454) =
        some ⟨"5e1f", some (tokyoDay 20454)⟩ ∧
      final.data.get? (tokyoDay 20454) = none ∧
      final.releases.get? "experiment-001.json" =
        some (some ⟨"experiment-001", [⟨tokyoDay 20454, "5e1f"⟩]⟩) := by
    decide +kernel
  rcases seen with ⟨final, reached, idle, isSealed, gone, isRelease⟩
  have pinned : final.Pinned (tokyoDay 20454) :=
    ⟨_, _, isRelease, _, List.mem_cons_self, rfl⟩
  refine ⟨final, reached, idle, pinned, by rw [isSealed]; rfl, gone, ?_⟩
  intro intact
  have same := intact.pinned _ pinned
  rw [gone] at same
  revert same
  decide +kernel

/-- Without a crash the day of a release is removed. -/
theorem unseen_release_removed :
    ∃ final, runFrom step sampleTree unseenRun = some final ∧
      final.job = none ∧ final.Pinned (tokyoDay 20454) ∧
      final.data.get? (tokyoDay 20454) = none ∧
      ¬ Intact sampleTree final := by
  have seen : ∃ final ∈ runFrom step sampleTree unseenRun,
      final.job = none ∧ final.data.get? (tokyoDay 20454) = none ∧
      final.releases.get? "experiment-001" =
        some (some ⟨"experiment-001", [⟨tokyoDay 20454, "5e1f"⟩]⟩) := by
    decide +kernel
  rcases seen with ⟨final, reached, idle, gone, isRelease⟩
  have pinned : final.Pinned (tokyoDay 20454) :=
    ⟨_, _, isRelease, _, List.mem_cons_self, rfl⟩
  refine ⟨final, reached, idle, pinned, gone, ?_⟩
  intro intact
  have same := intact.pinned _ pinned
  rw [gone] at same
  revert same
  decide +kernel

end RetentionTree

end ShadowDataPlane.Central
