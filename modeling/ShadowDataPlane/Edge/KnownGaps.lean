import ShadowDataPlane.Edge.StoragePause

/-!
# What the service knows of open gaps

The service keeps the ID of its storage gap and the list of the gaps which the
boot found open, which it closes one by one when the sources are ready.  A step
of the service leaves alone every open gap which it does not know, and forgets
none which is still open (`service_cases`, `ServiceMove.of_unknown`,
`ServiceMove.known`).  So what is in `open-gaps` beyond these is up to the
tasks.
-/

namespace ShadowDataPlane.Edge

open ShadowDataPlane.Contracts
open ShadowDataPlane.Foundation

/-! ## Phases of the service -/

namespace PausePhase

/-- The process is gone, or has not started anything. -/
def Booting : PausePhase → Bool
  | .down | .recover | .bootStatus => true
  | .bootReady | .bootTimeout | .bootStale _ | .waiting | .openGap
  | .stopSources | .loopReady | .loopTimeout | .loopStale _ | .closeGap
  | .stopping => false

/-- The boot has read the open gaps, and the process is not about to end. -/
def Serving : PausePhase → Bool
  | .down | .recover | .stopping => false
  | .bootStatus | .bootReady | .bootTimeout | .bootStale _ | .waiting
  | .openGap | .stopSources | .loopReady | .loopTimeout | .loopStale _
  | .closeGap => true

/-- The gaps which `_close_stale_gaps` still has to close. -/
def closing : PausePhase → List StaleGap
  | .bootStale rest | .loopStale rest => rest
  | .down | .recover | .bootStatus | .bootReady | .bootTimeout | .waiting
  | .openGap | .stopSources | .loopReady | .loopTimeout | .closeGap
  | .stopping => []

end PausePhase

/-- The stale gaps, whether or not they are being closed. -/
def PauseState.listed (service : PauseState) : List String :=
  (service.staleGaps ++ service.phase.closing).map Prod.fst

/-- The gap has a state file. -/
def IsOpen (gaps : Dict String GapReason) (gapId : String) : Prop :=
  (gaps.get? gapId).isSome

instance (gaps : Dict String GapReason) (gapId : String) :
    Decidable (IsOpen gaps gapId) :=
  inferInstanceAs (Decidable (_ = true))

/-! ## Steps of the service -/

theorem isOpen_set
    {gaps : Dict String GapReason} {gapId other : String}
    {reason : GapReason} :
    IsOpen (gaps.set gapId reason) other ↔
      other = gapId ∨ IsOpen gaps other := by
  rw [IsOpen, Dict.get?_set]
  split
  next same => exact iff_of_true rfl (Or.inl same)
  next apart => exact (or_iff_right apart).symm

theorem isOpen_erase
    {gaps : Dict String GapReason} {gapId other : String} :
    IsOpen (gaps.erase gapId) other ↔
      other ≠ gapId ∧ IsOpen gaps other := by
  rw [IsOpen, Dict.get?_erase]
  split
  next same => exact iff_of_false (by rintro ⟨⟩) fun isOpen => isOpen.1 same
  next apart => exact (and_iff_right apart).symm

/-- What the service does to the gaps which it knows. -/
inductive ServiceMove (before after : PauseState) : Prop where
  | idle (sameGaps : after.gaps = before.gaps)
      (sameStorage : after.storageGapId = before.storageGapId)
      (fewer : ∀ gapId ∈ after.listed, gapId ∈ before.listed)
      (keeps : after.phase.Serving = true →
        ∀ gapId ∈ before.listed, gapId ∈ after.listed)
  | openedStorage (gapId : String) (new : before.gaps.get? gapId = none)
      (noStorage : before.storageGapId = none)
      (isGaps : after.gaps = before.gaps.set gapId .storageExhausted)
      (isStorage : after.storageGapId = some gapId)
      (sameListed : after.listed = before.listed)
  | closedStorage (gapId : String)
      (wasStorage : before.storageGapId = some gapId)
      (isGaps : after.gaps = before.gaps.erase gapId)
      (noStorage : after.storageGapId = none)
      (sameListed : after.listed = before.listed)
  | closedStale (gapId : String)
      (other : before.storageGapId ≠ some gapId)
      (isGaps : after.gaps = before.gaps.erase gapId)
      (sameStorage : after.storageGapId = before.storageGapId)
      (isListed : ∀ other, other ∈ before.listed ↔
        other = gapId ∨ other ∈ after.listed)
  | passedStale (gapId : String)
      (isStorage : before.storageGapId = some gapId)
      (sameGaps : after.gaps = before.gaps)
      (sameStorage : after.storageGapId = before.storageGapId)
      (isListed : ∀ other, other ∈ before.listed ↔
        other = gapId ∨ other ∈ after.listed)

/-- A step within one process. -/
structure ServiceStep (before after : PauseState) : Prop where
  move : ServiceMove before after
  serving : after.phase.Serving = true → before.phase.Serving = true
  booting : after.phase.Booting = true → before.phase.Booting = true
  openGap : after.phase = .openGap → after.storageGapId = none

/-- The boot has read all open gaps. -/
structure Loaded (service : PauseState) : Prop where
  booting : service.phase.Booting = true
  storage : ∀ gapId, service.storageGapId = some gapId →
    IsOpen service.gaps gapId
  listed : service.phase.Serving = true →
    ∀ gapId, IsOpen service.gaps gapId → gapId ∈ service.listed

theorem Loaded.gone (service : PauseState) : Loaded service.gone where
  booting := rfl
  storage := by rintro gapId ⟨⟩
  listed := by rintro ⟨⟩

namespace ServiceStep

variable {before after : PauseState}

/-- Nothing happens to the gaps, and none is being closed. -/
theorem kept
    {phase : PausePhase} (isPhase : before.phase = phase)
    (sameGaps : after.gaps = before.gaps)
    (sameStorage : after.storageGapId = before.storageGapId)
    (sameStale : after.staleGaps = before.staleGaps)
    (noneBefore : phase.closing = []) (noneAfter : after.phase.closing = [])
    (serving : phase.Serving = true)
    (notBooting : after.phase.Booting = false)
    (openGap : after.phase = .openGap → after.storageGapId = none) :
    ServiceStep before after where
  move := by
    have sameListed : after.listed = before.listed := by
      rw [PauseState.listed, PauseState.listed, sameStale, isPhase, noneBefore,
        noneAfter]
    exact .idle sameGaps sameStorage
      (fun gapId member => sameListed ▸ member)
      (fun _ gapId member => sameListed ▸ member)
  serving _ := isPhase ▸ serving
  booting isBooting := absurd (notBooting.symm.trans isBooting) (by rintro ⟨⟩)
  openGap := openGap

/-- The service stays where it is. -/
theorem unmoved
    (samePhase : after.phase = before.phase)
    (sameGaps : after.gaps = before.gaps)
    (sameStorage : after.storageGapId = before.storageGapId)
    (sameStale : after.staleGaps = before.staleGaps)
    (openGap : before.phase = .openGap → before.storageGapId = none) :
    ServiceStep before after where
  move := by
    have sameListed : after.listed = before.listed := by
      rw [PauseState.listed, PauseState.listed, sameStale, samePhase]
    exact .idle sameGaps sameStorage
      (fun gapId member => sameListed ▸ member)
      (fun _ gapId member => sameListed ▸ member)
  serving serving := samePhase ▸ serving
  booting booting := samePhase ▸ booting
  openGap isOpenGap := sameStorage ▸ openGap (samePhase ▸ isOpenGap)

/-- The process is about to end. -/
theorem stopping
    (isStopping : after.phase = .stopping)
    (sameGaps : after.gaps = before.gaps)
    (sameStorage : after.storageGapId = before.storageGapId)
    (sameStale : after.staleGaps = before.staleGaps) :
    ServiceStep before after where
  move := by
    refine .idle sameGaps sameStorage ?_ ?_
    · intro gapId member
      rw [PauseState.listed, sameStale, isStopping, PausePhase.closing,
        List.append_nil] at member
      rw [PauseState.listed, List.map_append]
      exact List.mem_append_left _ member
    · rw [isStopping]
      rintro ⟨⟩
  serving := by
    rw [isStopping]
    rintro ⟨⟩
  booting := by
    rw [isStopping]
    rintro ⟨⟩
  openGap := by
    rw [isStopping]
    rintro ⟨⟩

theorem startSources
    {service : PauseState} {phase next : PausePhase}
    (isPhase : before.phase = phase)
    (sameGaps : service.gaps = before.gaps)
    (sameStorage : service.storageGapId = before.storageGapId)
    (sameStale : service.staleGaps = before.staleGaps)
    (noneBefore : phase.closing = []) (noneAfter : next.closing = [])
    (serving : phase.Serving = true) (notBooting : next.Booting = false)
    (notOpenGap : next ≠ .openGap) :
    ServiceStep before (service.startSources next) := by
  rw [PauseState.startSources]
  split
  next => exact stopping rfl sameGaps sameStorage sameStale
  next =>
    exact kept isPhase sameGaps sameStorage sameStale noneBefore noneAfter
      serving notBooting fun isOpenGap => absurd isOpenGap notOpenGap

theorem check
    {service : PauseState} (isWaiting : service.phase = .waiting)
    (hardLimited : Bool) : ServiceStep service (service.check hardLimited) := by
  unfold PauseState.check
  split
  next => exact stopping rfl rfl rfl rfl
  next =>
    split
    next noStorage =>
      exact kept isWaiting rfl rfl rfl rfl rfl rfl rfl fun _ => noStorage
    next => exact kept isWaiting rfl rfl rfl rfl rfl rfl rfl (by rintro ⟨⟩)
    next noStorage =>
      refine kept isWaiting rfl rfl rfl rfl ?_ rfl ?_ fun _ => noStorage
      · rw [isWaiting]
        rfl
      · rw [isWaiting]
        rfl
    next =>
      split
      next => exact kept isWaiting rfl rfl rfl rfl rfl rfl rfl (by rintro ⟨⟩)
      next =>
        exact startSources isWaiting rfl rfl rfl rfl rfl rfl rfl
          (by rintro ⟨⟩)

/-- The sources are ready, and what is stale is being closed. -/
theorem becomeReady
    {service : PauseState} {phase : PausePhase}
    {closing : List StaleGap → PausePhase} (isPhase : service.phase = phase)
    (noneBefore : phase.closing = [])
    (isClosing : ∀ rest, (closing rest).closing = rest)
    (serving : phase.Serving = true)
    (notBooting : ∀ rest, (closing rest).Booting = false)
    (notOpenGap : ∀ rest, closing rest ≠ .openGap) :
    ServiceStep service (service.becomeReady false closing) := by
  have sameListed : (service.becomeReady false closing).listed =
      service.listed := by
    rw [PauseState.listed, PauseState.listed, isPhase, noneBefore,
      List.append_nil]
    exact congrArg (List.map Prod.fst) (isClosing _)
  exact {
    move := .idle rfl rfl (fun gapId member => sameListed ▸ member)
      (fun _ gapId member => sameListed ▸ member)
    serving := fun _ => isPhase ▸ serving
    booting := fun isBooting =>
      absurd ((notBooting _).symm.trans isBooting) (by rintro ⟨⟩)
    openGap := fun isOpenGap => absurd isOpenGap (notOpenGap _) }

/-- The stale gaps are closed one by one, except the storage gap. -/
theorem closeStale
    {service : PauseState} {phase done : PausePhase}
    {more : List StaleGap → PausePhase} {rest : List StaleGap}
    (isPhase : service.phase = phase) (isRest : phase.closing = rest)
    (noneDone : done.closing = []) (isMore : ∀ left, (more left).closing = left)
    (serving : phase.Serving = true) (notBooting : done.Booting = false)
    (moreNotBooting : ∀ left, (more left).Booting = false)
    (notDone : done ≠ .openGap) (notMore : ∀ left, more left ≠ .openGap) :
    ServiceStep service (service.closeStale done more rest) := by
  cases rest with
  | nil =>
      exact kept isPhase rfl rfl rfl isRest noneDone serving notBooting
        fun isOpenGap => absurd isOpenGap notDone
  | cons gap rest =>
      have goesOn {after : PauseState} (isMoving : after.phase = more rest)
          (move : ServiceMove service after) : ServiceStep service after := by
        refine ⟨move, fun _ => isPhase ▸ serving, ?_, ?_⟩
        · rw [isMoving, moreNotBooting]
          rintro ⟨⟩
        · rw [isMoving]
          exact fun isOpenGap => absurd isOpenGap (notMore rest)
      have isListed {after : PauseState} (isMoving : after.phase = more rest)
          (sameStale : after.staleGaps = service.staleGaps) (other : String) :
          other ∈ service.listed ↔
            other = gap.1 ∨ other ∈ after.listed := by
        rw [PauseState.listed, PauseState.listed, sameStale, isMoving, isPhase,
          isRest, isMore]
        simp only [List.map_append, List.map_cons, List.mem_append,
          List.mem_cons]
        exact or_left_comm
      rw [PauseState.closeStale]
      split
      next isStorage =>
        exact goesOn rfl
          (.passedStale gap.1 isStorage.symm rfl rfl (isListed rfl rfl))
      next other =>
        exact goesOn rfl
          (.closedStale gap.1 (Ne.symm other) rfl rfl (isListed rfl rfl))

end ServiceStep

/-- The gaps which a boot finds are the stale ones. -/
theorem Loaded.recoverGaps
    (service : PauseState) (gaps : Dict String GapReason) :
    Loaded (service.recoverGaps gaps) := by
  have listed_iff (gap : StaleGap) :
      gap ∈ staleGapsOf gaps ↔ gaps.get? gap.1 = some gap.2 := by
    rw [staleGapsOf, (List.perm_insertionSort _ _).mem_iff]
    exact Dict.mem_entries_iff _
  exact {
    booting := rfl
    storage := by
      intro gapId isStorage
      rcases Option.map_eq_some_iff.mp isStorage with ⟨gap, found, rfl⟩
      have isGap := (listed_iff gap).mp (List.mem_of_find?_eq_some found)
      show (gaps.get? gap.1).isSome
      rw [isGap]
      rfl
    listed := by
      intro _ gapId isOpen
      rcases Option.isSome_iff_exists.mp isOpen with ⟨reason, found⟩
      apply List.mem_map_of_mem (f := Prod.fst) (a := (gapId, reason))
      exact List.mem_append_left _ ((listed_iff _).mpr found) }

/-- What a step of the service itself does. -/
theorem service_cases
    {service after : PauseState} {label : PauseLabel}
    (own : label.Own = true)
    (storage : ∀ gapId, service.storageGapId = some gapId →
      IsOpen service.gaps gapId)
    (openGap : service.phase = .openGap → service.storageGapId = none)
    (stepped : pauseStep service label = some after) :
    Loaded after ∨ ServiceStep service after := by
  cases pauseStep_effect stepped with
  | boot => exact Or.inl ⟨rfl, storage, by rintro ⟨⟩⟩
  | recoverClean | recoverOpens => exact Or.inl (Loaded.recoverGaps _ _)
  | fails | openedStopped | bootStopped | ends | crash =>
      exact Or.inl (Loaded.gone _)
  | bootLimited isPhase | bootTimeout isPhase | loopTimeout isPhase
  | paused isPhase | retries isPhase =>
      exact Or.inr (.kept isPhase rfl rfl rfl rfl rfl rfl rfl (by rintro ⟨⟩))
  | bootStarts isPhase =>
      exact Or.inr (.startSources isPhase rfl rfl rfl rfl rfl rfl rfl
        (by rintro ⟨⟩))
  | @checks hardLimited isPhase => exact Or.inr (.check isPhase hardLimited)
  | bootReady _ isPhase | loopReady _ isPhase =>
      exact Or.inr (.becomeReady isPhase rfl (fun _ => rfl) rfl
        (fun _ => rfl) (by rintro _ ⟨⟩))
  | loopFails | stops => exact Or.inr (.stopping rfl rfl rfl rfl)
  | @openedStorage gapId unopened isPhase =>
      refine Or.inr {
        move := .openedStorage gapId unopened (openGap isPhase) rfl rfl ?_
        serving := ?_
        booting := by rintro ⟨⟩
        openGap := by rintro ⟨⟩ }
      · rw [PauseState.listed, PauseState.listed, isPhase]
        rfl
      · rw [isPhase]
        exact fun _ => rfl
  | bootCloses isPhase | loopCloses isPhase =>
      exact Or.inr (.closeStale isPhase rfl rfl (fun _ => rfl) rfl rfl
        (fun _ => rfl) (by rintro ⟨⟩) (by rintro _ ⟨⟩))
  | @closesStorage gapId isPhase isStorage =>
      refine Or.inr {
        move := .closedStorage gapId isStorage rfl rfl ?_
        serving := ?_
        booting := by rintro ⟨⟩
        openGap := by rintro ⟨⟩ }
      · rw [PauseState.listed, PauseState.listed, isPhase]
        rfl
      · rw [isPhase]
        exact fun _ => rfl
  | sourceFails => exact Or.inr (.unmoved rfl rfl rfl rfl openGap)
  | @discovery label =>
      cases label <;> exact Or.inr (.unmoved rfl rfl rfl rfl openGap)
  | openOther | closeOther => cases own

namespace ServiceMove

variable {before after : PauseState} {gapId : String}

/-- An open gap which the service does not know stays as it is. -/
theorem of_unknown
    (move : ServiceMove before after) (isOpen : IsOpen before.gaps gapId)
    (notStorage : before.storageGapId ≠ some gapId)
    (notListed : gapId ∉ before.listed) :
    IsOpen after.gaps gapId ∧ after.storageGapId ≠ some gapId ∧
      gapId ∉ after.listed := by
  cases move with
  | idle sameGaps sameStorage fewer keeps =>
      rw [sameGaps, sameStorage]
      exact ⟨isOpen, notStorage, fun member => notListed (fewer gapId member)⟩
  | openedStorage other new noStorage isGaps isStorage sameListed =>
      rw [isGaps, isStorage, sameListed, isOpen_set]
      refine ⟨Or.inr isOpen, ?_, notListed⟩
      rintro ⟨⟩
      rw [IsOpen, new] at isOpen
      cases isOpen
  | closedStorage other wasStorage isGaps noStorage sameListed =>
      rw [isGaps, noStorage, sameListed, isOpen_erase]
      refine ⟨⟨?_, isOpen⟩, ?_, notListed⟩
      · rintro rfl
        exact notStorage wasStorage
      · rintro ⟨⟩
  | closedStale other _ isGaps sameStorage isListed =>
      rw [isGaps, sameStorage, isOpen_erase]
      rw [isListed, not_or] at notListed
      exact ⟨⟨notListed.1, isOpen⟩, notStorage, notListed.2⟩
  | passedStale other isStorage sameGaps sameStorage isListed =>
      rw [sameGaps, sameStorage]
      rw [isListed, not_or] at notListed
      exact ⟨isOpen, notStorage, notListed.2⟩

/-- The storage gap is open. -/
theorem storage
    (move : ServiceMove before after)
    (wasOpen : ∀ gapId, before.storageGapId = some gapId →
      IsOpen before.gaps gapId)
    (isStorage : after.storageGapId = some gapId) :
    IsOpen after.gaps gapId := by
  cases move with
  | idle sameGaps sameStorage fewer keeps =>
      rw [sameGaps]
      exact wasOpen gapId (sameStorage ▸ isStorage)
  | openedStorage other new noStorage isGaps isOther sameListed =>
      cases isOther.symm.trans isStorage
      rw [isGaps]
      exact isOpen_set.mpr (Or.inl rfl)
  | closedStorage other wasStorage isGaps noStorage sameListed =>
      cases noStorage.symm.trans isStorage
  | closedStale other notOther isGaps sameStorage isListed =>
      rw [sameStorage] at isStorage
      rw [isGaps]
      refine isOpen_erase.mpr ⟨?_, wasOpen gapId isStorage⟩
      rintro rfl
      exact notOther isStorage
  | passedStale other _ sameGaps sameStorage isListed =>
      rw [sameGaps]
      exact wasOpen gapId (sameStorage ▸ isStorage)

/-- What is still open was open and is still known, or the service opened it. -/
theorem known
    (move : ServiceMove before after)
    (serving : after.phase.Serving = true) (isOpen : IsOpen after.gaps gapId) :
    after.storageGapId = some gapId ∨
      IsOpen before.gaps gapId ∧
        (before.storageGapId = some gapId ∨ gapId ∈ before.listed →
          after.storageGapId = some gapId ∨ gapId ∈ after.listed) := by
  cases move with
  | idle sameGaps sameStorage fewer keeps =>
      rw [sameGaps] at isOpen
      rw [sameStorage]
      exact Or.inr ⟨isOpen, Or.imp id (keeps serving gapId)⟩
  | openedStorage other new noStorage isGaps isStorage sameListed =>
      rw [isGaps, isOpen_set] at isOpen
      rw [isStorage, sameListed, noStorage]
      rcases isOpen with rfl | isOpen
      · exact Or.inl rfl
      · exact Or.inr ⟨isOpen, Or.imp (by rintro ⟨⟩) id⟩
  | closedStorage other wasStorage isGaps noStorage sameListed =>
      rw [isGaps, isOpen_erase] at isOpen
      rw [wasStorage, noStorage, sameListed]
      refine Or.inr ⟨isOpen.2, Or.imp ?_ id⟩
      rintro ⟨⟩
      exact absurd rfl isOpen.1
  | closedStale other _ isGaps sameStorage isListed =>
      rw [isGaps, isOpen_erase] at isOpen
      rw [sameStorage, isListed]
      exact Or.inr ⟨isOpen.2, Or.imp id fun listed =>
        listed.resolve_left isOpen.1⟩
  | passedStale other isStorage sameGaps sameStorage isListed =>
      rw [sameGaps] at isOpen
      rw [sameStorage, isListed]
      refine Or.inr ⟨isOpen, ?_⟩
      rintro (isOther | rfl | listed)
      · exact Or.inl isOther
      · exact Or.inl isStorage
      · exact Or.inr listed

end ServiceMove

end ShadowDataPlane.Edge
