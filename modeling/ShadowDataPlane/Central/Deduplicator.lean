import Mathlib.Data.List.Induction
import Mathlib.Data.List.Sort
import ShadowDataPlane.Foundation.Dict

/-!
# The deduplicator

`_Deduplicator` remembers the identities of the events of the last ten minutes.
Ten minutes are counted back from the latest receive time of any event observed
so far, and an identity is as old as the copy of it which was observed last.

A heap is kept as the list it pops, by time; the order of equal times does not
matter.  Identity keys and payload hashes are kept by value.
-/

namespace ShadowDataPlane.Central

open ShadowDataPlane.Foundation

/-- `DEDUP_WINDOW_NS`. -/
def dedupWindowNs : Nat := 600 * 1000000000

variable {κ π : Type} [DecidableEq κ]

/-- One observed event. -/
structure Observation (κ π : Type) where
  key : κ
  payloadHash : π
  observedNs : Nat
deriving DecidableEq

/-- The payloads seen within the window, and when to forget them. -/
structure Deduplicator (κ π : Type) [DecidableEq κ] where
  seen : Dict κ (π × Nat) := Dict.empty
  timeline : List (Nat × κ) := []
  watermarkNs : Nat := 0

/-- `heapq.heappush`. -/
def heappush (timeline : List (Nat × κ)) (entry : Nat × κ) : List (Nat × κ) :=
  timeline.orderedInsert (fun left right => left.1 ≤ right.1) entry

/-- Forget an identity unless a later copy of it was observed. -/
def forget (seen : Dict κ (π × Nat)) (observedNs : Nat) (key : κ) :
    Dict κ (π × Nat) :=
  match seen.get? key with
  | none => seen
  | some current => if current.2 = observedNs then seen.erase key else seen

/-- `_prune`. -/
def pruneBefore (cutoffNs : Int) :
    List (Nat × κ) → Dict κ (π × Nat) → List (Nat × κ) × Dict κ (π × Nat)
  | [], seen => ([], seen)
  | (observedNs, key) :: rest, seen =>
      if (observedNs : Int) < cutoffNs then
        pruneBefore cutoffNs rest (forget seen observedNs key)
      else ((observedNs, key) :: rest, seen)

namespace Deduplicator

/-- `_prune`, after the watermark was raised. -/
def pruned (dedup : Deduplicator κ π) (observedNs : Nat) :
    Deduplicator κ π :=
  let watermarkNs := max dedup.watermarkNs observedNs
  let kept := pruneBefore ((watermarkNs : Int) - dedupWindowNs) dedup.timeline
    dedup.seen
  { seen := kept.2, timeline := kept.1, watermarkNs }

/-- Remember an event. -/
def remember (dedup : Deduplicator κ π) (event : Observation κ π) :
    Deduplicator κ π :=
  { dedup with
    seen := dedup.seen.set event.key (event.payloadHash, event.observedNs)
    timeline := heappush dedup.timeline (event.observedNs, event.key) }

/-- `observe`; it fails for an identity with two payloads. -/
def observe [DecidableEq π] (dedup : Deduplicator κ π) (event : Observation κ π) :
    Except κ (Bool × Deduplicator κ π) :=
  let after := dedup.pruned event.observedNs
  match after.seen.get? event.key with
  | none => .ok (false, after.remember event)
  | some previous =>
      if previous.1 ≠ event.payloadHash then .error event.key
      else .ok (true, after.remember event)

/-- `load`: what a checkpoint lists is remembered, nothing is pruned. -/
def load (entries : List (Observation κ π)) : Deduplicator κ π :=
  entries.foldl (fun dedup entry =>
    { dedup.remember entry with
      watermarkNs := max dedup.watermarkNs entry.observedNs }) {}

/-- `checkpoint`, without the order of its entries. -/
def checkpoint (dedup : Deduplicator κ π) (dayEndNs : Nat) :
    List (Observation κ π) :=
  (dedup.seen.entries.filter fun entry =>
    (dayEndNs : Int) - dedupWindowNs ≤ entry.2.2).map fun entry =>
      ⟨entry.1, entry.2.1, entry.2.2⟩

end Deduplicator

/-! ## Copies -/

/-- The payload and the time of the last copy of an identity. -/
def lastCopy (history : List (Observation κ π)) (key : κ) :
    Option (π × Nat) :=
  history.foldl (fun last event =>
    if event.key = key then some (event.payloadHash, event.observedNs)
    else last) none

@[simp]
theorem lastCopy_nil (key : κ) :
    lastCopy ([] : List (Observation κ π)) key = none := rfl

theorem lastCopy_concat
    (history : List (Observation κ π)) (event : Observation κ π) (key : κ) :
    lastCopy (history ++ [event]) key =
      if event.key = key then some (event.payloadHash, event.observedNs)
      else lastCopy history key := by
  simp only [lastCopy, List.foldl_append, List.foldl_cons, List.foldl_nil]

/-- The last copy is one of the events. -/
theorem exists_of_lastCopy
    {history : List (Observation κ π)} {key : κ} {copy : π × Nat}
    (last : lastCopy history key = some copy) :
    ⟨key, copy.1, copy.2⟩ ∈ history := by
  induction history using List.reverseRecOn with
  | nil => cases last
  | append_singleton history event induction =>
      rw [lastCopy_concat] at last
      split at last
      next same =>
        cases last
        rw [← same]
        exact List.mem_append_right _ (List.mem_singleton_self _)
      next => exact List.mem_append_left _ (induction last)

theorem lastCopy_isSome_iff
    {history : List (Observation κ π)} {key : κ} :
    (lastCopy history key).isSome ↔ ∃ event ∈ history, event.key = key := by
  induction history using List.reverseRecOn with
  | nil => simp
  | append_singleton history event induction =>
      rw [lastCopy_concat]
      split
      next same => simp [same]
      next different => simp [different, induction]

/-! ## Pruning -/

theorem get?_forget
    (seen : Dict κ (π × Nat)) (observedNs : Nat) (key other : κ) :
    (forget seen observedNs key).get? other =
      if other = key ∧ ∃ copy ∈ seen.get? key, copy.2 = observedNs then none
      else seen.get? other := by
  unfold forget
  split
  next absent => simp [absent]
  next current present =>
    split
    next same =>
      rw [Dict.get?_erase]
      simp [present, same]
    next later => simp [present, later]

/-- Whether a copy is kept when everything before a cutoff is forgotten. -/
def Fresh (cutoffNs : Int) (copy : π × Nat) : Prop :=
  cutoffNs ≤ copy.2

instance (cutoffNs : Int) (copy : π × Nat) : Decidable (Fresh cutoffNs copy) :=
  inferInstanceAs (Decidable (_ ≤ _))

/-- Every identity is on the timeline, with the time of its last copy. -/
def Scheduled (timeline : List (Nat × κ)) (seen : Dict κ (π × Nat)) : Prop :=
  ∀ key copy, seen.get? key = some copy → (copy.2, key) ∈ timeline

def TimeSorted (timeline : List (Nat × κ)) : Prop :=
  timeline.Pairwise fun left right => left.1 ≤ right.1

theorem get?_pruneBefore
    {cutoffNs : Int} {timeline : List (Nat × κ)} {seen : Dict κ (π × Nat)}
    (sorted : TimeSorted timeline)
    (scheduled : ∀ key copy, seen.get? key = some copy →
      ¬ Fresh cutoffNs copy → (copy.2, key) ∈ timeline) (key : κ) :
    (pruneBefore cutoffNs timeline seen).2.get? key =
      (seen.get? key).filter fun copy => Fresh cutoffNs copy := by
  induction timeline generalizing seen with
  | nil =>
      cases isSeen : seen.get? key with
      | none => simp [pruneBefore, isSeen]
      | some copy =>
          have fresh : Fresh cutoffNs copy := by
            by_contra stale
            cases scheduled key copy isSeen stale
          rw [pruneBefore, isSeen, Option.filter_some,
            if_pos (decide_eq_true fresh)]
  | cons entry rest induction =>
      rcases entry with ⟨observedNs, other⟩
      rcases List.pairwise_cons.mp sorted with ⟨first, restSorted⟩
      rw [pruneBefore]
      split
      next stale =>
        rw [induction restSorted, get?_forget]
        · split
          next popped =>
            rcases popped with ⟨rfl, copy, isSeen, same⟩
            rw [Option.mem_def.mp isSeen, Option.filter_some, if_neg]
            · rfl
            · rw [decide_eq_true_eq, Fresh, same]
              omega
          next => rfl
        · intro name copy isSeen old
          rw [get?_forget] at isSeen
          split at isSeen
          next => cases isSeen
          next kept =>
            rcases List.mem_cons.mp (scheduled name copy isSeen old) with
              isHead | inRest
            · rcases Prod.mk.inj isHead with ⟨sameTime, rfl⟩
              exact absurd ⟨rfl, copy, isSeen, sameTime⟩ kept
            · exact inRest
      next notStale =>
        cases isSeen : seen.get? key with
        | none => rfl
        | some copy =>
            have fresh : Fresh cutoffNs copy := by
              by_contra old
              rcases List.mem_cons.mp (scheduled key copy isSeen old) with
                isHead | inRest
              · rw [Fresh, (Prod.mk.inj isHead).1] at old
                omega
              · have later := first _ inRest
                rw [Fresh] at old
                dsimp only at later
                omega
            rw [Option.filter_some, if_pos (decide_eq_true fresh)]

theorem mem_pruneBefore
    {cutoffNs : Int} {timeline : List (Nat × κ)} {seen : Dict κ (π × Nat)}
    {entry : Nat × κ} (member : entry ∈ timeline)
    (fresh : cutoffNs ≤ entry.1) :
    entry ∈ (pruneBefore cutoffNs timeline seen).1 := by
  induction timeline generalizing seen with
  | nil => cases member
  | cons head rest induction =>
      rcases head with ⟨observedNs, other⟩
      rw [pruneBefore]
      split
      next stale =>
        rcases List.mem_cons.mp member with rfl | inRest
        · dsimp only at fresh
          omega
        · exact induction inRest
      next => exact member

theorem timeSorted_pruneBefore
    {timeline : List (Nat × κ)} (sorted : TimeSorted timeline)
    (cutoffNs : Int) (seen : Dict κ (π × Nat)) :
    TimeSorted (pruneBefore cutoffNs timeline seen).1 := by
  induction timeline generalizing seen with
  | nil => exact sorted
  | cons head rest induction =>
      rcases head with ⟨observedNs, other⟩
      rw [pruneBefore]
      split
      next => exact induction (List.pairwise_cons.mp sorted).2 _
      next => exact sorted

omit [DecidableEq κ] in
theorem mem_heappush_iff
    {timeline : List (Nat × κ)} {entry other : Nat × κ} :
    other ∈ heappush timeline entry ↔ other = entry ∨ other ∈ timeline :=
  List.mem_orderedInsert _

omit [DecidableEq κ] in
theorem timeSorted_heappush
    {timeline : List (Nat × κ)} (sorted : TimeSorted timeline)
    (entry : Nat × κ) : TimeSorted (heappush timeline entry) := by
  have total : Std.Total fun left right : Nat × κ => left.1 ≤ right.1 :=
    ⟨fun left right => le_total left.1 right.1⟩
  have trans : IsTrans (Nat × κ) fun left right => left.1 ≤ right.1 :=
    ⟨fun _ _ _ first second => le_trans first second⟩
  exact List.Pairwise.orderedInsert entry timeline sorted

theorem scheduled_pruneBefore
    {timeline : List (Nat × κ)} {seen : Dict κ (π × Nat)}
    (sorted : TimeSorted timeline) (scheduled : Scheduled timeline seen)
    (cutoffNs : Int) :
    Scheduled (pruneBefore cutoffNs timeline seen).1
      (pruneBefore cutoffNs timeline seen).2 := by
  intro key copy isSeen
  rw [get?_pruneBefore sorted
    fun name copy isSeen _ => scheduled name copy isSeen] at isSeen
  rcases Option.filter_eq_some_iff.mp isSeen with ⟨wasSeen, fresh⟩
  exact mem_pruneBefore (scheduled key copy wasSeen) (of_decide_eq_true fresh)

theorem scheduled_remember
    {dedup : Deduplicator κ π}
    (scheduled : Scheduled dedup.timeline dedup.seen)
    (event : Observation κ π) :
    Scheduled (dedup.remember event).timeline (dedup.remember event).seen := by
  intro key copy isSeen
  rw [Deduplicator.remember, Dict.get?_set] at isSeen
  apply mem_heappush_iff.mpr
  by_cases same : key = event.key
  · rw [if_pos same] at isSeen
    cases isSeen
    exact Or.inl (by rw [same])
  · rw [if_neg same] at isSeen
    exact Or.inr (scheduled key copy isSeen)

/-! ## What is remembered -/

/-- The latest receive time observed so far. -/
def watermarkOf (history : List (Observation κ π)) : Nat :=
  history.foldl (fun watermarkNs event => max watermarkNs event.observedNs) 0

omit [DecidableEq κ] in
theorem watermarkOf_concat
    (history : List (Observation κ π)) (event : Observation κ π) :
    watermarkOf (history ++ [event]) =
      max (watermarkOf history) event.observedNs := by
  simp only [watermarkOf, List.foldl_append, List.foldl_cons, List.foldl_nil]

omit [DecidableEq κ] in
theorem watermarkOf_le_iff
    {history : List (Observation κ π)} {bound : Nat} :
    watermarkOf history ≤ bound ↔
      ∀ event ∈ history, event.observedNs ≤ bound := by
  induction history using List.reverseRecOn with
  | nil => simp [watermarkOf]
  | append_singleton history event induction =>
      rw [watermarkOf_concat, Nat.max_le, induction]
      simp only [List.mem_append, List.mem_singleton, or_imp, forall_and,
        forall_eq]

/-- Ten minutes before the latest event of a history have not gone by. -/
def InWindow (history : List (Observation κ π)) (copy : π × Nat) : Prop :=
  ∀ event ∈ history, event.observedNs ≤ copy.2 + dedupWindowNs

instance (history : List (Observation κ π)) (copy : π × Nat) :
    Decidable (InWindow history copy) :=
  List.decidableBAll _ history

/--
A deduplicator which holds the copies of a history, while its watermark has
seen some more events.
-/
structure Remembers (history observed : List (Observation κ π))
    (dedup : Deduplicator κ π) : Prop where
  watermark : dedup.watermarkNs = watermarkOf observed
  seen : ∀ key copy, dedup.seen.get? key = some copy →
    lastCopy history key = some copy
  recent : ∀ key copy, lastCopy history key = some copy →
    InWindow observed copy → dedup.seen.get? key = some copy
  scheduled : Scheduled dedup.timeline dedup.seen
  sorted : TimeSorted dedup.timeline

theorem remembers_nothing : Remembers [] [] ({} : Deduplicator κ π) where
  watermark := rfl
  seen key copy isSeen := by cases isSeen
  recent key copy last := by cases last
  scheduled key copy isSeen := by cases isSeen
  sorted := List.Pairwise.nil

namespace Remembers

variable {history observed : List (Observation κ π)}
  {dedup : Deduplicator κ π} {event : Observation κ π}

/-- The watermark moves on. -/
theorem raise (remembers : Remembers history observed dedup)
    (event : Observation κ π) :
    Remembers history (observed ++ [event])
      { dedup with
        watermarkNs := max dedup.watermarkNs event.observedNs } where
  watermark := by
    rw [watermarkOf_concat, ← remembers.watermark]
  seen := remembers.seen
  recent key copy last inWindow := remembers.recent key copy last
    fun other inObserved => inWindow other (List.mem_append_left _ inObserved)
  scheduled := remembers.scheduled
  sorted := remembers.sorted

/-- What lies before the window is forgotten. -/
theorem prune
    (remembers : Remembers history observed dedup) {cutoffNs : Int}
    (cutoff : (dedup.watermarkNs : Int) - dedupWindowNs = cutoffNs) :
    Remembers history observed
        { dedup with
          seen := (pruneBefore cutoffNs dedup.timeline dedup.seen).2
          timeline := (pruneBefore cutoffNs dedup.timeline dedup.seen).1 } ∧
      ∀ key copy,
        (pruneBefore cutoffNs dedup.timeline dedup.seen).2.get? key =
            some copy → InWindow observed copy := by
  have fresh_iff (copy : π × Nat) :
      Fresh cutoffNs copy ↔ InWindow observed copy := by
    rw [Fresh, InWindow, ← watermarkOf_le_iff, ← remembers.watermark]
    omega
  have left (key : κ) (copy : π × Nat) :
      (pruneBefore cutoffNs dedup.timeline dedup.seen).2.get? key =
          some copy ↔
        dedup.seen.get? key = some copy ∧ InWindow observed copy := by
    rw [get?_pruneBefore remembers.sorted
        fun name copy isSeen _ => remembers.scheduled name copy isSeen,
      Option.filter_eq_some_iff, decide_eq_true_eq, fresh_iff]
  refine ⟨?_, fun key copy isSeen => ((left key copy).mp isSeen).2⟩
  exact {
    watermark := remembers.watermark
    seen := fun key copy isSeen =>
      remembers.seen key copy ((left key copy).mp isSeen).1
    recent := fun key copy last inWindow => (left key copy).mpr
      ⟨remembers.recent key copy last inWindow, inWindow⟩
    scheduled :=
      scheduled_pruneBefore remembers.sorted remembers.scheduled _
    sorted := timeSorted_pruneBefore remembers.sorted _ _ }

/-- One more copy is held. -/
theorem remember (remembers : Remembers history observed dedup) :
    Remembers (history ++ [event]) observed (dedup.remember event) where
  watermark := remembers.watermark
  seen key copy isSeen := by
    rw [Deduplicator.remember, Dict.get?_set] at isSeen
    rw [lastCopy_concat]
    by_cases same : key = event.key
    · rw [if_pos same] at isSeen
      rw [if_pos same.symm]
      exact isSeen
    · rw [if_neg same] at isSeen
      rw [if_neg (Ne.symm same)]
      exact remembers.seen key copy isSeen
  recent key copy last inWindow := by
    rw [Deduplicator.remember, Dict.get?_set]
    rw [lastCopy_concat] at last
    by_cases same : key = event.key
    · rw [if_pos same.symm] at last
      rw [if_pos same]
      exact last
    · rw [if_neg (Ne.symm same)] at last
      rw [if_neg same]
      exact remembers.recent key copy last inWindow
  scheduled := scheduled_remember remembers.scheduled event
  sorted := timeSorted_heappush remembers.sorted _

/-- The pruning before an event is looked up. -/
theorem pruned (remembers : Remembers history history dedup)
    (event : Observation κ π) :
    Remembers history (history ++ [event]) (dedup.pruned event.observedNs) ∧
      ∀ key copy, (dedup.pruned event.observedNs).seen.get? key = some copy →
        InWindow (history ++ [event]) copy :=
  (remembers.raise event).prune rfl

variable [DecidableEq π]

/-- An identity which was never observed is not a duplicate. -/
theorem observe_new
    (remembers : Remembers history history dedup)
    (unknown : lastCopy history event.key = none) :
    ∃ after, dedup.observe event = .ok (false, after) ∧
      Remembers (history ++ [event]) (history ++ [event]) after := by
  rcases remembers.pruned event with ⟨left, _⟩
  refine ⟨_, ?_, left.remember⟩
  rw [Deduplicator.observe]
  cases isSeen : (dedup.pruned event.observedNs).seen.get? event.key with
  | none => rfl
  | some copy =>
      have last := left.seen event.key copy isSeen
      rw [unknown] at last
      cases last

/-- An identity with the same payload within the window is a duplicate. -/
theorem observe_duplicate
    (remembers : Remembers history history dedup)
    {copy : π × Nat} (last : lastCopy history event.key = some copy)
    (samePayload : copy.1 = event.payloadHash)
    (inWindow : InWindow (history ++ [event]) copy) :
    ∃ after, dedup.observe event = .ok (true, after) ∧
      Remembers (history ++ [event]) (history ++ [event]) after := by
  rcases remembers.pruned event with ⟨left, _⟩
  refine ⟨_, ?_, left.remember⟩
  simp only [Deduplicator.observe, left.recent event.key copy last inWindow]
  rw [if_neg (not_not.mpr samePayload)]

/-- An identity which left the window is not recognised. -/
theorem observe_expired
    (remembers : Remembers history history dedup)
    {copy : π × Nat} (last : lastCopy history event.key = some copy)
    (outside : ¬ InWindow (history ++ [event]) copy) :
    ∃ after, dedup.observe event = .ok (false, after) ∧
      Remembers (history ++ [event]) (history ++ [event]) after := by
  rcases remembers.pruned event with ⟨left, within⟩
  refine ⟨_, ?_, left.remember⟩
  rw [Deduplicator.observe]
  cases isSeen : (dedup.pruned event.observedNs).seen.get? event.key with
  | none => rfl
  | some other =>
      have same := left.seen event.key other isSeen
      cases Option.some.inj (last.symm.trans same)
      exact absurd (within event.key copy isSeen) outside

end Remembers

/-- What a checkpoint lists is remembered on the next day. -/
theorem remembers_load (entries : List (Observation κ π)) :
    Remembers entries entries (Deduplicator.load entries) := by
  induction entries using List.reverseRecOn with
  | nil => exact remembers_nothing
  | append_singleton entries entry induction =>
      rw [Deduplicator.load, List.foldl_append]
      exact (induction.raise entry).remember

end ShadowDataPlane.Central
