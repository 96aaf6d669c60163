import ShadowDataPlane.Central.Deduplicator
import ShadowDataPlane.Foundation.Transition

/-!
# The window of the deduplicator

`observe` looks an identity up in a map which was pruned through a heap.  The
heap keeps an entry for every copy, also for those which a later copy has
replaced in the map, and the cutoff follows the identities which were observed
in between.  What comes of it is exact: an identity is recognised if and only
if one of its copies is in the window (`observe_exact`).

A checkpoint drops what is older than the window at the end of the day, and
`load` makes a new heap and a new watermark of the rest.  The next day cannot
tell (`checkpoint_resumes`).

A call which raises leaves the raised watermark and the pruned map behind, and
nothing else; whoever calls `observe` may go on.
-/

namespace ShadowDataPlane.Central

open ShadowDataPlane.Foundation

variable {κ π : Type} [DecidableEq κ] [DecidableEq π]

namespace Deduplicator

/-- A call of `observe`, with the object it leaves. -/
def call (dedup : Deduplicator κ π) (event : Observation κ π) :
    Deduplicator κ π × Except κ Bool :=
  match dedup.observe event with
  | .ok (isDuplicate, after) => (after, .ok isDuplicate)
  | .error key => (dedup.pruned event.observedNs, .error key)

/-- The object after some calls. -/
def afterCalls (dedup : Deduplicator κ π) (events : List (Observation κ π)) :
    Deduplicator κ π :=
  events.foldl (fun dedup event => (dedup.call event).1) dedup

/-- The observations which were recorded, by a call which returned. -/
def recorded (dedup : Deduplicator κ π) :
    List (Observation κ π) → List (Observation κ π)
  | [] => []
  | event :: rest =>
      match (dedup.call event).2 with
      | .ok _ => event :: (dedup.call event).1.recorded rest
      | .error _ => (dedup.call event).1.recorded rest

theorem afterCalls_concat
    (dedup : Deduplicator κ π) (events : List (Observation κ π))
    (event : Observation κ π) :
    dedup.afterCalls (events ++ [event]) =
      ((dedup.afterCalls events).call event).1 :=
  List.foldl_concat _ _ _ _

theorem recorded_concat
    (dedup : Deduplicator κ π) (events : List (Observation κ π))
    (event : Observation κ π) :
    dedup.recorded (events ++ [event]) =
      match ((dedup.afterCalls events).call event).2 with
      | .ok _ => dedup.recorded events ++ [event]
      | .error _ => dedup.recorded events := by
  induction events generalizing dedup with
  | nil => rfl
  | cons head rest induction =>
      rw [List.cons_append, recorded, recorded, induction]
      show _ = match (((dedup.call head).1.afterCalls rest).call event).2 with
        | .ok _ => _
        | .error _ => _
      split
      next => split <;> rfl
      next => split <;> rfl

theorem recorded_sublist
    (dedup : Deduplicator κ π) (events : List (Observation κ π)) :
    (dedup.recorded events).Sublist events := by
  induction events generalizing dedup with
  | nil => exact List.Sublist.refl _
  | cons event rest induction =>
      rw [recorded]
      split
      next => exact (induction _).cons_cons event
      next => exact (induction _).cons event

end Deduplicator

/-- The copies of one identity are observed in the order of their times. -/
def KeysOrdered (events : List (Observation κ π)) : Prop :=
  events.Pairwise fun earlier later =>
    earlier.key = later.key → earlier.observedNs ≤ later.observedNs

instance (events : List (Observation κ π)) : Decidable (KeysOrdered events) :=
  inferInstanceAs (Decidable (List.Pairwise _ events))

/--
An observation of the identity of an event which was recorded before it, no
longer ago than the window reaches back from the latest time so far.
-/
def Recalls (earlier : List (Observation κ π))
    (event other : Observation κ π) : Prop :=
  other ∈ ({} : Deduplicator κ π).recorded earlier ∧
    other.key = event.key ∧
    (watermarkOf (earlier ++ [event]) : Int) - dedupWindowNs ≤
      other.observedNs

instance (earlier : List (Observation κ π)) (event other : Observation κ π) :
    Decidable (Recalls earlier event other) :=
  inferInstanceAs (Decidable (_ ∧ _ ∧ _))

/-! ## What a call finds -/

section Lookup

variable {history observed : List (Observation κ π)}
  {dedup : Deduplicator κ π} {event : Observation κ π}

omit [DecidableEq π] in
/-- The map holds the last copies which are in the window. -/
theorem Remembers.lookup
    (remembers : Remembers history observed dedup) (key : κ) :
    (dedup.pruned event.observedNs).seen.get? key =
      (lastCopy history key).filter
        fun copy => InWindow (observed ++ [event]) copy := by
  rcases (remembers.raise event).prune rfl with ⟨left, within⟩
  cases last : lastCopy history key with
  | none =>
      cases isSeen : (dedup.pruned event.observedNs).seen.get? key with
      | none => rfl
      | some copy =>
          have other := left.seen key copy isSeen
          rw [last] at other
          cases other
  | some copy =>
      by_cases inWindow : InWindow (observed ++ [event]) copy
      · rw [Option.filter_some, if_pos (decide_eq_true inWindow)]
        exact left.recent key copy last inWindow
      · rw [Option.filter_some, if_neg (by simpa using inWindow)]
        cases isSeen : (dedup.pruned event.observedNs).seen.get? key with
        | none => rfl
        | some other =>
            cases Option.some.inj (last.symm.trans (left.seen key other isSeen))
            exact absurd (within key copy isSeen) inWindow

theorem Remembers.call_of_none
    (remembers : Remembers history observed dedup)
    (unknown : (lastCopy history event.key).filter
      (fun copy => InWindow (observed ++ [event]) copy) = none) :
    dedup.call event =
      ((dedup.pruned event.observedNs).remember event, .ok false) := by
  rw [← remembers.lookup] at unknown
  simp only [Deduplicator.call, Deduplicator.observe, unknown]

theorem Remembers.call_of_some
    (remembers : Remembers history observed dedup) {copy : π × Nat}
    (found : (lastCopy history event.key).filter
      (fun copy => InWindow (observed ++ [event]) copy) = some copy) :
    dedup.call event =
      if copy.1 = event.payloadHash then
        ((dedup.pruned event.observedNs).remember event, .ok true)
      else (dedup.pruned event.observedNs, .error event.key) := by
  rw [← remembers.lookup] at found
  simp only [Deduplicator.call, Deduplicator.observe, found]
  by_cases same : copy.1 = event.payloadHash
  · rw [if_neg (not_not.mpr same), if_pos same]
  · rw [if_pos same, if_neg same]

omit [DecidableEq π] in
/-- The last copy of an identity is its latest one. -/
theorem le_lastCopy
    (ordered : KeysOrdered history) {other : Observation κ π}
    (member : other ∈ history) {copy : π × Nat}
    (last : lastCopy history other.key = some copy) :
    other.observedNs ≤ copy.2 := by
  induction history using List.reverseRecOn with
  | nil => cases member
  | append_singleton earlier event induction =>
      rcases List.pairwise_append.mp ordered with ⟨before, _, apart⟩
      rw [lastCopy_concat] at last
      split at last
      next same =>
        cases last
        rcases List.mem_append.mp member with old | new
        · exact apart other old event (List.mem_singleton_self _) same.symm
        · rw [List.mem_singleton.mp new]
      next different =>
        rcases List.mem_append.mp member with old | new
        · exact induction before old last
        · cases List.mem_singleton.mp new
          exact absurd rfl different

omit [DecidableEq κ] [DecidableEq π] in
theorem InWindow.of_concat {copy : π × Nat}
    (inWindow : InWindow (observed ++ [event]) copy) :
    InWindow observed copy :=
  fun other member => inWindow other (List.mem_append_left _ member)

omit [DecidableEq κ] [DecidableEq π] in
theorem InWindow.mono {copy later : π × Nat}
    (inWindow : InWindow observed copy) (after : copy.2 ≤ later.2) :
    InWindow observed later :=
  fun other member =>
    (inWindow other member).trans (Nat.add_le_add_right after _)

end Lookup

/-! ## The window is exact -/

/-- What holds after any calls: copies in the window have one payload. -/
structure WindowSound (earlier : List (Observation κ π)) : Prop where
  remembers : Remembers (({} : Deduplicator κ π).recorded earlier) earlier
    (({} : Deduplicator κ π).afterCalls earlier)
  agreeing : ∀ other ∈ ({} : Deduplicator κ π).recorded earlier,
    InWindow earlier (other.payloadHash, other.observedNs) →
      ∀ copy, lastCopy (({} : Deduplicator κ π).recorded earlier) other.key =
          some copy → copy.1 = other.payloadHash

namespace WindowSound

variable {earlier : List (Observation κ π)} {event : Observation κ π}

/-- The last copy of an identity is in the window if any copy is. -/
theorem found_of_recalls
    (ordered : KeysOrdered (earlier ++ [event])) {other : Observation κ π}
    (recalls : Recalls earlier event other) :
    ∃ copy, lastCopy (({} : Deduplicator κ π).recorded earlier) event.key =
        some copy ∧
      other.observedNs ≤ copy.2 ∧ InWindow (earlier ++ [event]) copy := by
  rcases recalls with ⟨member, same, inWindow⟩
  have isThere : (lastCopy (({} : Deduplicator κ π).recorded earlier)
      event.key).isSome :=
    lastCopy_isSome_iff.mpr ⟨other, member, same⟩
  rcases Option.isSome_iff_exists.mp isThere with ⟨copy, last⟩
  have recordedOrdered : KeysOrdered
      (({} : Deduplicator κ π).recorded earlier) :=
    List.Pairwise.sublist (Deduplicator.recorded_sublist _ _)
      (List.pairwise_append.mp ordered).1
  rw [← same] at last
  have later := le_lastCopy recordedOrdered member last
  rw [same] at last
  refine ⟨copy, last, later, ?_⟩
  rw [InWindow, ← watermarkOf_le_iff]
  omega

omit [DecidableEq κ] [DecidableEq π] in
theorem inWindow_iff {other : Observation κ π} :
    InWindow (earlier ++ [event]) (other.payloadHash, other.observedNs) ↔
      (watermarkOf (earlier ++ [event]) : Int) - dedupWindowNs ≤
        other.observedNs := by
  rw [InWindow, ← watermarkOf_le_iff]
  omega

/-- The map holds a copy exactly if there is one in the window. -/
theorem isSome_iff_recalls
    (ordered : KeysOrdered (earlier ++ [event])) :
    ((lastCopy (({} : Deduplicator κ π).recorded earlier)
        event.key).filter
          fun copy => InWindow (earlier ++ [event]) copy).isSome ↔
      ∃ other, Recalls earlier event other := by
  constructor
  · intro isThere
    rcases Option.isSome_iff_exists.mp isThere with ⟨copy, found⟩
    rcases Option.filter_eq_some_iff.mp found with ⟨last, inWindow⟩
    refine ⟨⟨event.key, copy.1, copy.2⟩, exists_of_lastCopy last, rfl, ?_⟩
    exact inWindow_iff.mp (of_decide_eq_true inWindow)
  · rintro ⟨other, recalls⟩
    rcases found_of_recalls ordered recalls with ⟨copy, last, _, inWindow⟩
    rw [last, Option.filter_some, if_pos (decide_eq_true inWindow)]
    rfl

/-- All copies in the window have the payload of the one which is found. -/
theorem payload_of_recalls
    (sound : WindowSound earlier) {copy : π × Nat}
    (found : (lastCopy (({} : Deduplicator κ π).recorded earlier)
      event.key).filter
        (fun copy => InWindow (earlier ++ [event]) copy) = some copy)
    {other : Observation κ π} (recalls : Recalls earlier event other) :
    other.payloadHash = copy.1 := by
  rcases Option.filter_eq_some_iff.mp found with ⟨last, _⟩
  rw [← recalls.2.1] at last
  exact (sound.agreeing other recalls.1
    (inWindow_iff.mpr recalls.2.2).of_concat copy last).symm

/-- One more copy which has the payload of those in the window. -/
theorem agreeing_concat
    (sound : WindowSound earlier)
    (agrees : ∀ other, Recalls earlier event other →
      other.payloadHash = event.payloadHash)
    {other : Observation κ π}
    (member : other ∈
      ({} : Deduplicator κ π).recorded earlier ++ [event])
    (inWindow : InWindow (earlier ++ [event])
      (other.payloadHash, other.observedNs))
    {copy : π × Nat}
    (last : lastCopy (({} : Deduplicator κ π).recorded earlier ++ [event])
      other.key = some copy) :
    copy.1 = other.payloadHash := by
  rw [lastCopy_concat] at last
  rcases List.mem_append.mp member with old | new
  · split at last
    next same =>
      cases last
      exact (agrees other ⟨old, same.symm, inWindow_iff.mp inWindow⟩).symm
    next => exact sound.agreeing other old inWindow.of_concat copy last
  · cases List.mem_singleton.mp new
    rw [if_pos rfl] at last
    cases last
    rfl

/-- A call which returns takes its observation in. -/
theorem concat_recorded
    (sound : WindowSound earlier) {isDuplicate : Bool}
    (called : (({} : Deduplicator κ π).afterCalls earlier).call event =
      (((({} : Deduplicator κ π).afterCalls earlier).pruned
        event.observedNs).remember event, .ok isDuplicate))
    (agrees : ∀ other, Recalls earlier event other →
      other.payloadHash = event.payloadHash) :
    WindowSound (earlier ++ [event]) := by
  rcases (sound.remembers.raise event).prune rfl with ⟨left, _⟩
  have grown : ({} : Deduplicator κ π).recorded (earlier ++ [event]) =
      ({} : Deduplicator κ π).recorded earlier ++ [event] := by
    rw [Deduplicator.recorded_concat, called]
  constructor
  · rw [grown, Deduplicator.afterCalls_concat, called]
    exact left.remember
  · rw [grown]
    intro other member inWindow copy last
    exact sound.agreeing_concat agrees member inWindow last

theorem concat
    (sound : WindowSound earlier)
    (ordered : KeysOrdered (earlier ++ [event])) :
    WindowSound (earlier ++ [event]) := by
  cases found : (lastCopy (({} : Deduplicator κ π).recorded earlier)
      event.key).filter fun copy => InWindow (earlier ++ [event]) copy with
  | none =>
      apply sound.concat_recorded (sound.remembers.call_of_none found)
      intro other recalls
      have isThere := (isSome_iff_recalls ordered).mpr ⟨other, recalls⟩
      rw [found] at isThere
      cases isThere
  | some copy =>
      have called := sound.remembers.call_of_some found
      by_cases same : copy.1 = event.payloadHash
      · rw [if_pos same] at called
        apply sound.concat_recorded called
        intro other recalls
        exact (sound.payload_of_recalls found recalls).trans same
      · rw [if_neg same] at called
        rcases (sound.remembers.raise event).prune rfl with ⟨left, _⟩
        have kept : ({} : Deduplicator κ π).recorded (earlier ++ [event]) =
            ({} : Deduplicator κ π).recorded earlier := by
          rw [Deduplicator.recorded_concat, called]
        constructor
        · rw [kept, Deduplicator.afterCalls_concat, called]
          exact left
        · rw [kept]
          intro other member inWindow copy last
          exact sound.agreeing other member inWindow.of_concat copy last

theorem of_ordered
    {events : List (Observation κ π)} (ordered : KeysOrdered events) :
    WindowSound events := by
  induction events using List.reverseRecOn with
  | nil =>
      constructor
      · exact remembers_nothing
      · intro other member
        cases member
  | append_singleton earlier event induction =>
      have before := induction (List.pairwise_append.mp ordered).1
      exact before.concat ordered

end WindowSound

/--
A call raises if and only if a copy in the window has another payload, reports
a duplicate if and only if there are copies in the window and they have its
payload, and reports none if and only if there is no copy in the window.
-/
theorem observe_exact
    {earlier : List (Observation κ π)} {event : Observation κ π}
    (ordered : KeysOrdered (earlier ++ [event])) :
    let answer := ((({} : Deduplicator κ π).afterCalls earlier).call event).2
    (answer = .error event.key ↔
        ∃ other, Recalls earlier event other ∧
          other.payloadHash ≠ event.payloadHash) ∧
      (answer = .ok true ↔
        (∃ other, Recalls earlier event other) ∧
          ∀ other, Recalls earlier event other →
            other.payloadHash = event.payloadHash) ∧
      (answer = .ok false ↔ ¬ ∃ other, Recalls earlier event other) := by
  intro answer
  have sound := WindowSound.of_ordered (List.pairwise_append.mp ordered).1
  have recalled := WindowSound.isSome_iff_recalls ordered
  cases found : (lastCopy (({} : Deduplicator κ π).recorded earlier)
      event.key).filter fun copy => InWindow (earlier ++ [event]) copy with
  | none =>
      have answered : answer = .ok false := by
        simp only [answer, sound.remembers.call_of_none found]
      have nothing : ¬ ∃ other, Recalls earlier event other := by
        rw [← recalled, found]
        exact Bool.false_ne_true
      rw [answered]
      refine ⟨iff_of_false (by simp) ?_, iff_of_false (by simp) ?_,
        iff_of_true rfl nothing⟩
      · rintro ⟨other, recalls, _⟩
        exact nothing ⟨other, recalls⟩
      · rintro ⟨isThere, _⟩
        exact nothing isThere
  | some copy =>
      have called := sound.remembers.call_of_some found
      have isThere : ∃ other, Recalls earlier event other := by
        rw [← recalled, found]
        rfl
      have payload (other : Observation κ π)
          (recalls : Recalls earlier event other) :
          other.payloadHash = copy.1 :=
        sound.payload_of_recalls found recalls
      by_cases same : copy.1 = event.payloadHash
      · have answered : answer = .ok true := by
          simp only [answer, called, if_pos same]
        rw [answered]
        refine ⟨iff_of_false (by simp) ?_, iff_of_true rfl ⟨isThere, ?_⟩,
          iff_of_false (by simp) (not_not.mpr isThere)⟩
        · rintro ⟨other, recalls, differs⟩
          exact differs ((payload other recalls).trans same)
        · intro other recalls
          exact (payload other recalls).trans same
      · have answered : answer = .error event.key := by
          simp only [answer, called, if_neg same]
        rw [answered]
        rcases isThere with ⟨other, recalls⟩
        have differs : other.payloadHash ≠ event.payloadHash := by
          rw [payload other recalls]
          exact same
        refine ⟨iff_of_true rfl ⟨other, recalls, differs⟩,
          iff_of_false (by simp) ?_,
          iff_of_false (by simp) (not_not.mpr ⟨other, recalls⟩)⟩
        rintro ⟨_, all⟩
        exact differs (all other recalls)

/-- The last copy of 1 is older than the window, but one for its new time. -/
def sampleObservations : List (Observation Nat Nat) :=
  [⟨1, 5, 0⟩, ⟨2, 6, 650000000000⟩, ⟨1, 5, 100000000000⟩]

/-- The latest time was seen on another identity. -/
theorem sample_conflict :
    ((({} : Deduplicator Nat Nat).afterCalls sampleObservations).call
      ⟨1, 7, 110000000000⟩).2 = .error 1 :=
  (@observe_exact Nat Nat _ _ sampleObservations ⟨1, 7, 110000000000⟩
    (by decide)).1.mpr ⟨⟨1, 5, 100000000000⟩, by decide⟩

/-! ## Over midnight -/

/-- Every identity is on the heap with the time of its last copy. -/
structure HeapSound (dedup : Deduplicator κ π) : Prop where
  scheduled : Scheduled dedup.timeline dedup.seen
  sorted : TimeSorted dedup.timeline

omit [DecidableEq π] in
theorem Remembers.heapSound
    {history observed : List (Observation κ π)} {dedup : Deduplicator κ π}
    (remembers : Remembers history observed dedup) : HeapSound dedup where
  scheduled := remembers.scheduled
  sorted := remembers.sorted

namespace HeapSound

variable {dedup : Deduplicator κ π}

omit [DecidableEq π] in
theorem lookup_pruned (sound : HeapSound dedup) (observedNs : Nat) (key : κ) :
    (dedup.pruned observedNs).seen.get? key =
      (dedup.seen.get? key).filter fun copy =>
        Fresh ((max dedup.watermarkNs observedNs : Nat) - dedupWindowNs) copy :=
  get?_pruneBefore sound.sorted
    (fun name copy isSeen _ => sound.scheduled name copy isSeen) key

omit [DecidableEq π] in
theorem pruned (sound : HeapSound dedup) (observedNs : Nat) :
    HeapSound (dedup.pruned observedNs) where
  scheduled := scheduled_pruneBefore sound.sorted sound.scheduled _
  sorted := timeSorted_pruneBefore sound.sorted _ _

omit [DecidableEq π] in
theorem remember (sound : HeapSound dedup) (event : Observation κ π) :
    HeapSound (dedup.remember event) where
  scheduled := scheduled_remember sound.scheduled event
  sorted := timeSorted_heappush sound.sorted _

end HeapSound

/-- What a call leaves is the pruned object, with the event or without it. -/
theorem Deduplicator.call_cases
    (dedup : Deduplicator κ π) (event : Observation κ π) :
    (dedup.call event).1 = (dedup.pruned event.observedNs).remember event ∨
      (dedup.call event).1 = dedup.pruned event.observedNs := by
  rw [Deduplicator.call, Deduplicator.observe]
  cases (dedup.pruned event.observedNs).seen.get? event.key with
  | none => exact Or.inl rfl
  | some previous =>
      by_cases differs : previous.1 ≠ event.payloadHash
      · exact Or.inr (by simp only [if_pos differs])
      · exact Or.inl (by simp only [if_neg differs])

theorem HeapSound.call
    {dedup : Deduplicator κ π} (sound : HeapSound dedup)
    (event : Observation κ π) : HeapSound (dedup.call event).1 := by
  rcases dedup.call_cases event with recorded | dropped
  · rw [recorded]
    exact (sound.pruned event.observedNs).remember event
  · rw [dropped]
    exact sound.pruned event.observedNs

/-- Nothing which an object knows of is later than `boundNs`. -/
structure NotAfter (boundNs : Nat) (dedup : Deduplicator κ π) : Prop where
  watermark : dedup.watermarkNs ≤ boundNs
  seen : ∀ key copy, dedup.seen.get? key = some copy → copy.2 ≤ boundNs

theorem NotAfter.call
    {boundNs : Nat} {dedup : Deduplicator κ π}
    (notAfter : NotAfter boundNs dedup) (sound : HeapSound dedup)
    {event : Observation κ π} (before : event.observedNs ≤ boundNs) :
    NotAfter boundNs (dedup.call event).1 := by
  have pruned : NotAfter boundNs (dedup.pruned event.observedNs) := by
    constructor
    · exact Nat.max_le.mpr ⟨notAfter.watermark, before⟩
    · intro key copy isSeen
      rw [sound.lookup_pruned] at isSeen
      exact notAfter.seen key copy (Option.filter_eq_some_iff.mp isSeen).1
  rcases dedup.call_cases event with recorded | dropped
  · rw [recorded]
    constructor
    · exact pruned.watermark
    · intro key copy isSeen
      rw [Deduplicator.remember, Dict.get?_set] at isSeen
      split at isSeen
      next =>
        cases isSeen
        exact before
      next => exact pruned.seen key copy isSeen
  · rw [dropped]
    exact pruned

/-- The object at the end of a day. -/
theorem day_sound
    {dayEndNs : Nat} {dayOne : List (Observation κ π)}
    (before : ∀ event ∈ dayOne, event.observedNs < dayEndNs) :
    HeapSound (({} : Deduplicator κ π).afterCalls dayOne) ∧
      NotAfter dayEndNs (({} : Deduplicator κ π).afterCalls dayOne) := by
  induction dayOne using List.reverseRecOn with
  | nil =>
      refine ⟨remembers_nothing.heapSound, Nat.zero_le dayEndNs, ?_⟩
      intro key copy isSeen
      cases isSeen
  | append_singleton earlier event induction =>
      rw [Deduplicator.afterCalls_concat]
      rcases induction fun other member =>
        before other (List.mem_append_left _ member) with ⟨sound, notAfter⟩
      have last := before event
        (List.mem_append_right _ (List.mem_singleton_self _))
      exact ⟨sound.call event, notAfter.call sound (Nat.le_of_lt last)⟩

/--
Two objects which no call at `dayEndNs` or later tells apart: their watermarks
agree once one such call was made, and so do the copies which such a call still
finds.
-/
structure Interchangeable (dayEndNs : Nat)
    (left right : Deduplicator κ π) : Prop where
  watermark : ∀ observedNs, dayEndNs ≤ observedNs →
    max left.watermarkNs observedNs = max right.watermarkNs observedNs
  seen : ∀ cutoffNs, (dayEndNs : Int) - dedupWindowNs ≤ cutoffNs → ∀ key,
    ((left.seen.get? key).filter fun copy => Fresh cutoffNs copy) =
      (right.seen.get? key).filter fun copy => Fresh cutoffNs copy
  leftSound : HeapSound left
  rightSound : HeapSound right

namespace Interchangeable

variable {dayEndNs : Nat} {left right : Deduplicator κ π}
  {event : Observation κ π}

omit [DecidableEq π] in
theorem lookup_pruned
    (same : Interchangeable dayEndNs left right) {observedNs : Nat}
    (after : dayEndNs ≤ observedNs) (key : κ) :
    (left.pruned observedNs).seen.get? key =
      (right.pruned observedNs).seen.get? key := by
  rw [same.leftSound.lookup_pruned, same.rightSound.lookup_pruned,
    same.watermark observedNs after]
  apply same.seen
  have later : dayEndNs ≤ max right.watermarkNs observedNs :=
    after.trans (Nat.le_max_right _ _)
  omega

omit [DecidableEq π] in
theorem pruned
    (same : Interchangeable dayEndNs left right) {observedNs : Nat}
    (after : dayEndNs ≤ observedNs) :
    Interchangeable dayEndNs (left.pruned observedNs)
      (right.pruned observedNs) where
  watermark later _ := congrArg (max · later)
    (same.watermark observedNs after)
  seen cutoffNs _ key := by rw [same.lookup_pruned after]
  leftSound := same.leftSound.pruned observedNs
  rightSound := same.rightSound.pruned observedNs

omit [DecidableEq π] in
theorem remember
    (same : Interchangeable dayEndNs left right) :
    Interchangeable dayEndNs (left.remember event)
      (right.remember event) where
  watermark := same.watermark
  seen cutoffNs late key := by
    simp only [Deduplicator.remember, Dict.get?_set]
    split
    next => rfl
    next => exact same.seen cutoffNs late key
  leftSound := same.leftSound.remember event
  rightSound := same.rightSound.remember event

/-- A call on the next day gives one answer, and keeps the two alike. -/
theorem call
    (same : Interchangeable dayEndNs left right)
    (after : dayEndNs ≤ event.observedNs) :
    (left.call event).2 = (right.call event).2 ∧
      Interchangeable dayEndNs (left.call event).1 (right.call event).1 := by
  have found := same.lookup_pruned after event.key
  have pruned := same.pruned after
  simp only [Deduplicator.call, Deduplicator.observe, found]
  cases (right.pruned event.observedNs).seen.get? event.key with
  | none => exact ⟨rfl, pruned.remember⟩
  | some previous =>
      by_cases differs : previous.1 ≠ event.payloadHash
      · simp only [if_pos differs]
        exact ⟨trivial, pruned⟩
      · simp only [if_neg differs]
        exact ⟨trivial, pruned.remember⟩

end Interchangeable

section Checkpoint

variable {dayEndNs : Nat} {dedup : Deduplicator κ π}
  {entries : List (Observation κ π)}

omit [DecidableEq π] in
theorem mem_checkpoint_iff {entry : Observation κ π} :
    entry ∈ dedup.checkpoint dayEndNs ↔
      dedup.seen.get? entry.key =
          some (entry.payloadHash, entry.observedNs) ∧
        (dayEndNs : Int) - dedupWindowNs ≤ entry.observedNs := by
  simp only [Deduplicator.checkpoint, List.mem_map, List.mem_filter,
    decide_eq_true_eq, Prod.exists, Dict.mem_entries_iff]
  constructor
  · rintro ⟨key, payloadHash, observedNs, ⟨isSeen, fresh⟩, rfl⟩
    exact ⟨isSeen, fresh⟩
  · rintro ⟨isSeen, fresh⟩
    exact ⟨entry.key, entry.payloadHash, entry.observedNs,
      ⟨isSeen, fresh⟩, rfl⟩

omit [DecidableEq π] in
/-- A checkpoint lists an identity once, so its last copy is the only one. -/
theorem lastCopy_checkpoint
    (listed : entries.Perm (dedup.checkpoint dayEndNs)) (key : κ) :
    lastCopy entries key = (dedup.seen.get? key).filter fun copy =>
      Fresh ((dayEndNs : Int) - dedupWindowNs) copy := by
  have unique (copy : π × Nat) (last : lastCopy entries key = some copy) :
      dedup.seen.get? key = some copy ∧
        Fresh ((dayEndNs : Int) - dedupWindowNs) copy :=
    mem_checkpoint_iff.mp (listed.mem_iff.mp (exists_of_lastCopy last))
  cases last : lastCopy entries key with
  | some copy =>
      rcases unique copy last with ⟨isSeen, fresh⟩
      rw [isSeen, Option.filter_some, if_pos (decide_eq_true fresh)]
  | none =>
      cases isSeen : dedup.seen.get? key with
      | none => rfl
      | some copy =>
          rw [Option.filter_some, if_neg]
          intro fresh
          have member : ⟨key, copy.1, copy.2⟩ ∈ entries :=
            listed.mem_iff.mpr
              (mem_checkpoint_iff.mpr ⟨isSeen, of_decide_eq_true fresh⟩)
          have isThere : (lastCopy entries key).isSome :=
            lastCopy_isSome_iff.mpr ⟨_, member, rfl⟩
          rw [last] at isThere
          cases isThere

omit [DecidableEq π] in
/-- What is loaded is what the checkpoint lists. -/
theorem get?_load
    (notAfter : NotAfter dayEndNs dedup)
    (listed : entries.Perm (dedup.checkpoint dayEndNs)) (key : κ) :
    (Deduplicator.load entries).seen.get? key =
      (dedup.seen.get? key).filter fun copy =>
        Fresh ((dayEndNs : Int) - dedupWindowNs) copy := by
  have remembers := remembers_load entries
  rw [← lastCopy_checkpoint listed]
  cases last : lastCopy entries key with
  | some copy =>
      apply remembers.recent key copy last
      -- All entries are within ten minutes before the end of the day.
      intro other member
      have bound := notAfter.seen other.key _
        (mem_checkpoint_iff.mp (listed.mem_iff.mp member)).1
      have fresh := (mem_checkpoint_iff.mp
        (listed.mem_iff.mp (exists_of_lastCopy last))).2
      dsimp only at bound fresh
      omega
  | none =>
      cases isSeen : (Deduplicator.load entries).seen.get? key with
      | none => rfl
      | some copy =>
          have other := remembers.seen key copy isSeen
          rw [last] at other
          cases other

omit [DecidableEq π] in
/-- What resumes from a checkpoint is as good as the object itself. -/
theorem interchangeable_load
    (sound : HeapSound dedup) (notAfter : NotAfter dayEndNs dedup)
    (listed : entries.Perm (dedup.checkpoint dayEndNs)) :
    Interchangeable dayEndNs (Deduplicator.load entries) dedup where
  watermark observedNs after := by
    have loaded : (Deduplicator.load entries).watermarkNs ≤ dayEndNs := by
      rw [(remembers_load entries).watermark, watermarkOf_le_iff]
      intro entry member
      exact notAfter.seen entry.key _
        (mem_checkpoint_iff.mp (listed.mem_iff.mp member)).1
    rw [Nat.max_eq_right (loaded.trans after),
      Nat.max_eq_right (notAfter.watermark.trans after)]
  seen cutoffNs late key := by
    rw [get?_load notAfter listed, Option.filter_filter]
    congr 1
    funext copy
    rw [← Bool.decide_and]
    apply decide_eq_decide.mpr
    simp only [Fresh]
    omega
  leftSound := (remembers_load entries).heapSound
  rightSound := sound

end Checkpoint

/-- Two objects which take the calls of the next day. -/
structure NextDay (dayEndNs : Nat) (rest : List (Observation κ π))
    (left right : Deduplicator κ π) : Prop where
  late : ∀ event ∈ rest, dayEndNs ≤ event.observedNs
  same : Interchangeable dayEndNs left right

theorem NextDay.call
    {dayEndNs : Nat} {left right : Deduplicator κ π}
    {event : Observation κ π} {rest : List (Observation κ π)}
    (nextDay : NextDay dayEndNs (event :: rest) left right) :
    (left.call event).2 = (right.call event).2 ∧
      NextDay dayEndNs rest (left.call event).1 (right.call event).1 := by
  rcases nextDay.same.call (nextDay.late event List.mem_cons_self) with
    ⟨answers, same⟩
  refine ⟨answers, ?_, same⟩
  intro other member
  exact nextDay.late other (List.mem_cons_of_mem _ member)

theorem outputs_append
    (dedup : Deduplicator κ π) (earlier later : List (Observation κ π)) :
    outputs Deduplicator.call dedup (earlier ++ later) =
      outputs Deduplicator.call dedup earlier ++
        outputs Deduplicator.call (dedup.afterCalls earlier) later := by
  induction earlier generalizing dedup with
  | nil => rfl
  | cons event rest induction =>
      rw [List.cons_append, outputs, outputs, induction]
      rfl

/--
On the second day an object which was loaded from the checkpoint of the first
answers as one which observed both days.
-/
theorem checkpoint_resumes
    {dayEndNs : Nat} {dayOne dayTwo entries : List (Observation κ π)}
    (before : ∀ event ∈ dayOne, event.observedNs < dayEndNs)
    (after : ∀ event ∈ dayTwo, dayEndNs ≤ event.observedNs)
    (listed : entries.Perm
      ((({} : Deduplicator κ π).afterCalls dayOne).checkpoint dayEndNs)) :
    outputs Deduplicator.call ({} : Deduplicator κ π) (dayOne ++ dayTwo) =
      outputs Deduplicator.call {} dayOne ++
        outputs Deduplicator.call (Deduplicator.load entries) dayTwo := by
  rw [outputs_append]
  rcases day_sound before with ⟨sound, notAfter⟩
  have nextDay : NextDay dayEndNs dayTwo (Deduplicator.load entries)
      (({} : Deduplicator κ π).afterCalls dayOne) :=
    ⟨after, interchangeable_load sound notAfter listed⟩
  rw [outputs_eq_of_simulation (fun _ _ _ _ nextDay => nextDay.call) nextDay]

/-- One identity is carried over midnight, the other is too old for that. -/
theorem sample_resumed :
    outputs Deduplicator.call ({} : Deduplicator Nat Nat)
        ([⟨1, 5, 300000000000⟩, ⟨2, 6, 800000000000⟩] ++
          [⟨2, 6, 1000000000000⟩, ⟨1, 5, 1000000000001⟩]) =
      outputs Deduplicator.call {}
          [⟨1, 5, 300000000000⟩, ⟨2, 6, 800000000000⟩] ++
        outputs Deduplicator.call (Deduplicator.load [⟨2, 6, 800000000000⟩])
          [⟨2, 6, 1000000000000⟩, ⟨1, 5, 1000000000001⟩] :=
  @checkpoint_resumes Nat Nat _ _ 1000000000000
    [⟨1, 5, 300000000000⟩, ⟨2, 6, 800000000000⟩]
    [⟨2, 6, 1000000000000⟩, ⟨1, 5, 1000000000001⟩]
    [⟨2, 6, 800000000000⟩] (by decide) (by decide) (by decide)

end ShadowDataPlane.Central
