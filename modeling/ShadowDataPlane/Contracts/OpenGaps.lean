import Mathlib.Data.Finset.Erase
import Mathlib.Data.Finset.Insert
import Mathlib.Data.List.Induction
import ShadowDataPlane.Contracts.Gap

/-!
# Which gaps are open

A reader which takes gap events in order keeps the set of gaps opened and not
closed again.  `openGaps` is that set after a list of events, and
`mem_openGaps_iff` says it in terms of the list: an `OPEN` event is still in
force while no later `CLOSED` event carries its `gap_id`.
-/

namespace ShadowDataPlane.Contracts

/-- Where a member of a list extended at its end can stand. -/
theorem concat_eq_split_iff
    {α : Type*} {items before after : List α} {last middle : α} :
    items ++ [last] = before ++ middle :: after ↔
      (after = [] ∧ before = items ∧ middle = last) ∨
        ∃ shorter, after = shorter ++ [last] ∧
          items = before ++ middle :: shorter := by
  constructor
  · intro split
    cases after using List.reverseRecOn with
    | nil =>
        have ends := List.append_inj' split rfl
        exact Or.inl ⟨rfl, ends.1.symm, (List.cons.inj ends.2).1.symm⟩
    | append_singleton shorter final =>
        rw [← List.cons_append, ← List.append_assoc] at split
        have ends := List.append_inj' split rfl
        refine Or.inr ⟨shorter, ?_, ends.1⟩
        rw [(List.cons.inj ends.2).1]
  · rintro (⟨rfl, rfl, rfl⟩ | ⟨shorter, rfl, rfl⟩)
    · rfl
    · simp

/-- The first `CLOSED` event of a gap. -/
def nextClosed (gapId : String) (events : List GapEventV1) :
    Option GapEventV1 :=
  events.find? fun event => event.gapId = gapId ∧ event.state = .closed

theorem nextClosed_mem
    {gapId : String} {events : List GapEventV1} {closing : GapEventV1}
    (closed : nextClosed gapId events = some closing) :
    closing ∈ events ∧ closing.gapId = gapId ∧ closing.state = .closed := by
  refine ⟨List.mem_of_find?_eq_some closed, ?_⟩
  simpa using List.find?_some closed

theorem nextClosed_append_some
    {gapId : String} {events later : List GapEventV1} {closing : GapEventV1}
    (closed : nextClosed gapId events = some closing) :
    nextClosed gapId (events ++ later) = some closing := by
  unfold nextClosed at closed ⊢
  rw [List.find?_append, closed, Option.some_or]

theorem nextClosed_concat
    (gapId : String) (events : List GapEventV1) (last : GapEventV1) :
    nextClosed gapId (events ++ [last]) =
      (nextClosed gapId events).or
        (if last.gapId = gapId ∧ last.state = .closed then some last
        else none) := by
  simp only [nextClosed, List.find?_append, List.find?_singleton,
    decide_eq_true_eq]

/-- What one event does to the set of open gaps. -/
def trackGap (opened : Finset String) (event : GapEventV1) : Finset String :=
  match event.state with
  | .opened => insert event.gapId opened
  | .closed => opened.erase event.gapId

/-- The gaps opened and not closed again, in the order of the events. -/
def openGaps (events : List GapEventV1) : Finset String :=
  events.foldl trackGap ∅

@[simp]
theorem openGaps_nil : openGaps [] = ∅ := rfl

@[simp]
theorem openGaps_concat (events : List GapEventV1) (last : GapEventV1) :
    openGaps (events ++ [last]) = trackGap (openGaps events) last := by
  simp [openGaps]

/-- An event list leaves a gap open where it never closes it after opening it. -/
def LeavesOpen (events : List GapEventV1) (gapId : String) : Prop :=
  ∃ before opening after, events = before ++ opening :: after ∧
    opening.state = .opened ∧ opening.gapId = gapId ∧
      nextClosed gapId after = none

theorem leavesOpen_concat_iff
    {events : List GapEventV1} {last : GapEventV1} {gapId : String} :
    LeavesOpen (events ++ [last]) gapId ↔
      (last.state = .opened ∧ last.gapId = gapId) ∨
        (LeavesOpen events gapId ∧
          ¬ (last.gapId = gapId ∧ last.state = .closed)) := by
  constructor
  · rintro ⟨before, opening, after, split, opened, sameGap, unclosed⟩
    rcases concat_eq_split_iff.mp split with
      ⟨_, _, rfl⟩ | ⟨shorter, rfl, shorterSplit⟩
    · exact Or.inl ⟨opened, sameGap⟩
    · rw [nextClosed_concat] at unclosed
      obtain ⟨open_, notLast⟩ := Option.or_eq_none_iff.mp unclosed
      refine Or.inr ⟨⟨before, opening, shorter, shorterSplit, opened,
        sameGap, open_⟩, ?_⟩
      intro closes
      simp [closes] at notLast
  · rintro (⟨opened, sameGap⟩ |
      ⟨⟨before, opening, after, split, opened, sameGap, unclosed⟩,
        notClosed⟩)
    · exact ⟨events, last, [], rfl, opened, sameGap, rfl⟩
    · refine ⟨before, opening, after ++ [last], by simp [split], opened,
        sameGap, ?_⟩
      rw [nextClosed_concat, unclosed]
      simp [notClosed]

/-- The set of open gaps says which openings are still in force. -/
theorem mem_openGaps_iff {events : List GapEventV1} {gapId : String} :
    gapId ∈ openGaps events ↔ LeavesOpen events gapId := by
  induction events using List.reverseRecOn with
  | nil => simp [LeavesOpen]
  | append_singleton events last induction =>
      rw [openGaps_concat, leavesOpen_concat_iff, ← induction, trackGap]
      cases state : last.state with
      | opened => simp [Finset.mem_insert, eq_comm]
      | closed =>
          simp only [Finset.mem_erase, reduceCtorEq, false_and, false_or,
            and_true]
          exact ⟨fun ⟨different, member⟩ => ⟨member, Ne.symm different⟩,
            fun ⟨member, different⟩ => ⟨Ne.symm different, member⟩⟩

/--
The instant lies inside a gap: at or after an opening's effective time and
before the next closing of the same gap, if there is one.
-/
def InsideGap (events : List GapEventV1) (instant : Nat) : Prop :=
  ∃ before opening after, events = before ++ opening :: after ∧
    opening.state = .opened ∧ opening.effectiveNs ≤ instant ∧
      ∀ closing, nextClosed opening.gapId after = some closing →
        instant < closing.observedAtRealtimeNs

end ShadowDataPlane.Contracts
