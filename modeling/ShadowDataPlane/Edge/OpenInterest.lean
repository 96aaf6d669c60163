import ShadowDataPlane.Contracts.Universe
import ShadowDataPlane.Foundation.Dict
import ShadowDataPlane.Foundation.Transition

/-!
# The open interest pollers

`RestPollers` has a task for each symbol, which fetches a sample at its
deadlines.  `_replace_open_interest_tasks` leads from the tasks of one universe
to those of another: under a lock it cancels the tasks of the symbols which
left, waits for them to end, and starts tasks for the symbols which came; behind
the lock it waits for the first sample of each.

A label is what a task, a call or the loop does between two awaits.  Deadlines
are up to the labels, and so is the order in which waiting calls get the lock.
A task which was cancelled raises at the await where it stands.
-/

namespace ShadowDataPlane.Edge

open ShadowDataPlane.Foundation
open ShadowDataPlane.Contracts

/-! ## Binding several keys -/

section Binding

variable {κ ν : Type*} [DecidableEq κ]

def bindAll (dict : Dict κ ν) (entries : List (κ × ν)) : Dict κ ν :=
  entries.foldl (fun dict entry => dict.set entry.1 entry.2) dict

/-- With distinct keys the entries are bound, and nothing else changes. -/
theorem get?_bindAll_eq_some_iff
    {dict : Dict κ ν} {entries : List (κ × ν)}
    (distinct : (entries.map Prod.fst).Nodup) {key : κ} {value : ν} :
    (bindAll dict entries).get? key = some value ↔
      (key, value) ∈ entries ∨
        key ∉ entries.map Prod.fst ∧ dict.get? key = some value := by
  induction entries generalizing dict with
  | nil => simp [bindAll]
  | cons head rest induction =>
      rcases head with ⟨bound, first⟩
      simp only [List.map_cons, List.nodup_cons] at distinct
      have others := @induction (dict.set bound first) distinct.2
      rw [Dict.get?_set] at others
      change (bindAll (dict.set bound first) rest).get? key = some value ↔ _
      rw [others]
      by_cases same : key = bound
      · subst same
        have unbound : (key, value) ∉ rest := fun member =>
          distinct.1 (List.mem_map_of_mem member)
        simp [distinct.1, unbound, eq_comm]
      · simp [same]

end Binding

/-! ## One poller -/

/-- The state of the future in `_oi_first_pass`. -/
inductive FirstPass where
  | pending
  | delivered
  | cancelled
deriving DecidableEq, Repr

/-- Where `_open_interest_symbol_loop` stands. -/
inductive PollPhase where
  | sleeping
  | fetching
  | opening (overloaded : Bool)
  | closing
  | resuming
  | returned
  | failed
  | ended
deriving DecidableEq, Repr

/-- The task is done. -/
def PollPhase.Done (phase : PollPhase) : Prop :=
  phase = .returned ∨ phase = .failed ∨ phase = .ended

instance PollPhase.decidableDone (phase : PollPhase) : Decidable phase.Done :=
  inferInstanceAs (Decidable (_ ∨ _))

/-- A task with its variables and the future of its first pass. -/
structure Poller where
  symbol : String
  phase : PollPhase := .sleeping
  gapId : Option String := none
  cancelRequested : Bool := false
  firstPass : FirstPass := .pending
deriving DecidableEq, Repr

/-- What happens to one poller. -/
inductive PollLabel where
  /-- The deadline has come, or the stop event is set. -/
  | wakes
  /-- A sample was fetched and put into its queue. -/
  | received
  | fails (overloaded : Bool)
  | opened (gapId : String)
  | closed
  | resumed
  /-- An await raises what the loop does not catch. -/
  | raises
  | cancelled
deriving DecidableEq

namespace Poller

/-- `create_task`, with a new future. -/
def created (symbol : String) : Poller where
  symbol := symbol

/-- `task.cancel()`. -/
def cancel (poller : Poller) : Poller :=
  if poller.phase.Done then poller
  else { poller with cancelRequested := true }

/-- The end of a successful poll. -/
def deliver (poller : Poller) : Poller :=
  { poller with
    phase := .sleeping
    firstPass :=
      if poller.firstPass = .pending then .delivered
      else poller.firstPass }

/-- The caller of the first pass waits no longer. -/
def forsake (poller : Poller) : Poller :=
  if poller.firstPass = .pending then { poller with firstPass := .cancelled }
  else poller

def afterFailure (overloaded : Bool) : PollPhase :=
  if overloaded then .resuming else .sleeping

/-- What a task does between two awaits, unless it was cancelled. -/
def advance (stopSet : Bool) (poller : Poller) : PollLabel → Option Poller
  | .wakes =>
      if poller.phase = .sleeping then
        some { poller with phase := if stopSet then .returned else .fetching }
      else none
  | .received =>
      if poller.phase = .fetching then
        some (if poller.gapId = none then poller.deliver
          else { poller with phase := .closing })
      else none
  | .fails overloaded =>
      if poller.phase = .fetching ∨ poller.phase = .closing then
        some { poller with
          phase := if poller.gapId = none then .opening overloaded
            else afterFailure overloaded }
      else none
  | .opened gapId =>
      match poller.phase with
      | .opening overloaded =>
          some { poller with
            gapId := some gapId
            phase := afterFailure overloaded }
      | _ => none
  | .closed =>
      if poller.phase = .closing then
        some { poller with gapId := none }.deliver
      else none
  | .resumed =>
      if poller.phase = .resuming then
        some { poller with phase := .sleeping }
      else none
  | .raises =>
      if poller.phase.Done ∨ poller.phase = .sleeping then none
      else some { poller with phase := .failed }
  | .cancelled => none

def step (stopSet : Bool) (poller : Poller) (label : PollLabel) :
    Option Poller :=
  if poller.cancelRequested then
    if label = .cancelled ∧ ¬ poller.phase.Done then
      some { poller with phase := .ended }
    else none
  else poller.advance stopSet label

end Poller

/-! ## The pollers -/

/-- Where a call of `_replace_open_interest_tasks` stands. -/
inductive CallPhase where
  | locking
  | gathering
  | waiting (added : List Nat)
  | returned (added : List Nat)
  | raised
deriving DecidableEq

/-- A call of `update_instruments`. -/
structure ReplaceCall where
  proposed : List String
  phase : CallPhase := .locking
deriving DecidableEq

/-- The call which holds the lock until the removed tasks are done. -/
structure Gathering where
  call : Nat
  proposed : List String
  removed : List Nat
  cancelled : Bool := false
deriving DecidableEq

/-- Where `_open_interest_loop` stands. -/
inductive PollLoop where
  | starting
  | watching
  | finishing (tasks : List Nat)
  | cleared
  /-- The loop has ended without clearing its tasks. -/
  | left
deriving DecidableEq

/-- The pollers, the tasks which are known and the calls under way. -/
structure PollersState where
  instruments : List String
  /-- All tasks which were ever created, by their numbers. -/
  pollers : List Poller := []
  oiTasks : Dict String Nat := Dict.empty
  oiFirstPass : Dict String Nat := Dict.empty
  calls : List ReplaceCall := []
  gathering : Option Gathering := none
  readyReported : Bool := false
  stopSet : Bool := false
  loop : PollLoop := .starting
  /-- The tasks of the samples, in the order of `put`. -/
  recorded : List Nat := []
deriving DecidableEq

/-- The steps of the pollers, of the calls and of the loop. -/
inductive PollersLabel where
  | poller (index : Nat) (label : PollLabel)
  /-- `update_instruments` is called. -/
  | update (proposed : List String)
  | lock (index : Nat)
  | gathered
  | passed (index : Nat)
  | expires (index : Nat)
  | cancelCall (index : Nat)
  | loopResumes
  | loopLooks
  | loopClears
  /-- The task of the loop is cancelled behind its first call. -/
  | cancelLoop
  | stop
deriving DecidableEq

namespace PollersState

/-- `RestPollers.run`, whose loop makes the first call. -/
def started (instruments : List String) : PollersState where
  instruments := instruments
  calls := [⟨instruments, .locking⟩]

def setPhase (state : PollersState) (index : Nat) (phase : CallPhase) :
    PollersState :=
  { state with
    calls := state.calls.modify index fun call =>
      { call with phase := phase } }

/-- Cancel the tasks of these numbers. -/
def cancelTasks (state : PollersState) (tasks : List Nat) : PollersState :=
  { state with
    pollers := state.pollers.mapIdx fun index poller =>
      if index ∈ tasks then poller.cancel else poller }

/-- The future of a task. -/
def firstPass (state : PollersState) (index : Nat) : Option FirstPass :=
  state.pollers[index]?.map Poller.firstPass

def AllDone (state : PollersState) (tasks : List Nat) : Prop :=
  ∀ index ∈ tasks, ∀ poller ∈ state.pollers[index]?, poller.phase.Done

instance (state : PollersState) (tasks : List Nat) :
    Decidable (state.AllDone tasks) :=
  inferInstanceAs (Decidable (∀ index ∈ tasks, ∀ poller ∈ _, _))

/-- `set(self._oi_first_pass) == proposed`. -/
def AwaitsExactly (state : PollersState) (proposed : List String) : Prop :=
  (∀ entry ∈ state.oiFirstPass.entries, entry.1 ∈ proposed) ∧
    ∀ symbol ∈ proposed, (state.oiFirstPass.get? symbol).isSome

instance (state : PollersState) (proposed : List String) :
    Decidable (state.AwaitsExactly proposed) :=
  inferInstanceAs (Decidable (_ ∧ _))

/--
A call comes to its end and reports the readiness, if it is time to.  The
result of a cancelled future raises.
-/
def finishCall (state : PollersState) (index : Nat) (proposed : List String)
    (added : List Nat) : PollersState :=
  let returned := state.setPhase index (.returned added)
  if ¬ state.readyReported ∧ state.AwaitsExactly proposed then
    match state.oiFirstPass.values.find? fun task =>
        state.firstPass task ≠ some .delivered with
    | none => { returned with readyReported := true }
    | some task =>
        if state.firstPass task = some .cancelled then
          state.setPhase index .raised
        else returned
  else returned

/-- The symbols which get a task. -/
def addedSymbols (state : PollersState) (proposed : List String) :
    List String :=
  sortSymbols (proposed.dedup.filter fun symbol =>
    (state.oiTasks.get? symbol).isNone)

/-- Number the tasks of these symbols. -/
def numbered (state : PollersState) (added : List String) :
    List (String × Nat) :=
  added.zipIdx state.pollers.length

/-- The tasks of the new symbols are created, and the lock is released. -/
def createTasks (state : PollersState) (proposed : List String) :
    PollersState :=
  let symbols := state.addedSymbols proposed
  { state with
    pollers := state.pollers ++ symbols.map Poller.created
    oiTasks := bindAll state.oiTasks (state.numbered symbols)
    oiFirstPass := bindAll state.oiFirstPass (state.numbered symbols)
    instruments := proposed
    gathering := none }

/-- A call goes on behind the lock, where it may have nothing to wait for. -/
def populate (state : PollersState) (index : Nat) (proposed : List String) :
    PollersState :=
  let added := state.numbered (state.addedSymbols proposed)
  if added = [] then
    (state.createTasks proposed).finishCall index proposed []
  else
    (state.createTasks proposed).setPhase index
      (.waiting (added.map Prod.snd))

/-- The tasks of symbols which are not proposed. -/
def removedTasks (state : PollersState) (proposed : List String) : List Nat :=
  (state.oiTasks.filterKey fun symbol => symbol ∉ proposed).values

/-- A call gets the lock and cancels the tasks which it removes. -/
def removeTasks (state : PollersState) (index : Nat)
    (proposed : List String) : PollersState :=
  let removed := state.removedTasks proposed
  { state.cancelTasks removed with
    oiTasks := state.oiTasks.filterKey fun symbol => symbol ∈ proposed
    oiFirstPass := state.oiFirstPass.filterKey fun symbol =>
      symbol ∈ proposed ∨ state.oiTasks.get? symbol = none
    gathering := some { call := index, proposed, removed } }

/-- A call up to its first await behind the lock. -/
def lock (state : PollersState) (index : Nat) (proposed : List String) :
    PollersState :=
  if state.removedTasks proposed = [] then
    (state.removeTasks index proposed).populate index proposed
  else (state.removeTasks index proposed).setPhase index .gathering

/-- A call which waits for first passes gives up. -/
def abandon (state : PollersState) (index : Nat) (added : List Nat) :
    PollersState :=
  { state.setPhase index .raised with
    pollers := state.pollers.mapIdx fun task poller =>
      if task ∈ added then poller.forsake else poller }

/-- One step of a task. -/
def pollerStep (state : PollersState) (index : Nat) (label : PollLabel) :
    Option PollersState := do
  let poller ← state.pollers[index]?
  let next ← poller.step state.stopSet label
  return { state with
    pollers := state.pollers.set index next
    recorded :=
      if label = .received then state.recorded ++ [index]
      else state.recorded }

/-- The loop cancels the tasks at its end. -/
def finishLoop (state : PollersState) : PollersState :=
  { state.cancelTasks state.oiTasks.values with
    loop := .finishing state.oiTasks.values }

/-- A task of `_oi_tasks` has raised. -/
def SomeFailed (state : PollersState) : Prop :=
  ∃ task ∈ state.oiTasks.values, ∃ poller ∈ state.pollers[task]?,
    poller.phase = .failed

instance (state : PollersState) : Decidable state.SomeFailed :=
  inferInstanceAs (Decidable (∃ task ∈ _, ∃ poller ∈ _, _))

end PollersState

/-- One step of the pollers. -/
def pollersStep (state : PollersState) :
    PollersLabel → Option PollersState
  | .poller index label => state.pollerStep index label
  | .update proposed =>
      some { state with calls := state.calls ++ [⟨proposed, .locking⟩] }
  | .lock index =>
      match state.calls[index]? with
      | some ⟨proposed, .locking⟩ =>
          if state.gathering = none then some (state.lock index proposed)
          else none
      | _ => none
  | .gathered =>
      match state.gathering with
      | some ⟨call, proposed, removed, cancelled⟩ =>
          if ¬ state.AllDone removed then none
          else if cancelled then
            some { state.setPhase call .raised with gathering := none }
          else some (state.populate call proposed)
      | none => none
  | .passed index =>
      match state.calls[index]? with
      | some ⟨proposed, .waiting added⟩ =>
          if ∀ task ∈ added, state.firstPass task = some .delivered then
            some (state.finishCall index proposed added)
          else none
      | _ => none
  | .expires index =>
      match state.calls[index]? with
      | some ⟨_, .waiting added⟩ => some (state.abandon index added)
      | _ => none
  | .cancelCall index =>
      match state.calls[index]? with
      | some ⟨_, .locking⟩ => some (state.setPhase index .raised)
      | some ⟨_, .gathering⟩ =>
          -- `gather` raises only when all removed tasks are done.
          state.gathering.map fun held =>
            { state with gathering := some { held with cancelled := true } }
      | some ⟨_, .waiting added⟩ => some (state.abandon index added)
      | _ => none
  | .loopResumes =>
      match state.loop, state.calls[0]?.map ReplaceCall.phase with
      | .starting, some (.returned _) =>
          some { state with loop := .watching }
      | .starting, some .raised => some { state with loop := .left }
      | _, _ => none
  | .loopLooks =>
      if state.loop = .watching then
        if state.stopSet ∨ state.SomeFailed then
          some state.finishLoop
        else some state
      else none
  | .loopClears =>
      match state.loop with
      | .finishing tasks =>
          if state.AllDone tasks then
            some { state with
              oiTasks := Dict.empty
              loop := .cleared }
          else none
      | _ => none
  | .cancelLoop =>
      match state.loop with
      | .watching => some state.finishLoop
      | .finishing _ => some { state with loop := .left }
      | _ => none
  | .stop => some { state with stopSet := true }

/-! ## What a task goes through -/

namespace Poller

/-- The task has put a sample. -/
def Sampled (poller : Poller) : Prop :=
  poller.firstPass = .delivered ∨ poller.phase = .closing

/-- What becomes of a task. -/
structure Ages (before after : Poller) : Prop where
  symbol : after.symbol = before.symbol
  done : before.phase.Done → after.phase.Done
  cancelled : before.cancelRequested = true → after.cancelRequested = true

theorem Ages.refl (poller : Poller) : Ages poller poller :=
  ⟨rfl, id, id⟩

theorem ages_cancel (poller : Poller) : Ages poller poller.cancel := by
  unfold cancel
  split
  · exact Ages.refl poller
  · exact ⟨rfl, id, fun _ => rfl⟩

theorem sampled_cancel {poller : Poller} :
    poller.cancel.Sampled ↔ poller.Sampled := by
  unfold cancel
  split <;> rfl

theorem cancelRequested_cancel {poller : Poller}
    (running : ¬ poller.phase.Done) :
    poller.cancel.cancelRequested = true := by
  rw [cancel, if_neg running]

theorem ages_forsake (poller : Poller) : Ages poller poller.forsake := by
  unfold forsake
  split
  · exact ⟨rfl, id, id⟩
  · exact Ages.refl poller

theorem sampled_forsake {poller : Poller}
    (sampled : poller.forsake.Sampled) : poller.Sampled := by
  unfold forsake at sampled
  split at sampled
  · rcases sampled with delivered | closing
    · cases delivered
    · exact Or.inr closing
  · exact sampled

variable {stopSet : Bool} {poller next : Poller} {label : PollLabel}

/-- What a step of a task which was not cancelled keeps. -/
theorem advance_keeps
    (advanced : poller.advance stopSet label = some next) :
    next.symbol = poller.symbol ∧ ¬ poller.phase.Done ∧
      next.cancelRequested = poller.cancelRequested := by
  cases label with
  | wakes =>
      simp only [advance, Option.ite_none_right_eq_some,
        Option.some.injEq] at advanced
      rcases advanced with ⟨isPhase, rfl⟩
      simp [PollPhase.Done, isPhase]
  | received =>
      simp only [advance, Option.ite_none_right_eq_some,
        Option.some.injEq] at advanced
      rcases advanced with ⟨isPhase, rfl⟩
      split <;> simp [PollPhase.Done, isPhase, deliver]
  | fails overloaded =>
      simp only [advance, Option.ite_none_right_eq_some,
        Option.some.injEq] at advanced
      rcases advanced with ⟨isPhase | isPhase, rfl⟩ <;>
        simp [PollPhase.Done, isPhase]
  | opened gapId =>
      simp only [advance] at advanced
      split at advanced
      next overloaded isPhase =>
        cases advanced
        simp [PollPhase.Done, isPhase]
      next => cases advanced
  | closed =>
      simp only [advance, Option.ite_none_right_eq_some,
        Option.some.injEq] at advanced
      rcases advanced with ⟨isPhase, rfl⟩
      simp [PollPhase.Done, isPhase, deliver]
  | resumed =>
      simp only [advance, Option.ite_none_right_eq_some,
        Option.some.injEq] at advanced
      rcases advanced with ⟨isPhase, rfl⟩
      simp [PollPhase.Done, isPhase]
  | raises =>
      simp only [advance, Option.ite_none_left_eq_some,
        Option.some.injEq] at advanced
      rcases advanced with ⟨running, rfl⟩
      exact ⟨rfl, fun done => running (Or.inl done), rfl⟩
  | cancelled => cases advanced

/-- Only a poll which succeeds makes a task deliver. -/
theorem advance_sampled
    (advanced : poller.advance stopSet label = some next)
    (sampled : next.Sampled) : poller.Sampled ∨ label = .received := by
  cases label with
  | received => exact Or.inr rfl
  | wakes =>
      simp only [advance, Option.ite_none_right_eq_some,
        Option.some.injEq] at advanced
      rcases advanced with ⟨_, rfl⟩
      rcases sampled with delivered | closing
      · exact Or.inl (Or.inl delivered)
      · cases stopSet <;> cases closing
  | fails overloaded =>
      simp only [advance, Option.ite_none_right_eq_some,
        Option.some.injEq] at advanced
      rcases advanced with ⟨_, rfl⟩
      rcases sampled with delivered | closing
      · exact Or.inl (Or.inl delivered)
      · cases overloaded <;> simp [afterFailure] at closing <;>
          split at closing <;> cases closing
  | opened gapId =>
      simp only [advance] at advanced
      split at advanced
      next overloaded _ =>
        cases advanced
        rcases sampled with delivered | closing
        · exact Or.inl (Or.inl delivered)
        · cases overloaded <;> cases closing
      next => cases advanced
  | closed =>
      simp only [advance, Option.ite_none_right_eq_some,
        Option.some.injEq] at advanced
      exact Or.inl (Or.inr advanced.1)
  | resumed =>
      simp only [advance, Option.ite_none_right_eq_some,
        Option.some.injEq] at advanced
      rcases advanced with ⟨_, rfl⟩
      rcases sampled with delivered | closing
      · exact Or.inl (Or.inl delivered)
      · cases closing
  | raises =>
      simp only [advance, Option.ite_none_left_eq_some,
        Option.some.injEq] at advanced
      rcases advanced with ⟨_, rfl⟩
      rcases sampled with delivered | closing
      · exact Or.inl (Or.inl delivered)
      · cases closing
  | cancelled => cases advanced

theorem step_ages (stepped : poller.step stopSet label = some next) :
    Ages poller next := by
  unfold step at stepped
  split at stepped
  next requested =>
    simp only [Option.ite_none_right_eq_some, Option.some.injEq] at stepped
    rcases stepped with ⟨_, rfl⟩
    exact ⟨rfl, fun _ => Or.inr (Or.inr rfl), id⟩
  next requested =>
    rcases advance_keeps stepped with ⟨symbol, running, same⟩
    exact ⟨symbol, fun done => absurd done running, by
      rw [same]
      exact id⟩

theorem step_sampled (stepped : poller.step stopSet label = some next)
    (sampled : next.Sampled) : poller.Sampled ∨ label = .received := by
  unfold step at stepped
  split at stepped
  next =>
    simp only [Option.ite_none_right_eq_some, Option.some.injEq] at stepped
    rcases stepped with ⟨_, rfl⟩
    rcases sampled with delivered | closing
    · exact Or.inl (Or.inl delivered)
    · cases closing
  next => exact advance_sampled stepped sampled

/-- A sample is put by a task which runs and was not cancelled. -/
theorem step_received
    (stepped : poller.step stopSet .received = some next) :
    poller.cancelRequested = false ∧ ¬ poller.phase.Done := by
  unfold step at stepped
  split at stepped
  next =>
    simp at stepped
  next requested =>
    exact ⟨by simpa using requested, (advance_keeps stepped).2.1⟩

end Poller

end ShadowDataPlane.Edge
