import ShadowDataPlane.Edge.OpenInterest

/-!
# What the open interest pollers serve

`Sound` is what holds between any two steps.  Most steps only let tasks and
calls go on (`Evolves`); a call which has the lock takes tasks away and adds
others.  The universe is served as long as the loop has not cleared its tasks:
no symbol is polled twice, samples are of instruments, and the readiness is
reported with a sample of each.
-/

namespace ShadowDataPlane.Edge

open ShadowDataPlane.Foundation
open ShadowDataPlane.Contracts

/-! ## What holds between any two steps -/

namespace PollersState

/-- The task has not ended, and it is for the symbol. -/
def Polls (state : PollersState) (task : Nat) (symbol : String) : Prop :=
  ∃ poller ∈ state.pollers[task]?, poller.symbol = symbol ∧
    ¬ poller.phase.Done

/-- A call waits for the task to end. -/
def Removing (state : PollersState) (task : Nat) : Prop :=
  ∃ held ∈ state.gathering, task ∈ held.removed

/-- What the call which holds the lock relies on. -/
structure Removes (state : PollersState) (held : Gathering) : Prop where
  within : ∀ symbol task, state.oiTasks.get? symbol = some task →
    symbol ∈ held.proposed
  outside : ∀ task ∈ held.removed, ∀ poller ∈ state.pollers[task]?,
    poller.symbol ∉ held.proposed ∧
      (poller.phase.Done ∨ poller.cancelRequested = true)
  apart : ∀ left ∈ held.removed, ∀ right ∈ held.removed, ∀ symbol,
    state.Polls left symbol → state.Polls right symbol → left = right

/-- The call of this number proposes these symbols. -/
def Called (state : PollersState) (index : Nat) (proposed : List String) :
    Prop :=
  ∃ call ∈ state.calls[index]?, call.proposed = proposed

/--
What the dictionaries know of the tasks and the calls.  The end of the loop
forgets tasks, so that two fields hold only before it.
-/
structure Sound (state : PollersState) : Prop where
  tasks : ∀ symbol task, state.oiTasks.get? symbol = some task →
    ∃ poller ∈ state.pollers[task]?, poller.symbol = symbol
  kept : ∀ symbol task, state.oiTasks.get? symbol = some task →
    symbol ∈ state.instruments
  removes : ∀ held ∈ state.gathering, state.Removes held
  called : ∀ held ∈ state.gathering, state.Called held.call held.proposed
  polled : state.loop ≠ .cleared → ∀ task symbol, state.Polls task symbol →
    state.oiTasks.get? symbol = some task ∨ state.Removing task
  passes : state.loop ≠ .cleared → ∀ symbol task,
    state.oiFirstPass.get? symbol = some task ↔
      state.oiTasks.get? symbol = some task
  sampled : ∀ task : Nat, ∀ poller ∈ state.pollers[task]?,
    poller.Sampled → task ∈ state.recorded
  returned : ∀ call ∈ state.calls, ∀ added, call.phase = .returned added →
    ∀ task ∈ added, task ∈ state.recorded

/-- Calls come to an end. -/
structure CallsEvolve (before : PollersState) (calls : List ReplaceCall) :
    Prop where
  called : ∀ index : Nat, ∀ old ∈ before.calls[index]?,
    ∃ call ∈ calls[index]?, call.proposed = old.proposed
  returned : ∀ call ∈ calls, ∀ added, call.phase = .returned added →
    (∃ old ∈ before.calls, old.phase = .returned added) ∨
      ∀ task ∈ added, task ∈ before.recorded

/-- Tasks go on, and calls come to an end. -/
structure Evolves (change : Nat → Poller → Poller)
    (before after : PollersState) : Prop where
  instruments : after.instruments = before.instruments
  oiTasks : after.oiTasks = before.oiTasks
  oiFirstPass : after.oiFirstPass = before.oiFirstPass
  gathering : after.gathering.map (fun held =>
      (held.call, held.proposed, held.removed)) =
    before.gathering.map fun held =>
      (held.call, held.proposed, held.removed)
  loop : before.loop = .cleared → after.loop = .cleared
  pollers : ∀ task : Nat,
    after.pollers[task]? = before.pollers[task]?.map (change task)
  ages : ∀ task : Nat, ∀ poller ∈ before.pollers[task]?,
    poller.Ages (change task poller)
  sampled : ∀ task : Nat, ∀ poller ∈ before.pollers[task]?,
    (change task poller).Sampled →
      poller.Sampled ∨ task ∈ after.recorded
  recorded : before.recorded ⊆ after.recorded
  calls : CallsEvolve before after.calls

section Evolves

variable {before after : PollersState} {change : Nat → Poller → Poller}

theorem Evolves.origin
    (evolves : Evolves change before after) {task : Nat} {next : Poller}
    (isNext : next ∈ after.pollers[task]?) :
    ∃ poller ∈ before.pollers[task]?, change task poller = next := by
  rw [Option.mem_def, evolves.pollers, Option.map_eq_some_iff] at isNext
  exact isNext

theorem Evolves.polls
    (evolves : Evolves change before after) {task : Nat} {symbol : String}
    (polls : after.Polls task symbol) : before.Polls task symbol := by
  rcases polls with ⟨next, isNext, isSymbol, running⟩
  rcases evolves.origin isNext with ⟨poller, isPoller, rfl⟩
  have ages := evolves.ages task poller isPoller
  exact ⟨poller, isPoller, ages.symbol ▸ isSymbol,
    fun done => running (ages.done done)⟩

/-- The call which holds the lock removes what it did. -/
theorem Evolves.held
    (evolves : Evolves change before after) {held : Gathering}
    (isHeld : held ∈ after.gathering) :
    ∃ old ∈ before.gathering, old.call = held.call ∧
      old.proposed = held.proposed ∧ old.removed = held.removed := by
  have same := evolves.gathering
  rw [Option.mem_def.mp isHeld] at same
  rcases Option.map_eq_some_iff.mp same.symm with ⟨old, isOld, equal⟩
  simp only [Prod.mk.injEq] at equal
  exact ⟨old, isOld, equal⟩

theorem Evolves.removing
    (evolves : Evolves change before after) {task : Nat}
    (removing : before.Removing task) : after.Removing task := by
  rcases removing with ⟨old, isOld, isRemoved⟩
  have same := evolves.gathering
  rw [Option.mem_def.mp isOld] at same
  rcases Option.map_eq_some_iff.mp same with ⟨held, isHeld, equal⟩
  simp only [Prod.mk.injEq] at equal
  rw [← equal.2.2] at isRemoved
  exact ⟨held, isHeld, isRemoved⟩

theorem Sound.evolve
    (sound : Sound before) (evolves : Evolves change before after) :
    Sound after where
  tasks symbol task bound := by
    rw [evolves.oiTasks] at bound
    rcases sound.tasks symbol task bound with ⟨poller, isPoller, isSymbol⟩
    refine ⟨change task poller, ?_, ?_⟩
    · rw [Option.mem_def, evolves.pollers, Option.mem_def.mp isPoller,
        Option.map_some]
    · rw [(evolves.ages task poller isPoller).symbol, isSymbol]
  kept symbol task bound := by
    rw [evolves.oiTasks] at bound
    rw [evolves.instruments]
    exact sound.kept symbol task bound
  removes held isHeld := by
    rcases evolves.held isHeld with ⟨old, isOld, _, proposed, removed⟩
    have removes := sound.removes old isOld
    exact {
      within := by
        rw [evolves.oiTasks, ← proposed]
        exact removes.within
      outside := by
        intro task isRemoved next isNext
        rw [← removed] at isRemoved
        rcases evolves.origin isNext with ⟨poller, isPoller, rfl⟩
        have ages := evolves.ages task poller isPoller
        have outside := removes.outside task isRemoved poller isPoller
        rw [ages.symbol, ← proposed]
        exact ⟨outside.1, outside.2.imp ages.done ages.cancelled⟩
      apart := by
        intro left isLeft right isRight symbol polls others
        rw [← removed] at isLeft isRight
        exact removes.apart left isLeft right isRight symbol
          (evolves.polls polls) (evolves.polls others) }
  called held isHeld := by
    rcases evolves.held isHeld with ⟨old, isOld, isCall, proposed, _⟩
    rcases sound.called old isOld with ⟨call, found, isProposed⟩
    rcases evolves.calls.called old.call call found with
      ⟨next, isNext, same⟩
    rw [isCall] at isNext
    exact ⟨next, isNext, same.trans (isProposed.trans proposed)⟩
  polled running task symbol polls := by
    have wasRunning : before.loop ≠ .cleared := mt evolves.loop running
    rw [evolves.oiTasks]
    exact (sound.polled wasRunning task symbol (evolves.polls polls)).imp_right
      evolves.removing
  passes running symbol task := by
    have wasRunning : before.loop ≠ .cleared := mt evolves.loop running
    rw [evolves.oiTasks, evolves.oiFirstPass]
    exact sound.passes wasRunning symbol task
  sampled task next isNext sampled := by
    rcases evolves.origin isNext with ⟨poller, isPoller, rfl⟩
    rcases evolves.sampled task poller isPoller sampled with before | now
    · exact evolves.recorded (sound.sampled task poller isPoller before)
    · exact now
  returned call isCall added isPhase task isAdded := by
    apply evolves.recorded
    rcases evolves.calls.returned call isCall added isPhase with
      ⟨old, isOld, wasPhase⟩ | recorded
    · exact sound.returned old isOld added wasPhase task isAdded
    · exact recorded task isAdded

/-- Nothing happens to the tasks. -/
theorem evolves_calls
    {calls : List ReplaceCall} {reported stopSet : Bool} {loop : PollLoop}
    (state : PollersState) (loops : state.loop = .cleared → loop = .cleared)
    (evolve : CallsEvolve state calls) :
    Evolves (fun _ poller => poller) state
      { state with
        calls := calls
        readyReported := reported
        stopSet := stopSet
        loop := loop } where
  instruments := rfl
  oiTasks := rfl
  oiFirstPass := rfl
  gathering := rfl
  loop := loops
  pollers task := by simp
  ages _ poller _ := Poller.Ages.refl poller
  sampled _ _ _ := Or.inl
  recorded := List.Subset.refl _
  calls := evolve

theorem CallsEvolve.refl (state : PollersState) :
    CallsEvolve state state.calls where
  called _ old isOld := ⟨old, isOld, rfl⟩
  returned call isCall _ isPhase := Or.inl ⟨call, isCall, isPhase⟩

theorem evolves_refl (state : PollersState) :
    Evolves (fun _ poller => poller) state state :=
  evolves_calls state id (CallsEvolve.refl state)

/-- A call which has returned returned before, or does so now. -/
theorem CallsEvolve.setPhase
    (state : PollersState) (index : Nat) {phase : CallPhase}
    (allowed : ∀ added, phase = .returned added →
      ∀ task ∈ added, task ∈ state.recorded) :
    CallsEvolve state (state.setPhase index phase).calls where
  called place old isOld := by
    rw [PollersState.setPhase, List.getElem?_modify, Option.mem_def.mp isOld]
    refine ⟨_, rfl, ?_⟩
    split <;> rfl
  returned call isCall added isPhase := by
    rcases List.mem_iff_getElem?.mp isCall with ⟨place, found⟩
    rw [PollersState.setPhase, List.getElem?_modify] at found
    rcases Option.map_eq_some_iff.mp found with ⟨old, isOld, rfl⟩
    split at isPhase
    · exact Or.inr (allowed added isPhase)
    · exact Or.inl ⟨old, List.mem_of_getElem? isOld, isPhase⟩

/-- What the end of a call comes to. -/
theorem finishCall_cases
    (state : PollersState) (index : Nat) (proposed : List String)
    (added : List Nat) :
    ∃ phase reported,
      state.finishCall index proposed added =
        { state.setPhase index phase with readyReported := reported } ∧
      (phase = .returned added ∨ phase = .raised) ∧
      (reported = true → state.readyReported = true ∨
        phase = .returned added ∧ state.AwaitsExactly proposed ∧
          ∀ task ∈ state.oiFirstPass.values,
            state.firstPass task = some .delivered) := by
  simp only [finishCall]
  split
  next due =>
    split
    next found =>
      refine ⟨.returned added, true, rfl, Or.inl rfl, fun _ => Or.inr
        ⟨rfl, due.2, ?_⟩⟩
      intro task member
      simpa using List.find?_eq_none.mp found task member
    next task found =>
      split
      · exact ⟨.raised, state.readyReported, rfl, Or.inr rfl, Or.inl⟩
      · exact ⟨.returned added, state.readyReported, rfl, Or.inl rfl, Or.inl⟩
  next => exact ⟨.returned added, state.readyReported, rfl, Or.inl rfl, Or.inl⟩

theorem Sound.setPhase
    {state : PollersState} (sound : Sound state) (index : Nat)
    {phase : CallPhase}
    (allowed : ∀ added, phase = .returned added →
      ∀ task ∈ added, task ∈ state.recorded) :
    Sound (state.setPhase index phase) :=
  sound.evolve (evolves_calls state id
    (CallsEvolve.setPhase state index allowed))

theorem Sound.finishCall
    {state : PollersState} (sound : Sound state) (index : Nat)
    (proposed : List String) {added : List Nat}
    (delivered : ∀ task ∈ added, state.firstPass task = some .delivered) :
    Sound (state.finishCall index proposed added) := by
  rcases finishCall_cases state index proposed added with
    ⟨phase, reported, isState, isPhase, _⟩
  rw [isState]
  refine sound.evolve (evolves_calls state id
    (CallsEvolve.setPhase state index ?_))
  intro others isReturned task isTask
  rcases isPhase with rfl | rfl
  · cases isReturned
    rcases Option.map_eq_some_iff.mp (delivered task isTask) with
      ⟨poller, isPoller, isDelivered⟩
    exact sound.sampled task poller isPoller (Or.inl isDelivered)
  · cases isReturned

end Evolves

/-! ## What a call does behind the lock -/

section Calls

variable {state : PollersState} {index : Nat} {proposed : List String}

theorem mem_removedTasks {task : Nat} :
    task ∈ state.removedTasks proposed ↔
      ∃ symbol, symbol ∉ proposed ∧
        state.oiTasks.get? symbol = some task := by
  simp only [removedTasks, Dict.mem_values_iff, Dict.get?_filterKey,
    decide_eq_true_eq, Option.ite_none_right_eq_some]

/-- Without tasks to wait for, every task which polls is known. -/
theorem Sound.bound
    (sound : Sound state)
    (done : ∀ held ∈ state.gathering, state.AllDone held.removed)
    (running : state.loop ≠ .cleared) {task : Nat} {symbol : String}
    (polls : state.Polls task symbol) :
    state.oiTasks.get? symbol = some task := by
  rcases sound.polled running task symbol polls with
    bound | ⟨held, isHeld, isRemoved⟩
  · exact bound
  · rcases polls with ⟨poller, isPoller, _, notDone⟩
    exact absurd (done held isHeld task isRemoved poller isPoller) notDone

theorem Sound.released
    (sound : Sound state)
    (done : ∀ held ∈ state.gathering, state.AllDone held.removed) :
    Sound { state with gathering := none } where
  tasks := sound.tasks
  kept := sound.kept
  removes := by
    rintro held ⟨⟩
  called := by
    rintro held ⟨⟩
  polled running _ _ polls := Or.inl (sound.bound done running polls)
  passes := sound.passes
  sampled := sound.sampled
  returned := sound.returned

theorem Sound.removeTasks
    (sound : Sound state) (free : state.gathering = none)
    (called : state.Called index proposed) :
    Sound (state.removeTasks index proposed) := by
  have origin : ∀ (task : Nat),
      ∀ next ∈ (state.removeTasks index proposed).pollers[task]?,
        ∃ poller ∈ state.pollers[task]?, poller.Ages next ∧
          (next.Sampled → poller.Sampled) ∧
          (task ∈ state.removedTasks proposed → next = poller.cancel) := by
    intro task next isNext
    rw [Option.mem_def, PollersState.removeTasks, cancelTasks,
      List.getElem?_mapIdx] at isNext
    rcases Option.map_eq_some_iff.mp isNext with ⟨poller, isPoller, rfl⟩
    refine ⟨poller, isPoller, ?_⟩
    split
    next => exact ⟨poller.ages_cancel, Poller.sampled_cancel.mp, fun _ => rfl⟩
    next kept =>
      exact ⟨Poller.Ages.refl poller, id, fun removed => absurd removed kept⟩
  have polls : ∀ {task symbol},
      (state.removeTasks index proposed).Polls task symbol →
        state.Polls task symbol := by
    rintro task symbol ⟨next, isNext, isSymbol, running⟩
    rcases origin task next isNext with ⟨poller, isPoller, ages, _⟩
    exact ⟨poller, isPoller, ages.symbol ▸ isSymbol,
      fun done => running (ages.done done)⟩
  have bound : ∀ {symbol task},
      (state.removeTasks index proposed).oiTasks.get? symbol = some task →
        symbol ∈ proposed ∧ state.oiTasks.get? symbol = some task := by
    intro symbol task found
    simpa only [PollersState.removeTasks, Dict.get?_filterKey,
      decide_eq_true_eq, Option.ite_none_right_eq_some] using found
  have idle : ∀ held ∈ state.gathering, state.AllDone held.removed := by
    rw [free]
    rintro held ⟨⟩
  exact {
    tasks := by
      intro symbol task found
      rcases sound.tasks symbol task (bound found).2 with
        ⟨poller, isPoller, rfl⟩
      have isNext : (state.removeTasks index proposed).pollers[task]? =
          some (if task ∈ state.removedTasks proposed then poller.cancel
            else poller) := by
        rw [PollersState.removeTasks, cancelTasks, List.getElem?_mapIdx,
          Option.mem_def.mp isPoller, Option.map_some]
      refine ⟨_, isNext, ?_⟩
      rcases origin task _ isNext with ⟨other, isOther, ages, _⟩
      rw [ages.symbol, Option.mem_unique isOther isPoller]
    kept := fun symbol task found => sound.kept symbol task (bound found).2
    removes := by
      rintro held ⟨⟩
      refine ⟨fun _ _ found => (bound found).1, ?_, ?_⟩
      · intro task isRemoved next isNext
        rcases origin task next isNext with
          ⟨poller, isPoller, ages, _, cancelled⟩
        rcases mem_removedTasks.mp isRemoved with ⟨symbol, notKept, found⟩
        rcases sound.tasks symbol task found with ⟨other, isOther, rfl⟩
        rw [Option.mem_unique isOther isPoller] at notKept
        rw [ages.symbol]
        refine ⟨notKept, ?_⟩
        by_cases done : poller.phase.Done
        · exact Or.inl (ages.done done)
        · rw [cancelled isRemoved]
          exact Or.inr (Poller.cancelRequested_cancel done)
      · intro left isLeft right isRight symbol leftPolls rightPolls
        have known : ∀ task ∈ state.removedTasks proposed,
            state.Polls task symbol →
              state.oiTasks.get? symbol = some task := by
          rintro task isRemoved ⟨poller, isPoller, rfl, _⟩
          rcases mem_removedTasks.mp isRemoved with ⟨other, _, found⟩
          rcases sound.tasks other task found with ⟨same, isSame, rfl⟩
          rw [← Option.mem_unique isSame isPoller]
          exact found
        have first := known left isLeft (polls leftPolls)
        have second := known right isRight (polls rightPolls)
        exact Option.some.inj (first.symm.trans second)
    called := by
      rintro held ⟨⟩
      exact called
    polled := by
      intro running task symbol others
      have found := sound.bound idle running (polls others)
      by_cases isKept : symbol ∈ proposed
      · left
        simpa only [PollersState.removeTasks, Dict.get?_filterKey,
          decide_eq_true_eq, Option.ite_none_right_eq_some] using
            And.intro isKept found
      · exact Or.inr ⟨_, rfl, mem_removedTasks.mpr ⟨symbol, isKept, found⟩⟩
    passes := by
      intro running symbol task
      have passed := sound.passes running symbol task
      simp only [PollersState.removeTasks, Dict.get?_filterKey]
      by_cases isKept : symbol ∈ proposed
      · simpa [isKept] using passed
      · simp only [isKept, false_or, decide_false, Bool.false_eq_true,
          if_false, decide_eq_true_eq, Option.ite_none_right_eq_some]
        constructor
        · rintro ⟨unbound, found⟩
          rw [passed, unbound] at found
          exact found
        · rintro ⟨⟩
    sampled := by
      intro task next isNext sampled
      rcases origin task next isNext with ⟨poller, isPoller, _, before, _⟩
      exact sound.sampled task poller isPoller (before sampled)
    returned := sound.returned }

theorem mem_addedSymbols {symbol : String} :
    symbol ∈ state.addedSymbols proposed ↔
      symbol ∈ proposed ∧ state.oiTasks.get? symbol = none := by
  simp [addedSymbols]

theorem nodup_addedSymbols (state : PollersState) (proposed : List String) :
    (state.addedSymbols proposed).Nodup :=
  (sortSymbols_perm _).nodup_iff.mpr ((List.nodup_dedup _).filter _)

theorem map_fst_numbered (state : PollersState) (symbols : List String) :
    (state.numbered symbols).map Prod.fst = symbols := by
  simp [numbered]

/-- The new tasks, and those which were there. -/
theorem mem_pollers_createTasks {task : Nat} {poller : Poller} :
    poller ∈ (state.createTasks proposed).pollers[task]? ↔
      poller ∈ state.pollers[task]? ∨
        ∃ symbol, (symbol, task) ∈
            state.numbered (state.addedSymbols proposed) ∧
          poller = .created symbol := by
  simp only [createTasks, numbered, List.getElem?_append, Option.mem_def,
    List.mem_zipIdx_iff_le_and_getElem?_sub]
  split
  next old =>
    constructor
    · exact Or.inl
    · rintro (found | ⟨symbol, ⟨new, _⟩, _⟩)
      · exact found
      · omega
  next new =>
    rw [List.getElem?_eq_none (not_lt.mp new), List.getElem?_map,
      Option.map_eq_some_iff]
    constructor
    · rintro ⟨symbol, found, rfl⟩
      exact Or.inr ⟨symbol, ⟨not_lt.mp new, found⟩, rfl⟩
    · rintro (⟨⟨⟩⟩ | ⟨symbol, ⟨_, found⟩, rfl⟩)
      exact ⟨symbol, found, rfl⟩

theorem oiTasks_createTasks {symbol : String} {task : Nat} :
    (state.createTasks proposed).oiTasks.get? symbol = some task ↔
      (symbol, task) ∈ state.numbered (state.addedSymbols proposed) ∨
        state.oiTasks.get? symbol = some task := by
  have distinct := nodup_addedSymbols state proposed
  rw [← map_fst_numbered state (state.addedSymbols proposed)] at distinct
  rw [createTasks, get?_bindAll_eq_some_iff distinct, map_fst_numbered,
    mem_addedSymbols]
  constructor
  · exact Or.imp_right And.right
  · refine Or.imp_right fun found => ⟨?_, found⟩
    rintro ⟨_, absent⟩
    rw [absent] at found
    cases found

theorem Sound.createTasks
    (sound : Sound state)
    (done : ∀ held ∈ state.gathering, state.AllDone held.removed)
    (within : ∀ symbol task, state.oiTasks.get? symbol = some task →
      symbol ∈ proposed) :
    Sound (state.createTasks proposed) where
  tasks symbol task found := by
    rcases oiTasks_createTasks.mp found with new | old
    · exact ⟨.created symbol,
        mem_pollers_createTasks.mpr (Or.inr ⟨symbol, new, rfl⟩), rfl⟩
    · rcases sound.tasks symbol task old with ⟨poller, isPoller, isSymbol⟩
      exact ⟨poller, mem_pollers_createTasks.mpr (Or.inl isPoller), isSymbol⟩
  kept symbol task found := by
    rcases oiTasks_createTasks.mp found with new | old
    · have isAdded := List.mem_map_of_mem (f := Prod.fst) new
      rw [map_fst_numbered] at isAdded
      exact (mem_addedSymbols.mp isAdded).1
    · exact within symbol task old
  removes := by
    rintro held ⟨⟩
  called := by
    rintro held ⟨⟩
  polled running task symbol polls := by
    left
    rcases polls with ⟨poller, isPoller, isSymbol, notDone⟩
    rcases mem_pollers_createTasks.mp isPoller with
      old | ⟨added, new, rfl⟩
    · exact oiTasks_createTasks.mpr (Or.inr
        (sound.bound done running ⟨poller, old, isSymbol, notDone⟩))
    · cases isSymbol
      exact oiTasks_createTasks.mpr (Or.inl new)
  passes running symbol task := by
    have distinct := nodup_addedSymbols state proposed
    rw [← map_fst_numbered state (state.addedSymbols proposed)] at distinct
    rw [PollersState.createTasks, get?_bindAll_eq_some_iff distinct,
      get?_bindAll_eq_some_iff distinct, sound.passes running symbol task]
  sampled task poller isPoller sampled := by
    rcases mem_pollers_createTasks.mp isPoller with old | ⟨symbol, _, rfl⟩
    · exact sound.sampled task poller old sampled
    · rcases sampled with ⟨⟨⟩⟩ | ⟨⟨⟩⟩
  returned := sound.returned

theorem Sound.populate
    (sound : Sound state)
    (done : ∀ held ∈ state.gathering, state.AllDone held.removed)
    (within : ∀ symbol task, state.oiTasks.get? symbol = some task →
      symbol ∈ proposed) :
    Sound (state.populate index proposed) := by
  have created := sound.createTasks done within
  simp only [PollersState.populate]
  split
  next => exact created.finishCall index proposed (by simp)
  next => exact created.setPhase index (by simp)

theorem Sound.lock
    (sound : Sound state) (free : state.gathering = none)
    (called : state.Called index proposed) :
    Sound (state.lock index proposed) := by
  have removed := sound.removeTasks free called
  unfold PollersState.lock
  split
  next nothing =>
    refine removed.populate ?_ ?_
    · rintro held ⟨⟩ task isRemoved
      rw [nothing] at isRemoved
      cases isRemoved
    · exact (removed.removes _ rfl).within
  next => exact removed.setPhase index (by simp)

end Calls

/-! ## One step -/

section Step

variable {before after : PollersState}

theorem pollerStep_eq_some
    {index : Nat} {label : PollLabel}
    (stepped : before.pollerStep index label = some after) :
    ∃ poller ∈ before.pollers[index]?, ∃ next,
      poller.step before.stopSet label = some next ∧
        after = { before with
          pollers := before.pollers.set index next
          recorded :=
            if label = .received then before.recorded ++ [index]
            else before.recorded } := by
  simp only [pollerStep, Option.bind_eq_bind, Option.bind_eq_some_iff,
    Option.pure_def, Option.some.injEq] at stepped
  rcases stepped with ⟨poller, isPoller, next, isNext, rfl⟩
  exact ⟨poller, isPoller, next, isNext, rfl⟩

theorem Sound.pollerStep
    {index : Nat} {label : PollLabel} (sound : Sound before)
    (stepped : before.pollerStep index label = some after) : Sound after := by
  rcases pollerStep_eq_some stepped with
    ⟨poller, isPoller, next, isNext, rfl⟩
  have only : ∀ old ∈ before.pollers[index]?, old = poller :=
    fun old isOld => Option.mem_unique isOld isPoller
  have evolves : Evolves (fun task old => if task = index then next else old)
      before { before with
        pollers := before.pollers.set index next
        recorded :=
          if label = .received then before.recorded ++ [index]
          else before.recorded } := {
    instruments := rfl
    oiTasks := rfl
    oiFirstPass := rfl
    gathering := rfl
    loop := id
    pollers := by
      intro task
      by_cases here : task = index
      · subst here
        have inside := (List.getElem?_eq_some_iff.mp isPoller).1
        simp [List.getElem?_set_self inside, Option.mem_def.mp isPoller]
      · simp [List.getElem?_set_ne (Ne.symm here), here]
    ages := by
      intro task old isOld
      by_cases here : task = index
      · subst here
        rw [if_pos rfl, only old isOld]
        exact Poller.step_ages isNext
      · rw [if_neg here]
        exact Poller.Ages.refl old
    sampled := by
      intro task old isOld sampled
      by_cases here : task = index
      · subst here
        rw [if_pos rfl] at sampled
        rw [only old isOld]
        refine (Poller.step_sampled isNext sampled).imp_right fun received => ?_
        simp [received]
      · rw [if_neg here] at sampled
        exact Or.inl sampled
    recorded := by
      split
      · exact List.subset_append_left _ _
      · exact List.Subset.refl _
    calls := CallsEvolve.refl before }
  exact sound.evolve evolves

/-- The tasks of some numbers change without anything else. -/
theorem Sound.changeTasks
    {calls : List ReplaceCall} {loop : PollLoop} {tasks : List Nat}
    {change : Poller → Poller} (sound : Sound before)
    (ages : ∀ poller : Poller, poller.Ages (change poller))
    (sampled : ∀ poller : Poller, (change poller).Sampled → poller.Sampled)
    (loops : before.loop = .cleared → loop = .cleared)
    (evolve : CallsEvolve before calls) :
    Sound { before with
      pollers := before.pollers.mapIdx fun task poller =>
        if task ∈ tasks then change poller else poller
      calls := calls
      loop := loop } := by
  have evolves : Evolves
      (fun task poller => if task ∈ tasks then change poller else poller)
      before { before with
        pollers := before.pollers.mapIdx fun task poller =>
          if task ∈ tasks then change poller else poller
        calls := calls
        loop := loop } := {
    instruments := rfl
    oiTasks := rfl
    oiFirstPass := rfl
    gathering := rfl
    loop := loops
    pollers := fun task => List.getElem?_mapIdx
    ages := by
      intro task poller _
      split
      · exact ages poller
      · exact Poller.Ages.refl poller
    sampled := by
      intro task poller _ now
      split at now
      · exact Or.inl (sampled poller now)
      · exact Or.inl now
    recorded := List.Subset.refl _
    calls := evolve }
  exact sound.evolve evolves

theorem Sound.abandon
    (sound : Sound before) (index : Nat) (added : List Nat) :
    Sound (before.abandon index added) :=
  sound.changeTasks Poller.ages_forsake (fun _ => Poller.sampled_forsake) id
    (CallsEvolve.setPhase before index (by simp))

theorem Sound.finishLoop
    (sound : Sound before) (watching : before.loop = .watching) :
    Sound before.finishLoop :=
  sound.changeTasks Poller.ages_cancel (fun _ => Poller.sampled_cancel.mp)
    (by simp [watching]) (CallsEvolve.refl before)

theorem Sound.step
    {label : PollersLabel} (sound : Sound before)
    (stepped : pollersStep before label = some after) : Sound after := by
  cases label with
  | poller index label => exact sound.pollerStep stepped
  | update proposed =>
      cases stepped
      refine sound.evolve (evolves_calls before id ⟨?_, ?_⟩)
      · intro index old isOld
        have inside := (List.getElem?_eq_some_iff.mp isOld).1
        refine ⟨old, ?_, rfl⟩
        rw [List.getElem?_append_left inside]
        exact isOld
      · intro call isCall added isPhase
        rcases List.mem_append.mp isCall with old | new
        · exact Or.inl ⟨call, old, isPhase⟩
        · rw [List.mem_singleton.mp new] at isPhase
          cases isPhase
  | lock index =>
      simp only [pollersStep] at stepped
      split at stepped
      next proposed isCall =>
        simp only [Option.ite_none_right_eq_some,
          Option.some.injEq] at stepped
        rcases stepped with ⟨free, rfl⟩
        exact sound.lock free ⟨_, isCall, rfl⟩
      next => cases stepped
  | gathered =>
      simp only [pollersStep] at stepped
      split at stepped
      next call proposed removed cancelled isHeld =>
        simp only [Option.ite_none_left_eq_some, not_not] at stepped
        rcases stepped with ⟨done, ended⟩
        have allDone : ∀ held ∈ before.gathering,
            before.AllDone held.removed := by
          rw [isHeld]
          rintro held ⟨⟩
          exact done
        split at ended
        · cases ended
          exact (sound.setPhase call (by simp)).released allDone
        · cases ended
          exact sound.populate allDone (sound.removes _ isHeld).within
      next => cases stepped
  | passed index =>
      simp only [pollersStep] at stepped
      split at stepped
      next proposed added _ =>
        simp only [Option.ite_none_right_eq_some,
          Option.some.injEq] at stepped
        rcases stepped with ⟨delivered, rfl⟩
        exact sound.finishCall index proposed delivered
      next => cases stepped
  | expires index =>
      simp only [pollersStep] at stepped
      split at stepped
      next proposed added _ =>
        cases stepped
        exact sound.abandon index added
      next => cases stepped
  | cancelCall index =>
      simp only [pollersStep] at stepped
      split at stepped
      next =>
        cases stepped
        exact sound.setPhase index (by simp)
      next =>
        -- The call goes on to hold the lock until its tasks are done.
        rcases Option.map_eq_some_iff.mp stepped with ⟨held, isHeld, rfl⟩
        exact sound.evolve { evolves_refl before with
          gathering := by simp [isHeld] }
      next proposed added _ =>
        cases stepped
        exact sound.abandon index added
      next => cases stepped
  | loopResumes =>
      simp only [pollersStep] at stepped
      split at stepped
      next starting _ =>
        cases stepped
        refine sound.evolve (evolves_calls before ?_ (CallsEvolve.refl before))
        simp [starting]
      next starting _ =>
        cases stepped
        refine sound.evolve (evolves_calls before ?_ (CallsEvolve.refl before))
        simp [starting]
      next => cases stepped
  | loopLooks =>
      simp only [pollersStep] at stepped
      split_ifs at stepped with watching _
      · cases stepped
        exact sound.finishLoop watching
      · cases stepped
        exact sound
  | loopClears =>
      simp only [pollersStep] at stepped
      split at stepped
      next tasks _ =>
        simp only [Option.ite_none_right_eq_some,
          Option.some.injEq] at stepped
        rcases stepped with ⟨_, rfl⟩
        exact {
          tasks := by
            rintro symbol task ⟨⟩
          kept := by
            rintro symbol task ⟨⟩
          removes := fun held isHeld =>
            { sound.removes held isHeld with
              within := by
                rintro symbol task ⟨⟩ }
          called := sound.called
          polled := fun running => absurd rfl running
          passes := fun running => absurd rfl running
          sampled := sound.sampled
          returned := sound.returned }
      next => cases stepped
  | cancelLoop =>
      simp only [pollersStep] at stepped
      split at stepped
      next watching =>
        cases stepped
        exact sound.finishLoop watching
      next tasks finishing =>
        cases stepped
        refine sound.evolve (evolves_calls before ?_ (CallsEvolve.refl before))
        simp [finishing]
      next => cases stepped
  | stop =>
      cases stepped
      exact sound.evolve (evolves_calls before id (CallsEvolve.refl before))

theorem sound_started (instruments : List String) :
    Sound (.started instruments) where
  tasks := by
    rintro symbol task ⟨⟩
  kept := by
    rintro symbol task ⟨⟩
  removes := by
    rintro held ⟨⟩
  called := by
    rintro held ⟨⟩
  polled := by
    rintro _ task symbol ⟨poller, ⟨⟩, _⟩
  passes _ _ _ := Iff.rfl
  sampled := by
    rintro task poller ⟨⟩
  returned := by
    intro call isCall added isPhase
    rw [List.mem_singleton.mp isCall] at isPhase
    cases isPhase

end Step

/-! ## The report of the readiness -/

section Ready

variable {before after : PollersState}

/-- A call has returned, and what it proposed is what is polled. -/
structure ReadyFor (state : PollersState) (call : ReplaceCall) : Prop where
  returned : ∃ added, call.phase = .returned added
  known : ∀ symbol,
    symbol ∈ call.proposed ↔ (state.oiTasks.get? symbol).isSome
  /-- Each known task has put a sample. -/
  sampled : ∀ symbol task, state.oiTasks.get? symbol = some task →
    task ∈ state.recorded

def IsReady (state : PollersState) : Prop :=
  ∃ call ∈ state.calls, state.ReadyFor call

theorem Sound.awaitsExactly_iff
    {state : PollersState} (sound : Sound state)
    (running : state.loop ≠ .cleared) {proposed : List String}
    (awaits : state.AwaitsExactly proposed) (symbol : String) :
    symbol ∈ proposed ↔ (state.oiTasks.get? symbol).isSome := by
  have same : (state.oiFirstPass.get? symbol).isSome ↔
      (state.oiTasks.get? symbol).isSome := by
    simp only [Option.isSome_iff_exists, sound.passes running symbol]
  rw [← same]
  constructor
  · exact awaits.2 symbol
  · intro bound
    rcases Option.isSome_iff_exists.mp bound with ⟨task, found⟩
    exact awaits.1 (symbol, task) ((Dict.mem_entries_iff _).mpr found)

/-- Behind the first passes of all known tasks the readiness is reported. -/
theorem Sound.finishCall_ready
    {state : PollersState} (sound : Sound state)
    (running : state.loop ≠ .cleared) (unready : state.readyReported = false)
    {index : Nat} {proposed : List String} {added : List Nat}
    (called : state.Called index proposed)
    (ready : (state.finishCall index proposed added).readyReported = true) :
    (state.finishCall index proposed added).IsReady := by
  rcases finishCall_cases state index proposed added with
    ⟨phase, reported, isState, _, reports⟩
  rw [isState] at ready ⊢
  rcases reports ready with already | ⟨isPhase, awaits, delivered⟩
  · rw [unready] at already
    cases already
  rcases called with ⟨call, isCall, isProposed⟩
  have isReturned :
      { call with phase := phase } ∈ (state.setPhase index phase).calls := by
    refine List.mem_of_getElem? (i := index) ?_
    rw [PollersState.setPhase, List.getElem?_modify_eq,
      Option.mem_def.mp isCall]
    rfl
  refine ⟨_, isReturned, ⟨added, isPhase⟩, ?_, ?_⟩
  · rw [isProposed]
    exact sound.awaitsExactly_iff running awaits
  · intro symbol task found
    have isPass : state.oiFirstPass.get? symbol = some task :=
      (sound.passes running symbol task).mpr found
    rcases Option.map_eq_some_iff.mp
        (delivered task ((Dict.mem_values_iff _).mpr ⟨symbol, isPass⟩)) with
      ⟨poller, isPoller, isDelivered⟩
    exact sound.sampled task poller isPoller (Or.inl isDelivered)

theorem Sound.populate_ready
    {state : PollersState} {index : Nat} {proposed : List String}
    (sound : Sound state)
    (done : ∀ held ∈ state.gathering, state.AllDone held.removed)
    (within : ∀ symbol task, state.oiTasks.get? symbol = some task →
      symbol ∈ proposed)
    (called : state.Called index proposed)
    (running : state.loop ≠ .cleared) (unready : state.readyReported = false)
    (ready : (state.populate index proposed).readyReported = true) :
    (state.populate index proposed).IsReady := by
  simp only [PollersState.populate] at ready ⊢
  split at ready
  next nothing =>
    rw [if_pos nothing]
    exact (sound.createTasks done within).finishCall_ready running unready
      called ready
  next =>
    have same : state.readyReported = true := ready
    rw [unready] at same
    cases same

theorem Sound.lock_ready
    {state : PollersState} {index : Nat} {proposed : List String}
    (sound : Sound state) (free : state.gathering = none)
    (called : state.Called index proposed)
    (running : state.loop ≠ .cleared) (unready : state.readyReported = false)
    (ready : (state.lock index proposed).readyReported = true) :
    (state.lock index proposed).IsReady := by
  have removed := sound.removeTasks free called
  simp only [PollersState.lock] at ready ⊢
  split at ready
  next nothing =>
    rw [if_pos nothing]
    refine removed.populate_ready ?_ (removed.removes _ rfl).within called
      running unready ready
    rintro held ⟨⟩ task isRemoved
    rw [nothing] at isRemoved
    cases isRemoved
  next =>
    have same : state.readyReported = true := ready
    rw [unready] at same
    cases same

/-- Only a call which comes to its end reports the readiness. -/
theorem Sound.step_ready
    {label : PollersLabel} (sound : Sound before)
    (running : before.loop ≠ .cleared)
    (stepped : pollersStep before label = some after)
    (unready : before.readyReported = false)
    (ready : after.readyReported = true) : after.IsReady := by
  have unchanged :
      after.readyReported = before.readyReported → after.IsReady := by
    intro same
    rw [same, unready] at ready
    cases ready
  cases label with
  | poller index label =>
      rcases pollerStep_eq_some stepped with ⟨_, _, _, _, rfl⟩
      exact unchanged rfl
  | update proposed =>
      cases stepped
      exact unchanged rfl
  | lock index =>
      simp only [pollersStep] at stepped
      split at stepped
      next proposed isCall =>
        simp only [Option.ite_none_right_eq_some,
          Option.some.injEq] at stepped
        rcases stepped with ⟨free, rfl⟩
        exact sound.lock_ready free ⟨_, isCall, rfl⟩ running unready ready
      next => cases stepped
  | gathered =>
      simp only [pollersStep] at stepped
      split at stepped
      next call proposed removed cancelled isHeld =>
        simp only [Option.ite_none_left_eq_some, not_not] at stepped
        rcases stepped with ⟨done, ended⟩
        split at ended
        · cases ended
          exact unchanged rfl
        · cases ended
          refine sound.populate_ready ?_ (sound.removes _ isHeld).within
            (sound.called _ isHeld) running unready ready
          rw [isHeld]
          rintro held ⟨⟩
          exact done
      next => cases stepped
  | passed index =>
      simp only [pollersStep] at stepped
      split at stepped
      next proposed added isCall =>
        simp only [Option.ite_none_right_eq_some,
          Option.some.injEq] at stepped
        rcases stepped with ⟨_, rfl⟩
        exact sound.finishCall_ready running unready ⟨_, isCall, rfl⟩ ready
      next => cases stepped
  | expires index =>
      simp only [pollersStep] at stepped
      split at stepped
      next =>
        cases stepped
        exact unchanged rfl
      next => cases stepped
  | cancelCall index =>
      simp only [pollersStep] at stepped
      split at stepped
      next =>
        cases stepped
        exact unchanged rfl
      next =>
        rcases Option.map_eq_some_iff.mp stepped with ⟨held, _, rfl⟩
        exact unchanged rfl
      next =>
        cases stepped
        exact unchanged rfl
      next => cases stepped
  | loopResumes =>
      simp only [pollersStep] at stepped
      split at stepped
      next =>
        cases stepped
        exact unchanged rfl
      next =>
        cases stepped
        exact unchanged rfl
      next => cases stepped
  | loopLooks =>
      simp only [pollersStep] at stepped
      split_ifs at stepped
      · cases stepped
        exact unchanged rfl
      · cases stepped
        exact unchanged rfl
  | loopClears =>
      simp only [pollersStep] at stepped
      split at stepped
      next =>
        simp only [Option.ite_none_right_eq_some,
          Option.some.injEq] at stepped
        rcases stepped with ⟨_, rfl⟩
        exact unchanged rfl
      next => cases stepped
  | cancelLoop =>
      simp only [pollersStep] at stepped
      split at stepped
      next =>
        cases stepped
        exact unchanged rfl
      next =>
        cases stepped
        exact unchanged rfl
      next => cases stepped
  | stop =>
      cases stepped
      exact unchanged rfl

end Ready

/-! ## What is served -/

theorem sound_of_run
    {instruments : List String} {labels : List PollersLabel}
    {final : PollersState}
    (reached : runFrom pollersStep (.started instruments) labels =
      some final) : Sound final :=
  invariant_of_run
    (fun _ _ _ sound _ stepped => Sound.step sound stepped)
    (sound_started instruments) (stepsMeet_true _ _) reached

/-- A task which a call waits for polls none of the symbols it proposes. -/
theorem Sound.not_removing
    {state : PollersState} (sound : Sound state) {bound removed : Nat}
    {symbol : String} (found : state.oiTasks.get? symbol = some bound)
    (polls : state.Polls removed symbol) : ¬ state.Removing removed := by
  rintro ⟨held, isHeld, isRemoved⟩
  rcases polls with ⟨poller, isPoller, rfl, _⟩
  have removes := sound.removes held isHeld
  exact (removes.outside removed isRemoved poller isPoller).1
    (removes.within poller.symbol bound found)

/-- No symbol is polled twice while the loop knows its tasks. -/
theorem Sound.exclusive
    {state : PollersState} (sound : Sound state)
    (running : state.loop ≠ .cleared) {left right : Nat} {symbol : String}
    (first : state.Polls left symbol) (second : state.Polls right symbol) :
    left = right := by
  rcases sound.polled running left symbol first with
    found | ⟨held, isHeld, isLeft⟩
  · -- A known task is of a symbol which no removed task is for.
    rcases sound.polled running right symbol second with other | removing
    · exact Option.some.inj (found.symm.trans other)
    · exact absurd removing (sound.not_removing found second)
  · rcases sound.polled running right symbol second with
      found | ⟨other, isOther, isRight⟩
    · exact absurd ⟨held, isHeld, isLeft⟩ (sound.not_removing found first)
    · rw [Option.mem_unique isOther isHeld] at isRight
      exact (sound.removes held isHeld).apart left isLeft right isRight
        symbol first second

/-- A sample is put by the task which is known for its symbol. -/
theorem Sound.received
    {before after : PollersState} (sound : Sound before)
    (running : before.loop ≠ .cleared) {task : Nat}
    (stepped : before.pollerStep task .received = some after) :
    ∃ poller ∈ before.pollers[task]?,
      before.oiTasks.get? poller.symbol = some task ∧
        poller.symbol ∈ before.instruments := by
  rcases pollerStep_eq_some stepped with ⟨poller, isPoller, next, isNext, _⟩
  rcases Poller.step_received isNext with ⟨notCancelled, notDone⟩
  refine ⟨poller, isPoller, ?_⟩
  rcases sound.polled running task poller.symbol
      ⟨poller, isPoller, rfl, notDone⟩ with
    found | ⟨held, isHeld, isRemoved⟩
  · exact ⟨found, sound.kept poller.symbol task found⟩
  · rcases ((sound.removes held isHeld).outside task isRemoved poller
        isPoller).2 with done | cancelled
    · exact absurd done notDone
    · rw [notCancelled] at cancelled
      cases cancelled

/-- What the pollers of a state do for its universe. -/
structure Serves (state : PollersState) : Prop where
  /-- No symbol has two tasks which poll. -/
  exclusive : ∀ left right symbol, state.Polls left symbol →
    state.Polls right symbol → left = right
  /-- The next sample is of an instrument. -/
  sampled : ∀ task after,
    pollersStep state (.poller task .received) = some after →
      ∃ poller ∈ state.pollers[task]?,
        state.oiTasks.get? poller.symbol = some task ∧
          poller.symbol ∈ state.instruments
  /-- A call which has returned has seen a sample of each of its tasks. -/
  returned : ∀ call ∈ state.calls, ∀ added, call.phase = .returned added →
    ∀ task ∈ added, task ∈ state.recorded
  /-- The readiness is reported when all that is polled has a sample. -/
  ready : ∀ label after, pollersStep state label = some after →
    state.readyReported = false → after.readyReported = true →
      after.IsReady

end PollersState

open PollersState

/--
Under any interleaving of the tasks, the calls and their cancellations, the
pollers serve the universe until the loop clears its tasks.
-/
theorem open_interest_served
    {instruments : List String} {labels : List PollersLabel}
    {final : PollersState}
    (reached : runFrom pollersStep (.started instruments) labels =
      some final)
    (running : final.loop ≠ .cleared) :
    final.Serves := by
  have sound := sound_of_run reached
  exact {
    exclusive := fun _ _ _ first second =>
      sound.exclusive running first second
    sampled := fun _ _ stepped => sound.received running stepped
    returned := sound.returned
    ready := fun _ _ stepped unready ready =>
      sound.step_ready running stepped unready ready }

/-- A universe is replaced while the task of a symbol which leaves polls. -/
def replacedPollersRun : List PollersLabel :=
  [.lock 0, .poller 0 .wakes, .poller 1 .wakes, .poller 1 .received,
    .poller 0 .received, .passed 0, .loopResumes, .poller 1 .wakes,
    .update ["A", "C"], .lock 1, .poller 1 .cancelled, .gathered,
    .poller 2 .wakes, .poller 2 .received, .passed 1]

theorem replacedPollersRun_runs :
    (runFrom pollersStep (.started ["B", "A"]) replacedPollersRun).isSome := by
  decide +kernel

def replacedPollers : PollersState :=
  (runFrom pollersStep (.started ["B", "A"]) replacedPollersRun).get
    replacedPollersRun_runs

theorem open_interest_served_replaced :
    replacedPollers.oiTasks.entries = [("A", 0), ("C", 2)] ∧
      replacedPollers.recorded = [1, 0, 2] ∧ replacedPollers.Serves :=
  ⟨by decide +kernel, by decide +kernel,
    open_interest_served (Option.some_get replacedPollersRun_runs).symm
      (by decide +kernel)⟩

/-! ## Behind the end of the loop -/

/-- A call creates a task behind the end of the loop, and so does the next. -/
def doubledRun : List PollersLabel :=
  [.lock 0, .poller 0 .wakes, .poller 0 .received, .passed 0, .loopResumes,
    .poller 0 .wakes, .poller 0 .raises, .loopLooks, .update ["A", "B"],
    .lock 1, .loopClears, .update ["B"], .lock 2]

/-- A loop which has cleared its tasks knows nothing of the later ones. -/
theorem doubled_behind_loop :
    ∃ final,
      runFrom pollersStep (.started ["A"]) doubledRun = some final ∧
        final.Polls 1 "B" ∧ final.Polls 2 "B" := by
  have observed : (runFrom pollersStep (.started ["A"]) doubledRun).map
      (fun final => final.pollers.map fun poller =>
        (poller.symbol, poller.phase)) =
      some [("A", .failed), ("B", .sleeping), ("B", .sleeping)] := by
    decide +kernel
  rcases Option.map_eq_some_iff.mp observed with ⟨final, reached, polled⟩
  have polls : ∀ task : Nat,
      final.pollers[task]?.map (fun poller => (poller.symbol, poller.phase)) =
          some ("B", .sleeping) → final.Polls task "B" := by
    intro task found
    rcases Option.map_eq_some_iff.mp found with ⟨poller, isPoller, same⟩
    rcases Prod.mk.inj same with ⟨isSymbol, isPhase⟩
    refine ⟨poller, isPoller, isSymbol, ?_⟩
    rw [isPhase]
    decide
  refine ⟨final, reached, polls 1 ?_, polls 2 ?_⟩
  · rw [← List.getElem?_map, polled]
    rfl
  · rw [← List.getElem?_map, polled]
    rfl

end ShadowDataPlane.Edge
