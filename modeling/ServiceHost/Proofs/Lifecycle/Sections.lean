import ServiceHost.Lifecycle.Machine

/-! What the sections of a lifecycle do, as equations.

A section either carries out all of its moves or refuses at its first check. The
equations say which, so that later arguments need not open the sections.
-/

set_option autoImplicit false

namespace ServiceHost

/-- The moves from a state to STOPPED. -/
def State.closing : State → List Transition
  | stopped => []
  | stopping => [⟨stopping, stopped, false⟩]
  | state => [⟨state, stopping, false⟩, ⟨stopping, stopped, false⟩]

/-- The moves from a state that is not STOPPED to STOPPING. -/
def State.braking : State → List Transition
  | stopping => []
  | state => [⟨state, stopping, false⟩]

namespace Lifecycle

variable {α β : Type} (lifecycle : Lifecycle)

/-! ## Sections in general -/

@[simp] theorem locked_pure (result : α) :
    lifecycle.locked (pure result) = (.ok result, lifecycle) := rfl

@[simp] theorem locked_get : lifecycle.locked get = (.ok lifecycle, lifecycle) := rfl

@[simp] theorem locked_set (other : Lifecycle) :
    lifecycle.locked (set other) = (.ok (), other) := rfl

@[simp] theorem locked_modify (change : Lifecycle → Lifecycle) :
    lifecycle.locked (modify change) = (.ok (), change lifecycle) := rfl

@[simp] theorem locked_throw (refusal : LifecycleError) :
    lifecycle.locked (throw refusal : Locked α) = (.error refusal, lifecycle) := rfl

theorem locked_bind (first : Locked α) (next : α → Locked β) :
    lifecycle.locked (first >>= next) =
      match lifecycle.locked first with
      | (.ok result, after) => after.locked (next result)
      | (.error refusal, after) => (.error refusal, after) := by
  -- `locked` is opened only once the outcome has a name, so that it is rewritten as a whole.
  cases done : lifecycle.locked first with
  | mk answer after =>
    have run : StateT.run (ExceptT.run first) lifecycle = (answer, after) := done
    unfold locked at *
    simp only [ExceptT.run_bind, StateT.run_bind, run]
    cases answer <;> rfl

@[simp] theorem locked_map (first : Locked α) (change : α → β) :
    lifecycle.locked (change <$> first) =
      match lifecycle.locked first with
      | (.ok result, after) => (.ok (change result), after)
      | (.error refusal, after) => (.error refusal, after) := by
  rw [← bind_pure_comp, locked_bind]
  rcases lifecycle.locked first with ⟨_ | _, after⟩ <;> rfl

def moved (target : State) : Lifecycle :=
  { lifecycle with state := target, sent := lifecycle.sent ++ [⟨lifecycle.state, target, false⟩] }

theorem locked_move (operation : String) (target : State) :
    lifecycle.locked (move operation target) =
      if lifecycle.state = target then (.ok (), lifecycle)
      else if lifecycle.state.allows target then (.ok (), lifecycle.moved target)
      else (.error (.invalidTransition operation lifecycle.state), lifecycle) := by
  unfold move
  rw [locked_bind, locked_get]
  by_cases same : lifecycle.state = target
  · simp [same]
  · cases allowed : lifecycle.state.allows target <;> simp [same, allowed, moved]

theorem locked_expect (operation : String) (wanted : State) :
    lifecycle.locked (expect operation wanted) =
      if lifecycle.state = wanted then (.ok (), lifecycle)
      else (.error (.invalidTransition operation lifecycle.state), lifecycle) := by
  unfold expect
  rw [locked_bind, locked_get]
  by_cases same : lifecycle.state = wanted <;> simp [same]

/-! ## Starting -/

/-- A lifecycle under a run that has just begun. -/
def restarted : Lifecycle where
  state := .running
  task := some (lifecycle.generations.issued + 1)
  lastExit := match lifecycle.task with
    | some current => lifecycle.exitOf current
    | none => lifecycle.lastExit
  paused := false
  writes := lifecycle.writes + 1
  generations := { lifecycle.generations with issued := lifecycle.generations.issued + 1 }
  runs := lifecycle.runs ++ [.fresh]
  sent := lifecycle.sent ++ lifecycle.state.closing ++
    [⟨.stopped, .starting, false⟩, ⟨.starting, .running, false⟩]

theorem locked_start_of_alive (alive : lifecycle.isAlive = true) :
    lifecycle.locked start = (.error .alreadyRunning, lifecycle) := by
  unfold isAlive at alive
  cases task : lifecycle.task with
  | none => simp [task] at alive
  | some current =>
    simp only [task, Bool.not_eq_true'] at alive
    simp [start, locked_bind, task, alive]

/-- Whatever the state, a start succeeds once no run is alive. -/
theorem locked_start (quiet : lifecycle.isAlive = false) :
    lifecycle.locked start = (.ok (lifecycle.generations.issued + 1), lifecycle.restarted) := by
  -- The old state decides how many moves there are, the old task which exit is taken over.
  obtain ⟨state, task, lastExit, paused, writes, generations, runs, sent⟩ := lifecycle
  cases task with
  | none =>
    cases state <;>
      simp [start, locked_bind, locked_move, State.allows, moved, launch, setPaused, restarted,
        State.closing, Generations.issue]
  | some current =>
    simp only [isAlive, Bool.not_eq_false'] at quiet
    cases state <;>
      simp [start, locked_bind, locked_move, State.allows, moved, launch, setPaused, restarted,
        State.closing, Generations.issue, quiet, exitOf, run?]

/-! ## Stopping -/

/-- A lifecycle whose present run has been asked to stop. -/
def braked (generation : Nat) : Lifecycle :=
  { lifecycle with
    state := .stopping
    generations := lifecycle.generations.requestStop generation
    sent := lifecycle.sent ++ lifecycle.state.braking }

theorem locked_requestStop_of_stopped (task : lifecycle.task = none)
    (stopped : lifecycle.state = .stopped) :
    lifecycle.locked requestStop = (.ok none, lifecycle) := by
  simp [requestStop, locked_bind, task, stopped]

theorem locked_requestStop {generation : Nat} (task : lifecycle.task = some generation)
    (open_ : lifecycle.state ≠ .stopped) :
    lifecycle.locked requestStop = (.ok (some generation), lifecycle.braked generation) := by
  obtain ⟨state, _, lastExit, paused, writes, generations, runs, sent⟩ := lifecycle
  subst task
  cases state <;> first
    | exact absurd rfl open_
    | simp [requestStop, locked_bind, locked_move, moved, braked, State.braking, State.allows]

/-- A lifecycle whose run has ended after a request. -/
def released (exit : Exit) : Lifecycle :=
  { lifecycle with
    state := .stopped
    task := none
    lastExit := some exit
    sent := lifecycle.sent ++ [⟨.stopping, .stopped, false⟩] }

theorem locked_completeStop_of_other {generation : Nat} (exit : Exit)
    (other : lifecycle.task ≠ some generation) :
    lifecycle.locked (completeStop generation exit) = (.ok (), lifecycle) := by
  simp [completeStop, locked_bind, other]

theorem locked_completeStop {generation : Nat} (exit : Exit)
    (task : lifecycle.task = some generation) (stopping : lifecycle.state = .stopping) :
    lifecycle.locked (completeStop generation exit) = (.ok (), lifecycle.released exit) := by
  simp [completeStop, locked_bind, locked_move, task, stopping, State.allows, moved, released]

/-! ## Pausing -/

/-- A lifecycle that has gone by way of a transient state, with the pause flag written. -/
def passed (transient target : State) (flag : Bool) : Lifecycle :=
  { lifecycle with
    state := target
    paused := flag
    writes := lifecycle.writes + 1
    sent := lifecycle.sent ++
      [⟨lifecycle.state, transient, false⟩, ⟨transient, target, false⟩] }

theorem locked_pause :
    lifecycle.locked pause =
      if lifecycle.state = .running then (.ok (), lifecycle.passed .pausing .paused true)
      else (.error (.invalidTransition "pause" lifecycle.state), lifecycle) := by
  -- After the check at its beginning, no move of a pause can be refused.
  by_cases running : lifecycle.state = .running
  · simp [pause, locked_bind, locked_expect, locked_move, running, State.allows, moved, setPaused,
      passed]
  · simp [pause, locked_bind, locked_expect, running]

theorem locked_resume :
    lifecycle.locked resume =
      if lifecycle.state = .paused then (.ok (), lifecycle.passed .resuming .running false)
      else (.error (.invalidTransition "resume" lifecycle.state), lifecycle) := by
  by_cases paused : lifecycle.state = .paused
  · simp [resume, locked_bind, locked_expect, locked_move, paused, State.allows, moved, setPaused,
      passed]
  · simp [resume, locked_bind, locked_expect, paused]

/-! ## Killing -/

/-- A lifecycle whose run was dropped. -/
def killed (generation : Nat) : Lifecycle :=
  { lifecycle.updateRun generation Watched.abort with
    state := .stopped
    task := none
    lastExit := some .aborted
    paused := false
    writes := lifecycle.writes + 1
    generations := lifecycle.generations.requestStop generation
    sent := lifecycle.sent ++ [⟨lifecycle.state, .stopped, true⟩] }

theorem kill_of_stopped (task : lifecycle.task = none) (stopped : lifecycle.state = .stopped) :
    lifecycle.kill = lifecycle.setPaused false := by
  simp [kill, task, stopped, setPaused]

theorem kill_of_open {generation : Nat} (task : lifecycle.task = some generation)
    (open_ : lifecycle.state ≠ .stopped) : lifecycle.kill = lifecycle.killed generation := by
  simp [kill, task, open_, setPaused, killed, updateRun]

theorem stopRequested_braked {generation other : Nat} :
    (lifecycle.braked generation).stopRequested other = true ↔
      lifecycle.stopRequested other = true ∨ generation = other := by
  simp only [stopRequested, braked, Generations.stopRequested_requestStop, Bool.or_eq_true,
    beq_iff_eq]
  rw [or_comm, @eq_comm _ other]

theorem stopRequested_killed {generation other : Nat} :
    (lifecycle.killed generation).stopRequested other = true ↔
      lifecycle.stopRequested other = true ∨ generation = other :=
  lifecycle.stopRequested_braked

/-! ## What a section can do -/

variable {lifecycle}

theorem start_cases {answer : Except LifecycleError Nat}
    {after : Lifecycle} (done : lifecycle.locked start = (answer, after)) :
    lifecycle.isAlive = true ∧ answer = .error .alreadyRunning ∧ after = lifecycle ∨
      lifecycle.isAlive = false ∧ answer = .ok (lifecycle.generations.issued + 1) ∧
        after = lifecycle.restarted := by
  cases alive : lifecycle.isAlive with
  | true =>
    rw [lifecycle.locked_start_of_alive alive] at done
    cases done
    exact .inl ⟨rfl, rfl, rfl⟩
  | false =>
    rw [lifecycle.locked_start alive] at done
    cases done
    exact .inr ⟨rfl, rfl, rfl⟩

theorem pause_cases {answer : Except LifecycleError Unit}
    {after : Lifecycle} (done : lifecycle.locked pause = (answer, after)) :
    lifecycle.state = .running ∧ answer = .ok () ∧
        after = lifecycle.passed .pausing .paused true ∨
      lifecycle.state ≠ .running ∧
        answer = .error (.invalidTransition "pause" lifecycle.state) ∧ after = lifecycle := by
  rw [lifecycle.locked_pause] at done
  split at done <;> cases done
  · exact .inl ⟨by assumption, rfl, rfl⟩
  · exact .inr ⟨by assumption, rfl, rfl⟩

theorem resume_cases {answer : Except LifecycleError Unit}
    {after : Lifecycle} (done : lifecycle.locked resume = (answer, after)) :
    lifecycle.state = .paused ∧ answer = .ok () ∧
        after = lifecycle.passed .resuming .running false ∨
      lifecycle.state ≠ .paused ∧
        answer = .error (.invalidTransition "resume" lifecycle.state) ∧ after = lifecycle := by
  rw [lifecycle.locked_resume] at done
  split at done <;> cases done
  · exact .inl ⟨by assumption, rfl, rfl⟩
  · exact .inr ⟨by assumption, rfl, rfl⟩

end Lifecycle
end ServiceHost
