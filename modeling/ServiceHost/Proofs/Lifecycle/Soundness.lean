import ServiceHost.Proofs.Lifecycle.Sections

/-! What holds of a lifecycle whenever its lock is free, and that every section keeps it. -/

set_option autoImplicit false

namespace ServiceHost

/-- A state that a section passes through. -/
def State.transient : State → Bool
  | starting | pausing | resuming => true
  | _ => false

theorem State.transient_eq_false_iff {state : State} :
    state.transient = false ↔ state ∈ [stopped, running, paused, stopping] := by
  cases state <;> decide

@[simp] theorem Generations.issued_requestStop (generations : Generations) (generation : Nat) :
    (generations.requestStop generation).issued = generations.issued := by
  unfold requestStop
  split <;> rfl

/-- A watcher that is still there has recorded the end of its task, or nothing yet. -/
def Watched.Honest (task : Watched) : Prop :=
  task.unwatched = false ∧ (task.seen = none ∨ task.seen = task.ended)

namespace Watched

theorem honest_fresh : fresh.Honest := ⟨rfl, .inl rfl⟩

theorem Honest.finish {task : Watched} (honest : task.Honest) (exit : Exit) :
    (task.finish exit).Honest := by
  obtain ⟨watched, seen⟩ := honest
  unfold Watched.finish
  cases ended : task.ended with
  | some _ => exact ⟨watched, seen⟩
  | none =>
    -- Before its end a task has nothing that could have been recorded.
    refine ⟨watched, .inl ?_⟩
    rcases seen with none | same
    · exact none
    · exact same.trans ended

theorem Honest.observe {task : Watched} (honest : task.Honest) : task.observe.Honest := by
  unfold Watched.observe
  split
  · exact ⟨honest.1, .inr rfl⟩
  · exact honest

@[simp] theorem isFinished_observe (task : Watched) : task.observe.isFinished = task.isFinished := by
  unfold observe isFinished
  split <;> rfl

theorem isFinished_of_finish {task : Watched} (exit : Exit) (ended : task.isFinished = true) :
    (task.finish exit).isFinished = true := by
  rwa [finish_of_isFinished ended]

/-- Whoever is told an exit is told of a task that has ended. -/
theorem Honest.isFinished_of_answer {task : Watched} (honest : task.Honest) {expires now : Nat}
    {exit : Exit} (answer : task.answer expires now = some (some exit)) :
    task.isFinished = true := by
  obtain ⟨watched, seen⟩ := honest
  cases recorded : task.seen with
  | none =>
    simp only [Watched.answer, told, recorded, watched, Bool.false_eq_true, if_false] at answer
    split at answer <;> cases answer
  | some _ =>
    rw [recorded] at seen
    rcases seen with none | same
    · cases none
    · simp [isFinished, ← same]

end Watched

namespace Lifecycle

variable {lifecycle : Lifecycle}

/-! ## The runs of a lifecycle -/

theorem run?_zero : lifecycle.run? 0 = none := rfl

theorem run?_succ (generation : Nat) :
    lifecycle.run? (generation + 1) = lifecycle.runs[generation]? := by
  simp [run?]

theorem positive_of_run? {generation : Nat} {run : Watched}
    (found : lifecycle.run? generation = some run) : 0 < generation := by
  cases generation with
  | zero => cases found
  | succ _ => exact Nat.succ_pos _

theorem isFinished_iff {generation : Nat} :
    lifecycle.isFinished generation = true ↔
      ∀ run, lifecycle.run? generation = some run → run.isFinished = true := by
  unfold isFinished
  cases lifecycle.run? generation <;> simp

theorem run?_updateRun {generation : Nat} (positive : 0 < generation)
    (change : Watched → Watched) (other : Nat) :
    (lifecycle.updateRun generation change).run? other =
      if other = generation then (lifecycle.run? other).map change else lifecycle.run? other := by
  cases generation with
  | zero => cases positive
  | succ index =>
    cases other with
    | zero => simp [run?_zero]
    | succ other =>
      simp only [run?_succ, updateRun, Nat.add_sub_cancel, List.getElem?_modify, Nat.add_right_cancel_iff]
      by_cases same : other = index
      · subst same
        simp
      · have apart : index ≠ other := fun equal => same equal.symm
        simp [same, apart]

theorem isFinished_updateRun {generation other : Nat} (positive : 0 < generation)
    {change : Watched → Watched}
    (keeps : ∀ run, run.isFinished = true → (change run).isFinished = true)
    (ended : lifecycle.isFinished other = true) :
    (lifecycle.updateRun generation change).isFinished other = true := by
  rw [isFinished_iff] at *
  intro run found
  rw [run?_updateRun positive] at found
  split at found
  · obtain ⟨former, there, rfl⟩ := Option.map_eq_some_iff.mp found
    exact keeps former (ended former there)
  · exact ended run found

theorem isFinished_updateRun_self {generation : Nat} (positive : 0 < generation)
    {change : Watched → Watched} (ends : ∀ run, (change run).isFinished = true) :
    (lifecycle.updateRun generation change).isFinished generation = true := by
  rw [isFinished_iff]
  intro run found
  rw [run?_updateRun positive, if_pos rfl] at found
  obtain ⟨former, _, rfl⟩ := Option.map_eq_some_iff.mp found
  exact ends former

theorem forall_run_updateRun {property : Watched → Prop} {change : Watched → Watched}
    (keeps : ∀ run, property run → property (change run)) (generation : Nat)
    (holds : ∀ run ∈ lifecycle.runs, property run) :
    ∀ run ∈ (lifecycle.updateRun generation change).runs, property run := by
  intro run member
  obtain ⟨index, found⟩ := List.mem_iff_getElem?.mp member
  simp only [updateRun, List.getElem?_modify] at found
  obtain ⟨former, there, rfl⟩ := Option.map_eq_some_iff.mp found
  have former_holds := holds former (List.mem_of_getElem? there)
  split
  · exact keeps former former_holds
  · exact former_holds

/-! ## Soundness -/

/-- What holds of a lifecycle whenever its lock is free. -/
structure Sound (lifecycle : Lifecycle) : Prop where
  settled : lifecycle.state.transient = false
  task_eq : lifecycle.task =
    if lifecycle.state = .stopped then none else some lifecycle.generations.issued
  begun : lifecycle.state ≠ .stopped → 0 < lifecycle.generations.issued
  stopping_iff : lifecycle.state ≠ .stopped →
    (lifecycle.state = .stopping ↔
      lifecycle.stopRequested lifecycle.generations.issued = true)
  unpaused : lifecycle.state = .running → lifecycle.paused = false
  paused : lifecycle.state = .paused → lifecycle.paused = true
  runs_length : lifecycle.runs.length = lifecycle.generations.issued
  requested_le : ∀ generation, lifecycle.stopRequested generation = true →
    generation ≤ lifecycle.generations.issued
  /-- Only the present run may still go on. -/
  former : ∀ generation, lifecycle.task ≠ some generation → lifecycle.isFinished generation = true
  honest : ∀ run ∈ lifecycle.runs, run.Honest

theorem sound_fresh : fresh.Sound where
  settled := rfl
  task_eq := rfl
  begun := by decide
  stopping_iff := by decide
  unpaused := by decide
  paused := by decide
  runs_length := rfl
  requested_le := by intro generation requested; cases requested
  former := by intro generation _; simp [isFinished_iff, run?, fresh]
  honest := by intro run member; cases member

namespace Sound

theorem isFinished_of_stopAnswer (sound : lifecycle.Sound) {generation expires now : Nat}
    {exit : Exit} (told : lifecycle.stopAnswer generation expires now = some (some exit)) :
    lifecycle.isFinished generation = true := by
  unfold stopAnswer at told
  rw [isFinished_iff]
  intro run found
  simp only [found] at told
  cases generation with
  | zero => cases found
  | succ index =>
    rw [run?_succ] at found
    exact (sound.honest run (List.mem_of_getElem? found)).isFinished_of_answer told

theorem stopped_of_task (sound : lifecycle.Sound) (task : lifecycle.task = none) :
    lifecycle.state = .stopped := by
  have equation := sound.task_eq
  rw [task] at equation
  split at equation
  · assumption
  · cases equation

theorem open_of_task (sound : lifecycle.Sound) {generation : Nat}
    (task : lifecycle.task = some generation) :
    lifecycle.state ≠ .stopped ∧ generation = lifecycle.generations.issued ∧ 0 < generation := by
  have equation := sound.task_eq
  rw [task] at equation
  split at equation
  · cases equation
  · rename_i open_
    cases equation
    exact ⟨open_, rfl, sound.begun open_⟩

theorem restarted (sound : lifecycle.Sound) (quiet : lifecycle.isAlive = false) :
    lifecycle.restarted.Sound where
  settled := rfl
  task_eq := rfl
  begun := fun _ => Nat.succ_pos _
  stopping_iff := by
    intro _
    refine ⟨fun stopping => (by cases stopping), fun requested => ?_⟩
    have bound := sound.requested_le _ requested
    exact absurd bound (Nat.not_succ_le_self _)
  unpaused := fun _ => rfl
  paused := fun paused => by cases paused
  runs_length := by simp [Lifecycle.restarted, sound.runs_length]
  requested_le := fun generation requested => Nat.le_succ_of_le (sound.requested_le _ requested)
  former := by
    intro generation other
    -- No run is alive, so that the present one has ended like all those before it.
    have earlier : lifecycle.isFinished generation = true := by
      by_cases present : lifecycle.task = some generation
      · simpa [isAlive, present] using quiet
      · exact sound.former generation present
    rw [isFinished_iff] at *
    intro run found
    cases generation with
    | zero => cases found
    | succ index =>
      rw [run?_succ] at found earlier
      simp only [Lifecycle.restarted, List.getElem?_append, sound.runs_length] at found
      split at found
      · exact earlier run found
      -- What was appended is the run of the new generation, which is the task.
      · have last : index = lifecycle.generations.issued := by
          have := (List.getElem?_eq_some_iff.mp found).1
          simp only [List.length_singleton] at this
          omega
        simp [Lifecycle.restarted, last] at other
  honest := by
    intro run member
    rcases List.mem_append.mp member with old | new
    · exact sound.honest run old
    · rw [List.mem_singleton.mp new]
      exact Watched.honest_fresh

theorem braked (sound : lifecycle.Sound) {generation : Nat}
    (task : lifecycle.task = some generation) : (lifecycle.braked generation).Sound := by
  obtain ⟨_, rfl, positive⟩ := sound.open_of_task task
  exact {
    settled := rfl
    task_eq := by simpa [Lifecycle.braked] using task
    begun := fun _ => by simpa [Lifecycle.braked] using positive
    stopping_iff := fun _ => by
      simp [Lifecycle.braked, stopRequested, Generations.stopRequested_requestStop]
    unpaused := fun running => by cases running
    paused := fun paused => by cases paused
    runs_length := by simpa [Lifecycle.braked] using sound.runs_length
    requested_le := by
      intro generation requested
      simp only [Lifecycle.braked, stopRequested, Generations.stopRequested_requestStop,
        Generations.issued_requestStop, Bool.or_eq_true, beq_iff_eq] at requested ⊢
      rcases requested with same | earlier
      · exact Nat.le_of_eq same
      · exact sound.requested_le _ earlier
    former := sound.former
    honest := sound.honest }

/-- Only a stop that made its request before completes, and only after the end of the run. -/
theorem released (sound : lifecycle.Sound) {generation : Nat} (exit : Exit)
    (task : lifecycle.task = some generation) (ended : lifecycle.isFinished generation = true) :
    (lifecycle.released exit).Sound where
  settled := rfl
  task_eq := rfl
  begun := fun open_ => absurd rfl open_
  stopping_iff := fun open_ => absurd rfl open_
  unpaused := fun running => by cases running
  paused := fun paused => by cases paused
  runs_length := sound.runs_length
  requested_le := sound.requested_le
  former := by
    intro other _
    by_cases same : lifecycle.task = some other
    · rw [task] at same
      cases same
      exact ended
    · exact sound.former other same
  honest := sound.honest

theorem passed_paused (sound : lifecycle.Sound) (running : lifecycle.state = .running) :
    (lifecycle.passed .pausing .paused true).Sound where
  settled := rfl
  task_eq := by simpa [passed, running] using sound.task_eq
  begun := fun _ => sound.begun (by simp [running])
  stopping_iff := fun _ => by
    simpa [passed, running, stopRequested] using sound.stopping_iff (by simp [running])
  unpaused := fun running => by cases running
  paused := fun _ => rfl
  runs_length := sound.runs_length
  requested_le := sound.requested_le
  former := sound.former
  honest := sound.honest

theorem passed_running (sound : lifecycle.Sound) (paused : lifecycle.state = .paused) :
    (lifecycle.passed .resuming .running false).Sound where
  settled := rfl
  task_eq := by simpa [passed, paused] using sound.task_eq
  begun := fun _ => sound.begun (by simp [paused])
  stopping_iff := fun _ => by
    simpa [passed, paused, stopRequested] using sound.stopping_iff (by simp [paused])
  unpaused := fun _ => rfl
  paused := fun paused => by cases paused
  runs_length := sound.runs_length
  requested_le := sound.requested_le
  former := sound.former
  honest := sound.honest

/-- The end of a run, or the record of one, is no change of the machine. -/
theorem updateRun (sound : lifecycle.Sound) {generation : Nat} (positive : 0 < generation)
    {change : Watched → Watched}
    (keeps : ∀ run, run.isFinished = true → (change run).isFinished = true)
    (honest : ∀ run, run.Honest → (change run).Honest) :
    (lifecycle.updateRun generation change).Sound where
  settled := sound.settled
  task_eq := sound.task_eq
  begun := sound.begun
  stopping_iff := sound.stopping_iff
  unpaused := sound.unpaused
  paused := sound.paused
  runs_length := by simp [Lifecycle.updateRun, sound.runs_length]
  requested_le := sound.requested_le
  former := fun other absent => isFinished_updateRun positive keeps (sound.former other absent)
  honest := forall_run_updateRun honest generation sound.honest

theorem endRun (sound : lifecycle.Sound) {generation : Nat} (positive : 0 < generation)
    (exit : Exit) : (lifecycle.endRun generation exit).Sound :=
  sound.updateRun positive (fun _ => Watched.isFinished_of_finish exit)
    fun _ honest => honest.finish exit

theorem observe (sound : lifecycle.Sound) {generation : Nat} (positive : 0 < generation) :
    (lifecycle.updateRun generation Watched.observe).Sound :=
  sound.updateRun positive (fun run ended => by simpa using ended) fun _ honest => honest.observe

theorem kill_cases (sound : lifecycle.Sound) :
    lifecycle.task = none ∧ lifecycle.kill = lifecycle.setPaused false ∨
      ∃ generation, lifecycle.task = some generation ∧
        lifecycle.kill = lifecycle.killed generation := by
  cases task : lifecycle.task with
  | none => exact .inl ⟨rfl, lifecycle.kill_of_stopped task (sound.stopped_of_task task)⟩
  | some generation =>
    exact .inr ⟨generation, rfl, lifecycle.kill_of_open task (sound.open_of_task task).1⟩

/-- A kill asks the present run to stop. -/
theorem asked_kill (sound : lifecycle.Sound) {generation : Nat}
    (task : lifecycle.task = some generation) :
    lifecycle.kill.stopRequested generation = true := by
  rw [lifecycle.kill_of_open task (sound.open_of_task task).1]
  exact lifecycle.stopRequested_killed.mpr (.inr rfl)

theorem kill (sound : lifecycle.Sound) : lifecycle.kill.Sound := by
  rcases sound.kill_cases with ⟨task, equation⟩ | ⟨generation, task, equation⟩ <;> rw [equation]
  · have stopped := sound.stopped_of_task task
    exact {
      settled := sound.settled
      task_eq := sound.task_eq
      begun := sound.begun
      stopping_iff := sound.stopping_iff
      unpaused := fun _ => rfl
      paused := fun paused => by simp [setPaused, stopped] at paused
      runs_length := sound.runs_length
      requested_le := sound.requested_le
      former := sound.former
      honest := sound.honest }
  · obtain ⟨_, rfl, positive⟩ := sound.open_of_task task
    exact {
      settled := rfl
      task_eq := rfl
      begun := fun open_ => absurd rfl open_
      stopping_iff := fun open_ => absurd rfl open_
      unpaused := fun running => by cases running
      paused := fun paused => by cases paused
      runs_length := by simp [killed, Lifecycle.updateRun, sound.runs_length]
      requested_le := by
        intro generation requested
        simp only [killed, stopRequested, Generations.stopRequested_requestStop,
          Generations.issued_requestStop, Bool.or_eq_true, beq_iff_eq] at requested ⊢
        rcases requested with same | earlier
        · exact Nat.le_of_eq same
        · exact sound.requested_le _ earlier
      former := by
        intro other _
        change (lifecycle.updateRun _ Watched.abort).isFinished other = true
        -- The run that is dropped is the latest; all others had ended before.
        by_cases same : other = lifecycle.generations.issued
        · subst same
          exact isFinished_updateRun_self positive fun run => run.isFinished_finish .aborted
        · refine isFinished_updateRun positive (fun _ => Watched.isFinished_of_finish .aborted)
            (sound.former other ?_)
          rw [task]
          exact fun equal => same (Option.some.inj equal).symm
      honest := forall_run_updateRun (fun _ honest => honest.finish .aborted) _ sound.honest }

/-! ## What a section can do to a sound lifecycle -/

theorem requestStop_cases (sound : lifecycle.Sound) {answer : Except LifecycleError (Option Nat)}
    {after : Lifecycle} (done : lifecycle.locked requestStop = (answer, after)) :
    lifecycle.task = none ∧ answer = .ok none ∧ after = lifecycle ∨
      ∃ generation, lifecycle.task = some generation ∧ answer = .ok (some generation) ∧
        after = lifecycle.braked generation := by
  cases task : lifecycle.task with
  | none =>
    rw [lifecycle.locked_requestStop_of_stopped task (sound.stopped_of_task task)] at done
    cases done
    exact .inl ⟨rfl, rfl, rfl⟩
  | some generation =>
    rw [lifecycle.locked_requestStop task (sound.open_of_task task).1] at done
    cases done
    exact .inr ⟨generation, rfl, rfl, rfl⟩

theorem completeStop_cases (sound : lifecycle.Sound) {generation : Nat} {exit : Exit}
    (asked : lifecycle.stopRequested generation = true) {answer : Except LifecycleError Unit}
    {after : Lifecycle} (done : lifecycle.locked (completeStop generation exit) = (answer, after)) :
    answer = .ok () ∧
      (lifecycle.task ≠ some generation ∧ after = lifecycle ∨
        lifecycle.task = some generation ∧ after = lifecycle.released exit) := by
  by_cases present : lifecycle.task = some generation
  · obtain ⟨open_, rfl, _⟩ := sound.open_of_task present
    -- As long as the run is the present one, the request holds the machine in STOPPING.
    have stopping := (sound.stopping_iff open_).mpr asked
    rw [lifecycle.locked_completeStop exit present stopping] at done
    cases done
    exact ⟨rfl, .inr ⟨present, rfl⟩⟩
  · rw [lifecycle.locked_completeStop_of_other exit present] at done
    cases done
    exact ⟨rfl, .inl ⟨present, rfl⟩⟩

end Sound

/-! ## What is never taken back -/

/-- A later lifecycle: generations count up, and neither a request to stop nor the end of a run
is taken back. -/
structure Extends (before after : Lifecycle) : Prop where
  issued : before.generations.issued ≤ after.generations.issued
  requested : ∀ generation, before.stopRequested generation = true →
    after.stopRequested generation = true
  finished : ∀ generation, generation ≤ before.generations.issued →
    before.isFinished generation = true → after.isFinished generation = true

namespace Extends

theorem refl (lifecycle : Lifecycle) : Extends lifecycle lifecycle :=
  ⟨Nat.le_refl _, fun _ requested => requested, fun _ _ finished => finished⟩

theorem trans {first second third : Lifecycle} (left : Extends first second)
    (right : Extends second third) : Extends first third :=
  ⟨Nat.le_trans left.issued right.issued,
    fun generation requested => right.requested _ (left.requested generation requested),
    fun generation bound finished =>
      right.finished _ (Nat.le_trans bound left.issued) (left.finished generation bound finished)⟩

theorem restarted (sound : lifecycle.Sound) : Extends lifecycle lifecycle.restarted where
  issued := Nat.le_succ _
  requested := fun _ requested => requested
  finished := by
    intro generation bound finished
    rw [isFinished_iff] at *
    intro run found
    cases generation with
    | zero => cases found
    | succ index =>
      rw [run?_succ] at found finished
      refine finished run ?_
      rwa [Lifecycle.restarted, List.getElem?_append_left (sound.runs_length ▸ bound)] at found

theorem braked (lifecycle : Lifecycle) (generation : Nat) :
    Extends lifecycle (lifecycle.braked generation) where
  issued := by simp [Lifecycle.braked]
  requested := fun other requested => by
    have earlier : lifecycle.generations.stopRequested other = true := requested
    simp [Lifecycle.braked, stopRequested, Generations.stopRequested_requestStop, earlier]
  finished := fun _ _ finished => finished

theorem released (lifecycle : Lifecycle) (exit : Exit) :
    Extends lifecycle (lifecycle.released exit) :=
  ⟨Nat.le_refl _, fun _ requested => requested, fun _ _ finished => finished⟩

theorem passed (lifecycle : Lifecycle) (transient target : State) (flag : Bool) :
    Extends lifecycle (lifecycle.passed transient target flag) :=
  ⟨Nat.le_refl _, fun _ requested => requested, fun _ _ finished => finished⟩

theorem updateRun (lifecycle : Lifecycle) {generation : Nat} (positive : 0 < generation)
    {change : Watched → Watched}
    (keeps : ∀ run, run.isFinished = true → (change run).isFinished = true) :
    Extends lifecycle (lifecycle.updateRun generation change) :=
  ⟨Nat.le_refl _, fun _ requested => requested,
    fun _ _ finished => isFinished_updateRun positive keeps finished⟩

theorem kill (sound : lifecycle.Sound) : Extends lifecycle lifecycle.kill := by
  rcases sound.kill_cases with ⟨_, equation⟩ | ⟨generation, task, equation⟩ <;> rw [equation]
  · exact ⟨Nat.le_refl _, fun _ requested => requested, fun _ _ finished => finished⟩
  · obtain ⟨_, _, positive⟩ := sound.open_of_task task
    -- A kill is the end of a run, and then writes that touch neither runs nor earlier requests.
    have dropped : Extends lifecycle (lifecycle.updateRun generation Watched.abort) :=
      updateRun lifecycle positive fun _ => Watched.isFinished_of_finish .aborted
    refine dropped.trans ⟨?_, ?_, fun _ _ finished => finished⟩
    · simp [killed, Lifecycle.updateRun]
    · intro other requested
      have earlier : lifecycle.generations.stopRequested other = true := requested
      simp [killed, stopRequested, Generations.stopRequested_requestStop, earlier]

end Extends
end Lifecycle
end ServiceHost
