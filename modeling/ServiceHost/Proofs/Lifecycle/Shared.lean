import ServiceHost.Proofs.Lifecycle.Soundness

/-! A lifecycle in the hands of many callers.

Its sections come in any order, with any number of stops between their two halves, and
runs end on their own at any time. Whatever the order, the machine is in one of its four
settled states whenever its lock is free, and no move inside a section is ever refused.
-/

set_option autoImplicit false

namespace ServiceHost

/-- A lifecycle, and the stops that have made their request and wait for the end of a run: which
generation each of them waits for, and until when. -/
structure Shared where
  now : Nat
  lifecycle : Lifecycle
  stops : List (Nat × Nat)

namespace Shared

def fresh : Shared := ⟨0, .fresh, []⟩

/-- One thing that happens to a lifecycle, with the answer that its caller gets. A stop that has
something to wait for gets its answer only at its end. -/
inductive Deed where
  | start (answer : Except LifecycleError Nat)
  | pause (answer : Except LifecycleError Unit)
  | resume (answer : Except LifecycleError Unit)
  | requestStop (answer : Except LifecycleError (Option Nat))
  | finishStop (generation : Nat) (answer : Except LifecycleError Unit)
  | kill
  | endRun (generation : Nat) (exit : Exit)
  /-- The watcher of a run looks. -/
  | record (generation : Nat)
  | wait (millis : Nat)

/-- The stop that a request leaves waiting. -/
def waiting (expires : Nat) : Except LifecycleError (Option Nat) → List (Nat × Nat)
  | .ok (some generation) => [(generation, expires)]
  | _ => []

inductive Step : Shared → Deed → Shared → Prop where
  | start {shared : Shared} {answer : Except LifecycleError Nat} {after : Lifecycle} :
      shared.lifecycle.locked Lifecycle.start = (answer, after) →
      Step shared (.start answer) { shared with lifecycle := after }
  | pause {shared : Shared} {answer : Except LifecycleError Unit} {after : Lifecycle} :
      shared.lifecycle.locked Lifecycle.pause = (answer, after) →
      Step shared (.pause answer) { shared with lifecycle := after }
  | resume {shared : Shared} {answer : Except LifecycleError Unit} {after : Lifecycle} :
      shared.lifecycle.locked Lifecycle.resume = (answer, after) →
      Step shared (.resume answer) { shared with lifecycle := after }
  | requestStop {shared : Shared} {answer : Except LifecycleError (Option Nat)}
      {after : Lifecycle} :
      shared.lifecycle.locked Lifecycle.requestStop = (answer, after) →
      Step shared (.requestStop answer) { shared with
        lifecycle := after
        stops := shared.stops ++ waiting (shared.now + stopGrace) answer }
  | completeStop {shared : Shared} {place generation expires : Nat} {exit : Exit}
      {answer : Except LifecycleError Unit} {after : Lifecycle} :
      shared.stops[place]? = some (generation, expires) →
      shared.lifecycle.stopAnswer generation expires shared.now = some (some exit) →
      shared.lifecycle.locked (Lifecycle.completeStop generation exit) = (answer, after) →
      Step shared (.finishStop generation answer)
        { shared with lifecycle := after, stops := shared.stops.eraseIdx place }
  | giveUp {shared : Shared} {place generation expires : Nat} :
      shared.stops[place]? = some (generation, expires) →
      shared.lifecycle.stopAnswer generation expires shared.now = some none →
      Step shared (.finishStop generation (.error (.stopTimedOut (.ofMillis stopGrace))))
        { shared with stops := shared.stops.eraseIdx place }
  | kill (shared : Shared) : Step shared .kill { shared with lifecycle := shared.lifecycle.kill }
  | endRun {shared : Shared} {generation : Nat} {run : Watched} {exit : Exit} :
      shared.lifecycle.run? generation = some run → run.isFinished = false → exit ≠ .aborted →
      Step shared (.endRun generation exit)
        { shared with lifecycle := shared.lifecycle.endRun generation exit }
  | record {shared : Shared} {generation : Nat} {run : Watched} :
      shared.lifecycle.run? generation = some run →
      Step shared (.record generation)
        { shared with lifecycle := shared.lifecycle.updateRun generation Watched.observe }
  | wait (shared : Shared) (millis : Nat) :
      Step shared (.wait millis) { shared with now := shared.now + millis }

/-- The runs of a lifecycle from its creation on. -/
inductive Run : List Deed → Shared → Prop where
  | start : Run [] fresh
  | next {deeds : List Deed} {shared after : Shared} {deed : Deed} :
      Run deeds shared → Step shared deed after → Run (deeds ++ [deed]) after

/-- What holds between any two deeds. -/
structure Sound (shared : Shared) : Prop where
  machine : shared.lifecycle.Sound
  /-- Every stop that waits has made its request. -/
  asked : ∀ stop ∈ shared.stops, shared.lifecycle.stopRequested stop.1 = true

theorem Sound.after {shared : Shared} (sound : shared.Sound) {after : Lifecycle}
    (machine : after.Sound) (later : shared.lifecycle.Extends after) (now : Nat)
    {stops : List (Nat × Nat)} (fewer : stops ⊆ shared.stops) :
    Sound ⟨now, after, stops⟩ :=
  ⟨machine, fun stop member => later.requested _ (sound.asked stop (fewer member))⟩

theorem Sound.step {shared after : Shared} {deed : Deed} (sound : shared.Sound)
    (step : Step shared deed after) : after.Sound := by
  have machine := sound.machine
  -- Each section keeps the machine sound, and stops that wait keep their requests throughout.
  cases step with
  | start done =>
    rcases Lifecycle.start_cases done with ⟨_, _, rfl⟩ | ⟨quiet, _, rfl⟩
    · exact sound
    · exact sound.after (machine.restarted quiet) (.restarted machine) _ (List.Subset.refl _)
  | pause done =>
    rcases Lifecycle.pause_cases done with ⟨running, _, rfl⟩ | ⟨_, _, rfl⟩
    · exact sound.after (machine.passed_paused running) (.passed ..) _ (List.Subset.refl _)
    · exact sound
  | resume done =>
    rcases Lifecycle.resume_cases done with ⟨paused, _, rfl⟩ | ⟨_, _, rfl⟩
    · exact sound.after (machine.passed_running paused) (.passed ..) _ (List.Subset.refl _)
    · exact sound
  | requestStop done =>
    rcases machine.requestStop_cases done with ⟨_, rfl, rfl⟩ | ⟨generation, task, rfl, rfl⟩
    · simpa [waiting] using sound
    · refine ⟨machine.braked task, fun stop member => ?_⟩
      rcases List.mem_append.mp member with old | new
      · exact (Lifecycle.Extends.braked _ generation).requested _ (sound.asked stop old)
      · rw [List.mem_singleton.mp new]
        simp [Lifecycle.braked, Lifecycle.stopRequested, Generations.stopRequested_requestStop]
  | completeStop waits told done =>
    have asked := sound.asked _ (List.mem_of_getElem? waits)
    rcases (machine.completeStop_cases asked done).2 with ⟨_, rfl⟩ | ⟨task, rfl⟩
    · exact sound.after machine (.refl _) _ List.eraseIdx_subset
    -- The stop was told an exit, and exits are only told of runs that have ended.
    · have ended := machine.isFinished_of_stopAnswer told
      exact sound.after (machine.released _ task ended) (.released ..) _ List.eraseIdx_subset
  | giveUp =>
    exact sound.after machine (.refl _) _ List.eraseIdx_subset
  | kill => exact sound.after machine.kill (.kill machine) _ (List.Subset.refl _)
  | endRun found =>
    have positive := Lifecycle.positive_of_run? found
    exact sound.after (machine.endRun positive _)
      (.updateRun _ positive fun _ => Watched.isFinished_of_finish _) _ (List.Subset.refl _)
  | record found =>
    have positive := Lifecycle.positive_of_run? found
    exact sound.after (machine.observe positive)
      (.updateRun _ positive fun run ended => by simpa using ended) _ (List.Subset.refl _)
  | wait => exact ⟨machine, sound.asked⟩

theorem Run.sound {deeds : List Deed} {shared : Shared} (run : Run deeds shared) :
    shared.Sound := by
  induction run with
  | start => exact ⟨Lifecycle.sound_fresh, fun _ member => by cases member⟩
  | next _ step ih => exact ih.step step

/-! ## What callers see -/

def Deed.started? : Deed → Option Nat
  | .start (.ok generation) => some generation
  | _ => none

/-- What an answer says of the lifecycle before and after the section that gave it. -/
def Deed.Fits (before after : Lifecycle) : Deed → Prop
  | .start (.ok _) => before.isAlive = false
  | .start (.error refusal) =>
    before.isAlive = true ∧ refusal = .alreadyRunning ∧ after = before
  | .pause (.ok _) => before.state = .running
  | .pause (.error refusal) =>
    before.state ≠ .running ∧ refusal = .invalidTransition "pause" before.state ∧ after = before
  | .resume (.ok _) => before.state = .paused
  | .resume (.error refusal) =>
    before.state ≠ .paused ∧ refusal = .invalidTransition "resume" before.state ∧ after = before
  | .requestStop (.ok _) => True
  | .requestStop (.error _) => False
  | .finishStop _ (.ok _) => True
  | .finishStop _ (.error refusal) => refusal = .stopTimedOut (.ofMillis stopGrace) ∧ after = before
  | _ => True

theorem Sound.fits {shared after : Shared} {deed : Deed} (sound : shared.Sound)
    (step : Step shared deed after) : deed.Fits shared.lifecycle after.lifecycle := by
  have machine := sound.machine
  cases step with
  | start done =>
    rcases Lifecycle.start_cases done with ⟨alive, rfl, rfl⟩ | ⟨quiet, rfl, rfl⟩
    · exact ⟨alive, rfl, rfl⟩
    · exact quiet
  | pause done =>
    rcases Lifecycle.pause_cases done with ⟨running, rfl, rfl⟩ | ⟨other, rfl, rfl⟩
    · exact running
    · exact ⟨other, rfl, rfl⟩
  | resume done =>
    rcases Lifecycle.resume_cases done with ⟨paused, rfl, rfl⟩ | ⟨other, rfl, rfl⟩
    · exact paused
    · exact ⟨other, rfl, rfl⟩
  | requestStop done =>
    rcases machine.requestStop_cases done with ⟨_, rfl, _⟩ | ⟨_, _, rfl, _⟩ <;> trivial
  | completeStop waits _ done =>
    rw [(machine.completeStop_cases (sound.asked _ (List.mem_of_getElem? waits)) done).1]
    trivial
  | giveUp => exact ⟨rfl, rfl⟩
  | kill | endRun | record | wait => trivial

/-- Only a successful start issues a generation, and it issues the next one. -/
theorem Sound.issued_step {shared after : Shared} {deed : Deed} (sound : shared.Sound)
    (step : Step shared deed after) :
    deed.started? = none ∧
        after.lifecycle.generations.issued = shared.lifecycle.generations.issued ∨
      deed.started? = some (shared.lifecycle.generations.issued + 1) ∧
        after.lifecycle.generations.issued = shared.lifecycle.generations.issued + 1 := by
  have machine := sound.machine
  cases step with
  | start done =>
    rcases Lifecycle.start_cases done with ⟨_, rfl, rfl⟩ | ⟨_, rfl, rfl⟩
    · exact .inl ⟨rfl, rfl⟩
    · exact .inr ⟨rfl, rfl⟩
  | pause done =>
    rcases Lifecycle.pause_cases done with ⟨_, _, rfl⟩ | ⟨_, _, rfl⟩ <;> exact .inl ⟨rfl, rfl⟩
  | resume done =>
    rcases Lifecycle.resume_cases done with ⟨_, _, rfl⟩ | ⟨_, _, rfl⟩ <;> exact .inl ⟨rfl, rfl⟩
  | requestStop done =>
    rcases machine.requestStop_cases done with ⟨_, _, rfl⟩ | ⟨_, _, _, rfl⟩
    · exact .inl ⟨rfl, rfl⟩
    · exact .inl ⟨rfl, by simp [Lifecycle.braked]⟩
  | completeStop waits _ done =>
    have asked := sound.asked _ (List.mem_of_getElem? waits)
    rcases (machine.completeStop_cases asked done).2 with ⟨_, rfl⟩ | ⟨_, rfl⟩ <;>
      exact .inl ⟨rfl, rfl⟩
  | kill =>
    rcases machine.kill_cases with ⟨_, equation⟩ | ⟨_, _, equation⟩ <;>
      exact .inl ⟨rfl, by simp [equation, Lifecycle.setPaused, Lifecycle.killed]⟩
  | giveUp | endRun | record | wait => exact .inl ⟨rfl, rfl⟩

/-- Successful starts are numbered from one, none left out. -/
theorem Run.starts_numbered {deeds : List Deed} {shared : Shared} (run : Run deeds shared) :
    deeds.filterMap Deed.started? = List.range' 1 shared.lifecycle.generations.issued := by
  induction run with
  | start => rfl
  -- The counter goes up by one exactly where the list gets one number longer.
  | next run step ih =>
    rw [List.filterMap_append, ih]
    rcases run.sound.issued_step step with ⟨none, same⟩ | ⟨started, next⟩
    · simp [none, same]
    · simp [started, next, List.range'_concat, Nat.add_comm]

/-- Between any two deeds of any run the machine is settled, and its task, its generations, the
request to stop and the pause flag agree with its state. No move inside a section is refused: a
call fails only by the check that it begins with, and then changes nothing, or because a run
outlived the grace of a stop. -/
theorem run_consistent {deeds : List Deed} {shared : Shared} (run : Run deeds shared) :
    let lifecycle := shared.lifecycle
    (lifecycle.state ∈ [State.stopped, .running, .paused, .stopping]) ∧
    (lifecycle.task.isSome = true ↔ lifecycle.state ≠ .stopped) ∧
    (∀ generation, lifecycle.task = some generation →
      generation = lifecycle.generations.issued) ∧
    (lifecycle.state = .stopping ↔
      ∃ generation, lifecycle.task = some generation ∧
        lifecycle.stopRequested generation = true) ∧
    (lifecycle.state = .running → lifecycle.paused = false) ∧
    (lifecycle.state = .paused → lifecycle.paused = true) ∧
    deeds.filterMap Deed.started? = List.range' 1 lifecycle.generations.issued ∧
    ∀ deed after, Step shared deed after → deed.Fits lifecycle after.lifecycle := by
  have sound := run.sound
  have machine := sound.machine
  refine ⟨State.transient_eq_false_iff.mp machine.settled, ?_, ?_, ?_, machine.unpaused,
    machine.paused, run.starts_numbered, fun _ _ step => sound.fits step⟩
  · cases task : shared.lifecycle.task with
    | none => simp [machine.stopped_of_task task]
    | some _ => simp [(machine.open_of_task task).1]
  · exact fun _ task => (machine.open_of_task task).2.1
  · constructor
    · intro stopping
      have open_ : shared.lifecycle.state ≠ .stopped := by simp [stopping]
      refine ⟨_, ?_, (machine.stopping_iff open_).mp stopping⟩
      rw [machine.task_eq, if_neg open_]
    · rintro ⟨generation, task, asked⟩
      obtain ⟨open_, rfl, _⟩ := machine.open_of_task task
      exact (machine.stopping_iff open_).mpr asked

/-- A stop whose run ends while another caller tries to start, and a start after it. -/
def restart : List Deed :=
  [.start (.ok 1), .requestStop (.ok (some 1)), .start (.error .alreadyRunning),
    .endRun 1 .returned, .record 1, .finishStop 1 (.ok ()), .start (.ok 2)]

theorem run_consistent_restart :
    ∃ shared, Run restart shared ∧ shared.lifecycle.state = .running ∧
      restart.filterMap Deed.started? = List.range' 1 shared.lifecycle.generations.issued := by
  have first := Run.start.next (.start rfl)
  have asked := first.next (.requestStop rfl)
  have refused := asked.next (.start rfl)
  have ended := refused.next (@Step.endRun _ 1 .fresh .returned rfl rfl (by decide))
  have recorded := ended.next (@Step.record _ 1 _ rfl)
  have stopped := recorded.next (@Step.completeStop _ 0 1 stopGrace .returned _ _ rfl rfl rfl)
  have again := stopped.next (.start rfl)
  exact ⟨_, again, rfl, (run_consistent again).2.2.2.2.2.2.1⟩

end Shared
end ServiceHost
