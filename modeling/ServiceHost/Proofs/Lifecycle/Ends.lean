import ServiceHost.Proofs.Lifecycle.Advances

/-! How runs end, and how the machine lets go of them.

A deed leaves the present run where it is, or lets go of it in one of three ways: at the
end of a stop, by a kill, or to begin the next run. All that later arguments need to know
of a deed is which of these it is.
-/

set_option autoImplicit false

namespace ServiceHost

namespace Watched

variable {task : Watched} {exit : Exit}

theorem Honest.ended_of_seen (honest : task.Honest) (seen : task.seen = some exit) :
    task.ended = some exit := by
  rcases honest.2 with none | same
  · rw [seen] at none
    cases none
  · rw [← same, seen]

theorem Honest.ended_of_told (honest : task.Honest) (told : task.told = some exit) :
    task.ended = some exit := by
  unfold Watched.told at told
  split at told
  · exact honest.ended_of_seen (told ▸ by assumption)
  · simp [honest.1] at told

theorem ended_finish (task : Watched) (exit : Exit) :
    (task.finish exit).ended = some (task.ended.getD exit) := by
  unfold finish
  cases ended : task.ended <;> simp [ended]

theorem ended_observe (task : Watched) : task.observe.ended = task.ended := by
  unfold observe
  split <;> rfl

end Watched

namespace Lifecycle

variable {lifecycle : Lifecycle} {generation : Nat}

/-- How the run of a generation has ended. -/
def endOf (lifecycle : Lifecycle) (generation : Nat) : Option Exit :=
  (lifecycle.run? generation).bind Watched.ended

theorem endOf_of_run? {run : Watched} (found : lifecycle.run? generation = some run) :
    lifecycle.endOf generation = run.ended := by
  simp [endOf, found]

theorem positive_of_endOf {exit : Exit} (ended : lifecycle.endOf generation = some exit) :
    0 < generation := by
  obtain ⟨_, found, _⟩ := Option.bind_eq_some_iff.mp ended
  exact positive_of_run? found

theorem endOf_updateRun (positive : 0 < generation) (change : Watched → Watched) (other : Nat) :
    (lifecycle.updateRun generation change).endOf other =
      if other = generation then ((lifecycle.run? other).map change).bind Watched.ended
      else lifecycle.endOf other := by
  rw [endOf, run?_updateRun positive]
  split <;> rfl

theorem endOf_endRun {run : Watched} (found : lifecycle.run? generation = some run) (exit : Exit)
    (other : Nat) :
    (lifecycle.endRun generation exit).endOf other =
      if other = generation then some (run.ended.getD exit) else lifecycle.endOf other := by
  rw [endRun, endOf_updateRun (positive_of_run? found)]
  split
  · subst other
    simp [found, Watched.ended_finish]
  · rfl

theorem endOf_observe (positive : 0 < generation) (other : Nat) :
    (lifecycle.updateRun generation Watched.observe).endOf other = lifecycle.endOf other := by
  rw [endOf_updateRun positive]
  split
  · cases found : lifecycle.run? other <;> simp [endOf, found, Watched.ended_observe]
  · rfl

namespace Sound

theorem endOf_eq_none_iff (sound : lifecycle.Sound) (positive : 0 < generation)
    (bound : generation ≤ lifecycle.generations.issued) :
    lifecycle.endOf generation = none ↔ lifecycle.isFinished generation = false := by
  obtain ⟨run, found⟩ := sound.exists_run positive bound
  rw [endOf_of_run? found, isFinished_of_run? found]
  cases ended : run.ended <;> simp [Watched.isFinished, ended]

/-- Only a run that was issued can have ended. -/
theorem le_issued_of_endOf (sound : lifecycle.Sound) {exit : Exit}
    (ended : lifecycle.endOf generation = some exit) :
    generation ≤ lifecycle.generations.issued := by
  obtain ⟨run, found, _⟩ := Option.bind_eq_some_iff.mp ended
  cases generation with
  | zero => cases found
  | succ index =>
    rw [run?_succ] at found
    exact sound.runs_length ▸ (List.getElem?_eq_some_iff.mp found).1

/-- All runs but the present one have ended. -/
theorem exists_end (sound : lifecycle.Sound) (positive : 0 < generation)
    (bound : generation ≤ lifecycle.generations.issued)
    (former : lifecycle.task ≠ some generation) :
    ∃ exit, lifecycle.endOf generation = some exit := by
  cases ended : lifecycle.endOf generation with
  | none =>
    have going := (sound.endOf_eq_none_iff positive bound).mp ended
    exact absurd (going.symm.trans (sound.former _ former)) Bool.false_ne_true
  | some exit => exact ⟨exit, rfl⟩

theorem endOf_of_exitOf (sound : lifecycle.Sound) {exit : Exit}
    (seen : lifecycle.exitOf generation = some exit) : lifecycle.endOf generation = some exit := by
  obtain ⟨run, found, seen⟩ := Option.bind_eq_some_iff.mp seen
  rw [endOf_of_run? found]
  exact (sound.honest_of_run? found).ended_of_seen seen

theorem endOf_of_stopAnswer (sound : lifecycle.Sound) {expires now : Nat} {exit : Exit}
    (task : lifecycle.task = some generation)
    (told : lifecycle.stopAnswer generation expires now = some (some exit)) :
    lifecycle.endOf generation = some exit := by
  obtain ⟨run, found⟩ := sound.exists_run_of_task task
  rw [stopAnswer_of_run? found] at told
  rw [endOf_of_run? found]
  split at told
  · rename_i same
    cases told
    exact (sound.honest_of_run? found).ended_of_told same
  · split at told <;> cases told

/-- A run that is dropped is aborted, unless it has ended before. -/
theorem endOf_killed (sound : lifecycle.Sound) (task : lifecycle.task = some generation)
    (other : Nat) :
    (lifecycle.killed generation).endOf other =
      if other = generation then some ((lifecycle.endOf generation).getD .aborted)
      else lifecycle.endOf other := by
  obtain ⟨run, found⟩ := sound.exists_run_of_task task
  rw [endOf_of_run? found]
  exact endOf_endRun found .aborted other

end Sound

/-- A run that has just begun has no end. -/
theorem endOf_restarted (lifecycle : Lifecycle) (generation : Nat) :
    lifecycle.restarted.endOf generation = lifecycle.endOf generation := by
  cases generation with
  | zero => rfl
  | succ index =>
    simp only [endOf, run?_succ, Lifecycle.restarted, List.getElem?_append]
    split
    · rfl
    · rename_i late
      rw [List.getElem?_eq_none (Nat.le_of_not_lt late)]
      cases index - lifecycle.runs.length <;> rfl

end Lifecycle

namespace Shared

/-- What a deed does about the present run. -/
inductive Handles (before : Lifecycle) : Deed → Lifecycle → Prop where
  /-- It leaves the run to the machine, if there is one. The run may end by itself. -/
  | keeps {deed : Deed} {after : Lifecycle} :
      (∀ generation, deed ≠ .start (.ok generation)) → (deed = .kill → before.task = none) →
      after.task = before.task → after.lastExit = before.lastExit →
      after.generations.issued = before.generations.issued →
      (∀ generation, after.endOf generation = before.endOf generation ∨
        before.endOf generation = none ∧ ∃ exit, exit ≠ .aborted ∧
          deed = .endRun generation exit ∧ after.endOf generation = some exit) →
      Handles before deed after
  | releases {generation : Nat} {exit : Exit} :
      before.task = some generation → before.endOf generation = some exit →
      Handles before (.finishStop generation (.ok ())) (before.released exit)
  | drops {generation : Nat} :
      before.task = some generation → Handles before .kill (before.killed generation)
  | begins : before.isAlive = false →
      Handles before (.start (.ok (before.generations.issued + 1))) before.restarted

/-- A deed that touches neither the task nor any run. -/
theorem Handles.aside {before after : Lifecycle} {deed : Deed}
    (start : ∀ generation, deed ≠ .start (.ok generation))
    (kill : deed = .kill → before.task = none)
    (task : after.task = before.task) (lastExit : after.lastExit = before.lastExit)
    (issued : after.generations.issued = before.generations.issued)
    (runs : after.runs = before.runs) : Handles before deed after :=
  .keeps start kill task lastExit issued fun generation =>
    .inl (by simp [Lifecycle.endOf, Lifecycle.run?, runs])

/-- How a run has ended does not change. -/
theorem Handles.keeps_end {before after : Lifecycle} {deed : Deed}
    (handles : Handles before deed after) (sound : before.Sound) {generation : Nat} {exit : Exit}
    (ended : before.endOf generation = some exit) : after.endOf generation = some exit := by
  cases handles with
  | keeps _ _ _ _ _ ends =>
    rcases ends generation with same | ⟨open_, _⟩
    · rw [same, ended]
    · rw [open_] at ended
      cases ended
  | releases => exact ended
  | drops task =>
    rw [sound.endOf_killed task]
    split
    · subst generation
      rw [ended]
      rfl
    · exact ended
  | begins => rw [Lifecycle.endOf_restarted, ended]

theorem Sound.handles {shared after : Shared} {deed : Deed} (sound : shared.Sound)
    (step : Step shared deed after) : Handles shared.lifecycle deed after.lifecycle := by
  have machine := sound.machine
  cases step with
  | start done =>
    rcases Lifecycle.start_cases done with ⟨_, rfl, rfl⟩ | ⟨quiet, rfl, rfl⟩
    · exact .aside (by simp) (by simp) rfl rfl rfl rfl
    · exact .begins quiet
  | pause done =>
    rcases Lifecycle.pause_cases done with ⟨_, _, rfl⟩ | ⟨_, _, rfl⟩ <;>
      exact .aside (by simp) (by simp) rfl rfl rfl rfl
  | resume done =>
    rcases Lifecycle.resume_cases done with ⟨_, _, rfl⟩ | ⟨_, _, rfl⟩ <;>
      exact .aside (by simp) (by simp) rfl rfl rfl rfl
  | requestStop done =>
    rcases machine.requestStop_cases done with ⟨_, _, rfl⟩ | ⟨_, _, _, rfl⟩
    · exact .aside (by simp) (by simp) rfl rfl rfl rfl
    · exact .aside (by simp) (by simp) rfl rfl (by simp [Lifecycle.braked]) rfl
  | completeStop waits told done =>
    obtain ⟨rfl, ⟨_, rfl⟩ | ⟨task, rfl⟩⟩ :=
      machine.completeStop_cases (sound.asked _ (List.mem_of_getElem? waits)) done
    · exact .aside (by simp) (by simp) rfl rfl rfl rfl
    · exact .releases task (machine.endOf_of_stopAnswer task told)
  | giveUp | wait => exact .aside (by simp) (by simp) rfl rfl rfl rfl
  | kill =>
    rcases machine.kill_cases with ⟨none, equation⟩ | ⟨_, task, equation⟩ <;> rw [equation]
    · exact .aside (by simp) (fun _ => none) rfl rfl rfl rfl
    · exact .drops task
  | @endRun generation run exit found going own =>
    refine .keeps (by simp) (by simp) rfl rfl rfl fun other => ?_
    have open_ : run.ended = none := by simpa [Watched.isFinished] using going
    rw [Lifecycle.endOf_endRun found, open_]
    split
    · subst other
      exact .inr ⟨by rw [Lifecycle.endOf_of_run? found, open_], exit, own, rfl, rfl⟩
    · exact .inl rfl
  | record found =>
    exact .keeps (by simp) (by simp) rfl rfl rfl fun other =>
      .inl (Lifecycle.endOf_observe (Lifecycle.positive_of_run? found) other)

end Shared

end ServiceHost
