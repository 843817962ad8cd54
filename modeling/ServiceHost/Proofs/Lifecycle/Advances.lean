import ServiceHost.Proofs.Lifecycle.Shared

/-! The clock and the runs of a lifecycle over time.

A run that has ended stays so, what a watcher has recorded stays recorded, and a run
that was not there before has only just begun.
-/

set_option autoImplicit false

namespace ServiceHost

theorem Shared.Step.now_le {shared after : Shared} {deed : Shared.Deed}
    (step : Shared.Step shared deed after) : shared.now ≤ after.now := by
  cases step with
  | wait => exact Nat.le_add_right ..
  | _ => exact Nat.le_refl _

/-- What one section can make of the runs. -/
inductive Advances (runs : List Watched) : List Watched → Prop where
  | same : Advances runs runs
  | launched : Advances runs (runs ++ [.fresh])
  | ended (index : Nat) (exit : Exit) : Advances runs (runs.modify index (Watched.finish · exit))
  | observed (index : Nat) : Advances runs (runs.modify index Watched.observe)

theorem Watched.told_finish (task : Watched) (exit : Exit) :
    (task.finish exit).told = task.told := by
  unfold finish
  split <;> rfl

theorem Watched.told_observe {task : Watched} (told : task.told.isSome = true) :
    task.observe.told.isSome = true := by
  -- A watcher that looks either finds its record there, or makes it, or is gone.
  obtain ⟨ended, seen, unwatched⟩ := task
  cases ended <;> cases seen <;> cases unwatched <;> simp_all [observe, unseen, Watched.told]

theorem Watched.Honest.isFinished_of_told {task : Watched} (honest : task.Honest)
    (told : task.told.isSome = true) : task.isFinished = true := by
  obtain ⟨exit, told⟩ := Option.isSome_iff_exists.mp told
  exact honest.isFinished_of_answer (show task.answer 0 0 = some (some exit) by simp [answer, told])

theorem Watched.Honest.told_of_seen {task : Watched} (honest : task.Honest)
    (ended : task.isFinished = true) (seen : task.unseen = false) : task.told.isSome = true := by
  obtain ⟨watched, _⟩ := honest
  cases recorded : task.seen with
  | none => simp [unseen, recorded, watched, show task.ended.isSome = true from ended] at seen
  | some _ => simp [Watched.told, recorded]

theorem Advances.later {runs after : List Watched} (advances : Advances runs after) {index : Nat}
    {run : Watched} (found : runs[index]? = some run) :
    ∃ next, after[index]? = some next ∧
      (run.isFinished = true → next.isFinished = true) ∧
      (run.told.isSome = true → next.told.isSome = true) := by
  cases advances with
  | same => exact ⟨run, found, id, id⟩
  | launched =>
    obtain ⟨bound, _⟩ := List.getElem?_eq_some_iff.mp found
    exact ⟨run, by rwa [List.getElem?_append_left bound], id, id⟩
  | ended place exit =>
    rw [List.getElem?_modify, found]
    refine ⟨_, rfl, ?_, ?_⟩ <;> split
    · exact Watched.isFinished_of_finish exit
    · exact id
    · rw [Watched.told_finish]; exact id
    · exact id
  | observed place =>
    rw [List.getElem?_modify, found]
    refine ⟨_, rfl, ?_, ?_⟩ <;> split
    · rw [Watched.isFinished_observe]; exact id
    · exact id
    · exact Watched.told_observe
    · exact id

theorem Advances.earlier {runs after : List Watched} (advances : Advances runs after) {index : Nat}
    {next : Watched} (found : after[index]? = some next) :
    next = .fresh ∨ ∃ run, runs[index]? = some run := by
  cases advances with
  | same => exact .inr ⟨next, found⟩
  | launched =>
    rw [List.getElem?_append] at found
    split at found
    · exact .inr ⟨next, found⟩
    · exact .inl (List.mem_singleton.mp (List.mem_of_getElem? found))
  | ended | observed =>
    rw [List.getElem?_modify] at found
    obtain ⟨run, there, _⟩ := Option.map_eq_some_iff.mp found
    exact .inr ⟨run, there⟩

theorem Shared.Sound.advances {shared after : Shared} {deed : Shared.Deed} (sound : shared.Sound)
    (step : Shared.Step shared deed after) :
    Advances shared.lifecycle.runs after.lifecycle.runs := by
  cases step with
  | start done =>
    rcases Lifecycle.start_cases done with ⟨_, _, rfl⟩ | ⟨_, _, rfl⟩
    · exact .same
    · exact .launched
  | pause done => rcases Lifecycle.pause_cases done with ⟨_, _, rfl⟩ | ⟨_, _, rfl⟩ <;> exact .same
  | resume done => rcases Lifecycle.resume_cases done with ⟨_, _, rfl⟩ | ⟨_, _, rfl⟩ <;> exact .same
  | requestStop done =>
    rcases sound.machine.requestStop_cases done with ⟨_, _, rfl⟩ | ⟨_, _, _, rfl⟩ <;> exact .same
  | completeStop waits _ done =>
    have asked := sound.asked _ (List.mem_of_getElem? waits)
    rcases (sound.machine.completeStop_cases asked done).2 with ⟨_, rfl⟩ | ⟨_, rfl⟩ <;> exact .same
  | giveUp | wait => exact .same
  | kill =>
    rcases sound.machine.kill_cases with ⟨_, equation⟩ | ⟨_, _, equation⟩ <;> rw [equation]
    · exact .same
    · exact .ended _ .aborted
  | endRun => exact .ended _ _
  | record => exact .observed _

namespace Lifecycle

variable {lifecycle : Lifecycle}

/-- Whether those who wait for a run can be told how it has ended. -/
def recorded (lifecycle : Lifecycle) (generation : Nat) : Bool :=
  ((lifecycle.run? generation).bind Watched.told).isSome

theorem exists_run_of_not_finished {generation : Nat}
    (going : lifecycle.isFinished generation = false) :
    ∃ run, lifecycle.run? generation = some run ∧ run.isFinished = false := by
  unfold isFinished at going
  split at going
  · exact ⟨_, by assumption, going⟩
  · cases going

theorem isFinished_of_run? {generation : Nat} {run : Watched}
    (found : lifecycle.run? generation = some run) :
    lifecycle.isFinished generation = run.isFinished := by
  simp [isFinished, found]

/-- Every generation that was issued has its run. -/
theorem Sound.exists_run (sound : lifecycle.Sound) {generation : Nat} (positive : 0 < generation)
    (bound : generation ≤ lifecycle.generations.issued) :
    ∃ run, lifecycle.run? generation = some run := by
  obtain ⟨index, rfl⟩ := Nat.exists_eq_succ_of_ne_zero (Nat.ne_of_gt positive)
  have bound : index < lifecycle.runs.length := by
    rw [sound.runs_length]
    exact bound
  exact ⟨lifecycle.runs[index], by rw [run?_succ, List.getElem?_eq_getElem bound]⟩

theorem Sound.exists_run_of_task (sound : lifecycle.Sound) {generation : Nat}
    (task : lifecycle.task = some generation) : ∃ run, lifecycle.run? generation = some run := by
  obtain ⟨_, rfl, positive⟩ := sound.open_of_task task
  exact sound.exists_run positive (Nat.le_refl _)

theorem Sound.honest_of_run? (sound : lifecycle.Sound) {generation : Nat} {run : Watched}
    (found : lifecycle.run? generation = some run) : run.Honest := by
  cases generation with
  | zero => cases found
  | succ index =>
    rw [run?_succ] at found
    exact sound.honest run (List.mem_of_getElem? found)

theorem Sound.over_of_recorded (sound : lifecycle.Sound) {generation : Nat}
    (recorded : lifecycle.recorded generation = true) :
    ∃ run, lifecycle.run? generation = some run ∧ run.isFinished = true := by
  cases found : lifecycle.run? generation with
  | none => simp [Lifecycle.recorded, found] at recorded
  | some run =>
    simp only [Lifecycle.recorded, found, Option.bind_some] at recorded
    exact ⟨run, rfl, (sound.honest_of_run? found).isFinished_of_told recorded⟩

/-- What a stop that waits for a run is told. -/
theorem stopAnswer_of_run? {generation : Nat} {run : Watched}
    (found : lifecycle.run? generation = some run) (expires now : Nat) :
    lifecycle.stopAnswer generation expires now =
      match run.told with
      | some exit => some (some exit)
      | none => if expires ≤ now then some none else none := by
  rw [stopAnswer, found]
  rfl

end Lifecycle

section Later

variable {before after : Lifecycle} (advances : Advances before.runs after.runs)
include advances

theorem Advances.run? {generation : Nat} {run : Watched}
    (found : before.run? generation = some run) :
    ∃ next, after.run? generation = some next ∧
      (run.isFinished = true → next.isFinished = true) ∧
      (run.told.isSome = true → next.told.isSome = true) := by
  cases generation with
  | zero => cases found
  | succ index =>
    rw [Lifecycle.run?_succ] at *
    exact advances.later found

theorem Advances.recorded {generation : Nat} (recorded : before.recorded generation = true) :
    after.recorded generation = true := by
  cases found : before.run? generation with
  | none => simp [Lifecycle.recorded, found] at recorded
  | some run =>
    obtain ⟨next, there, _, told⟩ := advances.run? found
    simp only [Lifecycle.recorded, found, there, Option.bind_some] at recorded ⊢
    exact told recorded

theorem Advances.ends {generation : Nat} {next : Watched}
    (found : after.run? generation = some next) (ended : next.isFinished = true) :
    before.isFinished generation = false ∨
      ∃ run, before.run? generation = some run ∧ run.isFinished = true := by
  cases generation with
  | zero => cases found
  | succ index =>
    rw [Lifecycle.run?_succ] at found
    rcases advances.earlier found with rfl | ⟨run, there⟩
    · cases ended
    · rw [← Lifecycle.run?_succ] at there
      rw [Lifecycle.isFinished_of_run? there]
      cases finished : run.isFinished with
      | false => exact .inl rfl
      | true => exact .inr ⟨run, there, finished⟩

end Later

end ServiceHost
