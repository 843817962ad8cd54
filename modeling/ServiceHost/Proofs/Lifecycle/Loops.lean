import ServiceHost.Proofs.Lifecycle.Ends

/-! The loops that a lifecycle has launched.

A loop that is killed is still there until it comes to the point where it is dropped, and
nobody waits for that: the next one may be launched meanwhile, so several loops can be going
at one time. All of them but one were asked to stop, and the one that was not is the loop of
the present task.
-/

set_option autoImplicit false

namespace ServiceHost

namespace Shared

/-- What happens to a lifecycle or to one of its loops. -/
inductive Event where
  | deed (deed : Deed)
  /-- A loop that was killed comes to its end. -/
  | gone (generation : Nat)

namespace Event

/-- The loop of a generation comes to its end. -/
def Ends (generation : Nat) : Event → Prop
  | .deed (.endRun ended _) => ended = generation
  | .gone ended => ended = generation
  | _ => False

/-- A call is aimed at the loop of a generation, to make it stop. -/
def Targets (lifecycle : Lifecycle) (generation : Nat) : Event → Prop
  | .deed (.requestStop answer) => answer = .ok (some generation)
  | .deed .kill => lifecycle.task = some generation
  | _ => False

end Event

def Launched (events : List Event) (generation : Nat) : Prop :=
  .deed (.start (.ok generation)) ∈ events

def Over (events : List Event) (generation : Nat) : Prop :=
  ∃ event ∈ events, event.Ends generation

def Going (events : List Event) (generation : Nat) : Prop :=
  Launched events generation ∧ ¬ Over events generation

/-- What can happen next. The watcher of a loop has nothing to see as long as the loop goes on. -/
inductive Next (events : List Event) (present : Shared) : Event → Shared → Prop where
  | deed {deed : Deed} {after : Shared} :
      Step present deed after →
      (∀ generation, deed = .record generation → ¬ Going events generation) →
      Next events present (.deed deed) after
  | gone {generation : Nat} :
      Going events generation → present.lifecycle.endOf generation = some .aborted →
      Next events present (.gone generation) present

/-- Everything that happens to a lifecycle and its loops from the creation on. -/
inductive Trail : List Event → Shared → Prop where
  | start : Trail [] fresh
  | next {events : List Event} {present after : Shared} {event : Event} :
      Trail events present → Next events present event after → Trail (events ++ [event]) after

/-- What the machine knows of its loops. -/
structure Tallied (events : List Event) (lifecycle : Lifecycle) : Prop where
  launched : ∀ generation, Launched events generation →
    0 < generation ∧ generation ≤ lifecycle.generations.issued
  ended : ∀ generation, Over events generation → ∃ exit, lifecycle.endOf generation = some exit
  /-- A loop that goes on when the machine takes it for ended was killed. -/
  going : ∀ generation exit, Going events generation → lifecycle.endOf generation = some exit →
    exit = .aborted ∧ lifecycle.stopRequested generation = true

variable {events : List Event} {event : Event} {present after : Shared} {deed : Deed}
  {generation : Nat} {exit : Exit}

theorem launched_concat : Launched (events ++ [event]) generation ↔
    Launched events generation ∨ event = .deed (.start (.ok generation)) := by
  simp [Launched, eq_comm]

theorem over_concat : Over (events ++ [event]) generation ↔
    Over events generation ∨ event.Ends generation := by
  simp [Over, or_and_right, exists_or]

theorem Going.before (going : Going (events ++ [event]) generation)
    (earlier : event ≠ .deed (.start (.ok generation))) : Going events generation :=
  ⟨(launched_concat.mp going.1).resolve_right earlier,
    fun past => going.2 (over_concat.mpr (.inl past))⟩

/-! ## One deed -/

/-- A token is cancelled by a call that is aimed at its own generation, and by nothing else. -/
theorem Sound.stopRequested_iff (sound : present.Sound) (step : Step present deed after) :
    after.lifecycle.stopRequested generation = true ↔
      present.lifecycle.stopRequested generation = true ∨
        (Event.deed deed).Targets present.lifecycle generation := by
  have machine := sound.machine
  cases step with
  | start done =>
    rcases Lifecycle.start_cases done with ⟨_, _, rfl⟩ | ⟨_, _, rfl⟩ <;>
      exact (or_iff_left id).symm
  | pause done =>
    rcases Lifecycle.pause_cases done with ⟨_, _, rfl⟩ | ⟨_, _, rfl⟩ <;>
      exact (or_iff_left id).symm
  | resume done =>
    rcases Lifecycle.resume_cases done with ⟨_, _, rfl⟩ | ⟨_, _, rfl⟩ <;>
      exact (or_iff_left id).symm
  | requestStop done =>
    rcases machine.requestStop_cases done with ⟨_, rfl, rfl⟩ | ⟨_, _, rfl, rfl⟩
    · simp [Event.Targets]
    · simp [Event.Targets, Lifecycle.stopRequested_braked]
  | completeStop waits _ done =>
    have asked := sound.asked _ (List.mem_of_getElem? waits)
    rcases (machine.completeStop_cases asked done).2 with ⟨_, rfl⟩ | ⟨_, rfl⟩ <;>
      exact (or_iff_left id).symm
  | kill =>
    rcases machine.kill_cases with ⟨none, equation⟩ | ⟨_, task, equation⟩ <;>
      simp only [equation, Event.Targets]
    · simp [none, Lifecycle.setPaused, Lifecycle.stopRequested]
    · simp [task, Lifecycle.stopRequested_killed]
  | giveUp | endRun | record | wait => exact (or_iff_left id).symm

/-- Whatever is made to stop is the present task. -/
theorem Sound.task_of_targets (sound : present.Sound) (step : Step present deed after)
    (targets : (Event.deed deed).Targets present.lifecycle generation) :
    present.lifecycle.task = some generation := by
  cases step with
  | requestStop done =>
    rcases sound.machine.requestStop_cases done with ⟨_, rfl, _⟩ | ⟨_, task, rfl, _⟩
    · cases targets
    · cases targets
      exact task
  | kill => exact targets
  | _ => cases targets

theorem Step.exists_end_of_ends (step : Step present deed after)
    (ends : (Event.deed deed).Ends generation) :
    ∃ exit, after.lifecycle.endOf generation = some exit := by
  cases step with
  | endRun found =>
    cases ends
    rw [Lifecycle.endOf_endRun found, if_pos rfl]
    exact ⟨_, rfl⟩
  | _ => cases ends

/-- A loop that the machine takes for ended after a deed was so before, unless the deed was its
end, or killed it. -/
theorem Handles.end_before {before lifecycle : Lifecycle} (handles : Handles before deed lifecycle)
    (sound : before.Sound) (ended : lifecycle.endOf generation = some exit) :
    before.endOf generation = some exit ∨ (Event.deed deed).Ends generation ∨
      exit = .aborted ∧ (Event.deed deed).Targets before generation := by
  cases handles with
  | keeps _ _ _ _ _ ends =>
    rcases ends generation with same | ⟨_, _, _, rfl, _⟩
    · exact .inl (same ▸ ended)
    · exact .inr (.inl rfl)
  | releases => exact .inl ended
  | drops task =>
    rw [sound.endOf_killed task] at ended
    split at ended
    · subst generation
      cases former : before.endOf _ with
      | none =>
        rw [former] at ended
        cases ended
        exact .inr (.inr ⟨rfl, task⟩)
      | some exit =>
        rw [former] at ended
        exact .inl ended
    · exact .inl ended
  | begins => exact .inl (by rwa [Lifecycle.endOf_restarted] at ended)

theorem Tallied.done (tallied : Tallied events present.lifecycle) (sound : present.Sound)
    (step : Step present deed after) : Tallied (events ++ [.deed deed]) after.lifecycle where
  launched generation launched := by
    rcases launched_concat.mp launched with earlier | start
    · have := tallied.launched generation earlier
      rcases sound.issued_step step with ⟨_, same⟩ | ⟨_, next⟩ <;> omega
    · cases start
      rcases sound.issued_step step with ⟨none, _⟩ | ⟨started, next⟩
      · cases none
      · cases started
        omega
  ended generation past := by
    rcases over_concat.mp past with earlier | ends
    · obtain ⟨exit, ended⟩ := tallied.ended generation earlier
      exact ⟨exit, (sound.handles step).keeps_end sound.machine ended⟩
    · exact step.exists_end_of_ends ends
  going generation exit going ended := by
    rw [sound.stopRequested_iff step]
    rcases (sound.handles step).end_before sound.machine ended with before | ends | ⟨killed, aimed⟩
    -- What the machine knew the end of was launched before.
    · have earlier : Going events generation := going.before fun start => by
        cases start
        have bound := sound.machine.le_issued_of_endOf before
        rcases sound.issued_step step with ⟨none, _⟩ | ⟨started, _⟩
        · cases none
        · cases started
          omega
      obtain ⟨aborted, asked⟩ := tallied.going generation exit earlier before
      exact ⟨aborted, .inl asked⟩
    · exact absurd (over_concat.mpr (.inr ends)) going.2
    · exact ⟨killed, .inr aimed⟩

theorem Tallied.gone {lifecycle : Lifecycle} (tallied : Tallied events lifecycle)
    (ended : lifecycle.endOf generation = some exit) :
    Tallied (events ++ [.gone generation]) lifecycle where
  launched other launched :=
    tallied.launched other ((launched_concat.mp launched).resolve_right (by simp))
  ended other past := by
    rcases over_concat.mp past with earlier | rfl
    · exact tallied.ended other earlier
    · exact ⟨exit, ended⟩
  going other exit going := tallied.going other exit (going.before (by simp))

/-! ## All that happens -/

theorem Trail.sound (trail : Trail events present) :
    present.Sound ∧ Tallied events present.lifecycle := by
  induction trail with
  | start =>
    exact ⟨Run.start.sound, fun _ none => (by cases none), fun _ past => (by simp [Over] at past),
      fun _ _ going => (by cases going.1)⟩
  | next _ next ih =>
    obtain ⟨sound, tallied⟩ := ih
    cases next with
    | deed step => exact ⟨sound.step step, tallied.done sound step⟩
    | gone _ aborted => exact ⟨sound, tallied.gone aborted⟩

theorem Trail.task_of_unasked (trail : Trail events present) (going : Going events generation)
    (unasked : present.lifecycle.stopRequested generation = false) :
    present.lifecycle.task = some generation := by
  obtain ⟨sound, tallied⟩ := trail.sound
  obtain ⟨positive, bound⟩ := tallied.launched generation going.1
  refine Decidable.byContradiction fun former => ?_
  obtain ⟨exit, ended⟩ := sound.machine.exists_end positive bound former
  rw [(tallied.going generation exit going ended).2] at unasked
  cases unasked

/-- Of all loops that were ever launched, at most one goes on without having been asked to stop,
and that is the loop of the present task. Every other loop has come to its end, or it was killed:
it was asked to stop, and aborted. Nothing cancels a token but a request to stop or a kill that is
aimed at its own generation, and they are aimed at the present task. -/
theorem unasked_loop_is_present (trail : Trail events present) :
    (∀ generation, Going events generation →
      present.lifecycle.stopRequested generation = false →
        present.lifecycle.task = some generation) ∧
    (∀ generation other, Going events generation → Going events other →
      present.lifecycle.stopRequested generation = false →
        present.lifecycle.stopRequested other = false → generation = other) ∧
    (∀ generation, Launched events generation → present.lifecycle.task ≠ some generation →
      Over events generation ∨ present.lifecycle.stopRequested generation = true ∧
        present.lifecycle.endOf generation = some .aborted) ∧
    ∀ event after generation, Next events present event after →
      (after.lifecycle.stopRequested generation = true ↔
        present.lifecycle.stopRequested generation = true ∨
          event.Targets present.lifecycle generation) ∧
      (event.Targets present.lifecycle generation →
        present.lifecycle.task = some generation) := by
  obtain ⟨sound, tallied⟩ := trail.sound
  refine ⟨fun generation => trail.task_of_unasked,
    fun generation other going also unasked open_ => ?_,
    fun generation launched former => ?_, fun event after generation next => ?_⟩
  · have task := trail.task_of_unasked going unasked
    rw [trail.task_of_unasked also open_] at task
    exact (Option.some.inj task).symm
  · obtain ⟨positive, bound⟩ := tallied.launched generation launched
    obtain ⟨exit, ended⟩ := sound.machine.exists_end positive bound former
    refine (Classical.em (Over events generation)).imp_right fun onward => ?_
    obtain ⟨rfl, asked⟩ := tallied.going generation exit ⟨launched, onward⟩ ended
    exact ⟨asked, ended⟩
  · cases next with
    | deed step => exact ⟨sound.stopRequested_iff step, sound.task_of_targets step⟩
    | gone => exact ⟨(or_iff_left id).symm, False.elim⟩

/-- A loop that outlives the grace of a stop and then a kill, while the next one goes on. -/
def outlived : List Event :=
  [.deed (.start (.ok 1)), .deed (.requestStop (.ok (some 1))), .deed (.wait stopGrace),
    .deed (.finishStop 1 (.error (.stopTimedOut (.ofMillis stopGrace)))), .deed .kill,
    .deed (.start (.ok 2))]

theorem unasked_loop_is_present_outlived :
    ∃ present, Trail outlived present ∧ Going outlived 1 ∧ Going outlived 2 ∧
      present.lifecycle.stopRequested 2 = false ∧ present.lifecycle.task = some 2 ∧
      present.lifecycle.stopRequested 1 = true ∧ present.lifecycle.endOf 1 = some .aborted := by
  have began := Trail.start.next (.deed (.start rfl) nofun)
  have asked := began.next (.deed (.requestStop rfl) nofun)
  have waited := asked.next (.deed (.wait _ stopGrace) nofun)
  have late := waited.next (.deed (@Step.giveUp _ 0 1 stopGrace rfl (by decide +kernel)) nofun)
  have killed := late.next (.deed (.kill _) nofun)
  have again := killed.next (.deed (.start rfl) nofun)
  have first : Going outlived 1 := by simp [Going, Launched, Over, Event.Ends, outlived]
  have second : Going outlived 2 := by simp [Going, Launched, Over, Event.Ends, outlived]
  obtain ⟨present, _, former, _⟩ := unasked_loop_is_present again
  have aborted := (former 1 first.1 (by decide)).resolve_left first.2
  exact ⟨_, again, first, second, rfl, present 2 second rfl, aborted⟩

end Shared
end ServiceHost
