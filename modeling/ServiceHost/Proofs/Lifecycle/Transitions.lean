import ServiceHost.Proofs.Lifecycle.Shared

/-! What a lifecycle announces.

From its creation on, a lifecycle in the hands of any number of callers announces one
path without a gap that ends in its present state. The moves of the path are moves of
the machine, but for the resets by kills.
-/

set_option autoImplicit false

namespace ServiceHost

/-- The transitions lead from one state to another, each from where the one before has led. -/
def Leads : State → List Transition → State → Prop
  | source, [], target => source = target
  | source, first :: rest, target => first.source = source ∧ Leads first.target rest target

/-- A change of state that the machine has, or that the reset by a kill may make. -/
def Transition.Lawful (transition : Transition) : Prop :=
  transition.source ≠ transition.target ∧
    if transition.forced then transition.target = .stopped
    else transition.source.allows transition.target = true

def Leads.decide : (source : State) → (transitions : List Transition) → (target : State) →
    Decidable (Leads source transitions target)
  | source, [], target => inferInstanceAs (Decidable (source = target))
  | source, first :: rest, target =>
    have := Leads.decide first.target rest target
    inferInstanceAs (Decidable (first.source = source ∧ Leads first.target rest target))

instance (source : State) (transitions : List Transition) (target : State) :
    Decidable (Leads source transitions target) := Leads.decide source transitions target

instance (transition : Transition) : Decidable transition.Lawful :=
  inferInstanceAs (Decidable (_ ∧ _))

theorem Leads.append {source middle target : State} {first second : List Transition}
    (start : Leads source first middle) (onward : Leads middle second target) :
    Leads source (first ++ second) target := by
  induction first generalizing source with
  | nil =>
    cases start
    exact onward
  | cons transition rest ih => exact ⟨start.1, ih start.2⟩

theorem State.leads_closing (state : State) : Leads state state.closing stopped := by
  cases state <;> decide

theorem State.leads_braking {state : State} (open_ : state ≠ stopped) :
    Leads state state.braking stopping := by
  cases state <;> first | exact absurd rfl open_ | decide

/-! ## What one section announces -/

/-- What was sent between two moments: a lawful path from the one state to the other, of which
every step was forced or none was. -/
def Announces (forced : Bool) (before after : Lifecycle) : Prop :=
  ∃ news, after.sent = before.sent ++ news ∧ Leads before.state news after.state ∧
    ∀ transition ∈ news, transition.Lawful ∧ transition.forced = forced

namespace Announces

variable {lifecycle : Lifecycle}

theorem silent {forced : Bool} {after : Lifecycle} (sent : after.sent = lifecycle.sent)
    (state : lifecycle.state = after.state) : Announces forced lifecycle after :=
  ⟨[], by simp [sent], state, fun _ member => (by cases member)⟩

/-- A start also announces the moves that a run left out which ended by itself. -/
theorem restarted (lifecycle : Lifecycle) : Announces false lifecycle lifecycle.restarted := by
  refine ⟨lifecycle.state.closing ++ [⟨.stopped, .starting, false⟩, ⟨.starting, .running, false⟩],
    by simp [Lifecycle.restarted], ?_, ?_⟩
  · exact lifecycle.state.leads_closing.append ⟨rfl, rfl, rfl⟩
  · cases lifecycle.state <;> decide

theorem braked (open_ : lifecycle.state ≠ .stopped) (generation : Nat) :
    Announces false lifecycle (lifecycle.braked generation) := by
  refine ⟨lifecycle.state.braking, rfl, State.leads_braking open_, ?_⟩
  cases state : lifecycle.state <;> first | exact absurd state open_ | decide

theorem released (stopping : lifecycle.state = .stopping) (exit : Exit) :
    Announces false lifecycle (lifecycle.released exit) :=
  ⟨[⟨.stopping, .stopped, false⟩], rfl, ⟨stopping.symm, rfl⟩, by decide⟩

theorem passed_paused (running : lifecycle.state = .running) :
    Announces false lifecycle (lifecycle.passed .pausing .paused true) :=
  ⟨_, rfl, ⟨rfl, rfl, rfl⟩, by rw [running]; decide⟩

theorem passed_running (paused : lifecycle.state = .paused) :
    Announces false lifecycle (lifecycle.passed .resuming .running false) :=
  ⟨_, rfl, ⟨rfl, rfl, rfl⟩, by rw [paused]; decide⟩

theorem killed (open_ : lifecycle.state ≠ .stopped) (generation : Nat) :
    Announces true lifecycle (lifecycle.killed generation) :=
  ⟨[⟨lifecycle.state, .stopped, true⟩], rfl, ⟨rfl, rfl⟩,
    fun _ member => by rw [List.mem_singleton.mp member]; exact ⟨⟨open_, rfl⟩, rfl⟩⟩

theorem kill (sound : lifecycle.Sound) : Announces true lifecycle lifecycle.kill := by
  rcases sound.kill_cases with ⟨_, equation⟩ | ⟨generation, task, equation⟩ <;> rw [equation]
  · exact silent rfl rfl
  · exact killed (sound.open_of_task task).1 generation

end Announces

namespace Shared

def Deed.forces : Deed → Bool
  | .kill => true
  | _ => false

/-- Only a kill forces a change of state. -/
theorem Sound.announces {shared after : Shared} {deed : Deed} (sound : shared.Sound)
    (step : Step shared deed after) :
    Announces deed.forces shared.lifecycle after.lifecycle := by
  have machine := sound.machine
  cases step with
  | start done =>
    rcases Lifecycle.start_cases done with ⟨_, _, rfl⟩ | ⟨_, _, rfl⟩
    · exact .silent rfl rfl
    · exact .restarted _
  | pause done =>
    rcases Lifecycle.pause_cases done with ⟨running, _, rfl⟩ | ⟨_, _, rfl⟩
    · exact .passed_paused running
    · exact .silent rfl rfl
  | resume done =>
    rcases Lifecycle.resume_cases done with ⟨paused, _, rfl⟩ | ⟨_, _, rfl⟩
    · exact .passed_running paused
    · exact .silent rfl rfl
  | requestStop done =>
    rcases machine.requestStop_cases done with ⟨_, _, rfl⟩ | ⟨generation, task, _, rfl⟩
    · exact .silent rfl rfl
    · exact .braked (machine.open_of_task task).1 generation
  | completeStop waits _ done =>
    have asked := sound.asked _ (List.mem_of_getElem? waits)
    rcases (machine.completeStop_cases asked done).2 with ⟨_, rfl⟩ | ⟨task, rfl⟩
    · exact .silent rfl rfl
    -- The request that this stop has made holds the machine in STOPPING for the same run.
    · obtain ⟨open_, rfl, _⟩ := machine.open_of_task task
      exact .released ((machine.stopping_iff open_).mpr asked) _
  | kill => exact .kill machine
  | giveUp | endRun | record | wait => exact .silent rfl rfl

/-- Whatever was sent so far is a lawful path from STOPPED to the present state. -/
theorem Run.announced {deeds : List Deed} {shared : Shared} (run : Run deeds shared) :
    Leads .stopped shared.lifecycle.sent shared.lifecycle.state ∧
      ∀ transition ∈ shared.lifecycle.sent, transition.Lawful := by
  induction run with
  | start => exact ⟨rfl, fun _ member => (by cases member)⟩
  | next run step ih =>
    obtain ⟨news, sent, path, lawful⟩ := run.sound.announces step
    rw [sent]
    refine ⟨ih.1.append path, fun transition member => ?_⟩
    rcases List.mem_append.mp member with old | new
    · exact ih.2 transition old
    · exact (lawful transition new).1

/-- In any run, the transitions sent from the creation on lead without a gap from STOPPED to the
present state. One that is not forced is a move of the machine between two states. One that is
forced goes to STOPPED from another state, and among the transitions of one section exactly those
of a kill are forced. -/
theorem sent_leads {deeds : List Deed} {shared : Shared} (run : Run deeds shared) :
    Leads .stopped shared.lifecycle.sent shared.lifecycle.state ∧
    (∀ transition ∈ shared.lifecycle.sent, transition.forced = false →
      transition.source ≠ transition.target ∧
        transition.source.allows transition.target = true) ∧
    (∀ transition ∈ shared.lifecycle.sent, transition.forced = true →
      transition.target = .stopped ∧ transition.source ≠ .stopped) ∧
    ∀ deed after, Step shared deed after →
      ∃ news, after.lifecycle.sent = shared.lifecycle.sent ++ news ∧
        ∀ transition ∈ news, (transition.forced = true ↔ deed = .kill) := by
  obtain ⟨path, lawful⟩ := run.announced
  refine ⟨path, ?_, ?_, ?_⟩
  · intro transition member free
    obtain ⟨changes, allowed⟩ := lawful transition member
    rw [free] at allowed
    exact ⟨changes, allowed⟩
  · intro transition member forced
    obtain ⟨changes, reset⟩ := lawful transition member
    rw [forced] at reset
    exact ⟨reset, fun stopped => changes (stopped.trans reset.symm)⟩
  · intro deed after step
    obtain ⟨news, sent, _, each⟩ := run.sound.announces step
    refine ⟨news, sent, fun transition member => ?_⟩
    rw [(each transition member).2]
    cases deed <;> simp [Deed.forces]

/-- A run that ends by itself while it is paused, one that is killed, and starts after both. -/
def revival : List Deed :=
  [.start (.ok 1), .pause (.ok ()), .endRun 1 .returned, .start (.ok 2), .kill, .start (.ok 3)]

theorem sent_leads_revival :
    ∃ shared, Run revival shared ∧ shared.lifecycle.state = .running ∧
      shared.lifecycle.sent.map Transition.forced =
        [false, false, false, false, false, false, false, false, true, false, false] ∧
      Leads .stopped shared.lifecycle.sent .running := by
  have first := Run.start.next (.start rfl)
  have paused := first.next (.pause rfl)
  have ended := paused.next (@Step.endRun _ 1 .fresh .returned rfl rfl (by decide))
  have second := ended.next (.start rfl)
  have killed := second.next (.kill _)
  have third := killed.next (.start rfl)
  exact ⟨_, third, rfl, rfl, (sent_leads third).1⟩

end Shared
end ServiceHost
