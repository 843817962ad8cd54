import ServiceHost.Proofs.Service.Threaded

/-! What a stop leaves of a service with a run loop. -/

set_option autoImplicit false

namespace ServiceHost.Threaded

variable {service after : Threaded} {now : Nat}

/-- Whether the runs of a service look at a request to stop wherever they wait. -/
def Heedful (service : Threaded) : Prop := ∀ config, (service.loop config).heedful = true

/-- A service that has been stopped: a run that has not ended was asked to, and if runs heed such
requests none is left. -/
structure Over (service : Threaded) : Prop where
  asked : ∀ generation, service.lifecycle.task = some generation →
    service.lifecycle.isFinished generation = true ∨
      service.lifecycle.stopRequested generation = true
  ended : service.Heedful → service.live = []

/-- A service whose stop waits for the end of a run. If the run heeds the request, no time
passes. -/
structure Ending (service : Threaded) (generation expires now : Nat) : Prop where
  task : service.lifecycle.task = some generation
  asked : service.lifecycle.stopRequested generation = true
  waits : service.Heedful → service.live ≠ [] → now + stopGrace ≤ expires

theorem Sound.over_of_not_isAlive (sound : service.Sound)
    (quiet : service.lifecycle.isAlive = false) : service.Over := by
  constructor
  · intro generation task
    simp only [Lifecycle.isAlive, task, Bool.not_eq_false'] at quiet
    exact .inl quiet
  · intro _
    exact sound.live_of_alive (Lifecycle.alive_of_not_isAlive quiet)

theorem Sound.over_of_task_none (sound : service.Sound) (task : service.lifecycle.task = none) :
    service.Over := by
  apply sound.over_of_not_isAlive
  simp [Lifecycle.isAlive, task]

/-- All generations have ended or were asked to, not only the present one. -/
theorem Sound.asked_of_over (sound : service.Sound) (stopped : service.Over) (generation : Nat) :
    service.lifecycle.isFinished generation = true ∨
      service.lifecycle.stopRequested generation = true := by
  by_cases task : service.lifecycle.task = some generation
  · exact stopped.asked generation task
  · exact .inl (sound.machine.former generation task)

/-- Without a launch, the present run stays the present run or is gone. -/
theorem Turn.task_cases {query : Query} {before phase : Phase}
    (turn : service.Turn now query before phase after)
    (same : after.lifecycle.generations.issued = service.lifecycle.generations.issued) :
    after.lifecycle.task = none ∨ after.lifecycle.task = service.lifecycle.task := by
  cases turn with
  | launched => exact absurd same (Nat.succ_ne_self _)
  | released => exact .inl rfl
  | braked | idle | paused | resumed | refused | told | named | outdone | outlived => exact .inr rfl

theorem Turn.live {query : Query} {before phase : Phase}
    (turn : service.Turn now query before phase after)
    (same : after.lifecycle.generations.issued = service.lifecycle.generations.issued) :
    after.live = service.live := by
  cases turn with
  | launched => exact absurd same (Nat.succ_ne_self _)
  | released | braked | idle | paused | resumed | refused | told | named | outdone | outlived => rfl

theorem Turn.count {query : Query} {before phase : Phase}
    (turn : service.Turn now query before phase after) : after.count = service.count := by
  cases turn <;> rfl

theorem Turn.not_paused {query : Query} {before phase : Phase}
    (turn : service.Turn now query before phase after) (other : query ≠ .control .pause)
    (awake : service.lifecycle.state ≠ .paused) : after.lifecycle.state ≠ .paused := by
  cases turn with
  | paused => exact absurd rfl other
  | launched | braked | resumed | released => exact fun state => by cases state
  | idle | refused | told | named | outdone | outlived => exact awake

theorem heedful_of_loop (same : after.loop = service.loop) (heedful : after.Heedful) :
    service.Heedful := by
  unfold Heedful at heedful
  rwa [same] at heedful

theorem asked_of_extends (sound : service.Sound)
    (extends_ : service.lifecycle.Extends after.lifecycle) {generation : Nat}
    (task : service.lifecycle.task = some generation)
    (asked : service.lifecycle.isFinished generation = true ∨
      service.lifecycle.stopRequested generation = true) :
    after.lifecycle.isFinished generation = true ∨
      after.lifecycle.stopRequested generation = true := by
  have last := (sound.machine.open_of_task task).2.1
  rcases asked with ended | requested
  · exact .inl (extends_.finished generation (Nat.le_of_eq last) ended)
  · exact .inr (extends_.requested generation requested)

theorem Turn.keeps_over {query : Query} {before phase : Phase} (sound : service.Sound)
    (turn : service.Turn now query before phase after) (other : query ≠ .control .start)
    (stopped : service.Over) : after.Over := by
  -- Without a start there is no launch, and without a launch nothing comes alive.
  have same := turn.issued.resolve_left fun launch => other launch.1
  constructor
  · intro generation task
    rcases turn.task_cases same with gone | kept
    · cases gone.symm.trans task
    · have earlier := kept.symm.trans task
      exact asked_of_extends sound (turn.extends sound) earlier (stopped.asked generation earlier)
  · intro heedful
    rw [turn.live same]
    exact stopped.ended (heedful_of_loop turn.loop heedful)

theorem Stir.live_nil (stir : service.Stir after) (quiet : service.live = []) :
    after.live = [] ∧ after.count = service.count := by
  cases stir with
  | on _ _ there | ended _ _ _ there =>
    rw [quiet] at there
    cases there
  | reaped | record => exact ⟨quiet, rfl⟩

theorem Stir.keeps_over (sound : service.Sound) (stir : service.Stir after) (stopped : service.Over) :
    after.Over := by
  obtain ⟨_, task, _, loop⟩ := stir.machine
  constructor
  · intro generation present
    have earlier := task.symm.trans present
    exact asked_of_extends sound (stir.extends sound) earlier (stopped.asked generation earlier)
  · intro heedful
    exact (stir.live_nil (stopped.ended (heedful_of_loop loop heedful))).1

theorem Stir.ending {generation expires : Nat} (sound : service.Sound) (stir : service.Stir after)
    (ending : service.Ending generation expires now) : after.Ending generation expires now := by
  obtain ⟨_, task, _, loop⟩ := stir.machine
  refine ⟨task.trans ending.task, (stir.extends sound).requested _ ending.asked,
    fun heedful alive => ending.waits (heedful_of_loop loop heedful) fun quiet => alive ?_⟩
  exact (stir.live_nil quiet).1

/-- A run that heeds stops is ready while the service waits for its end. -/
theorem Ending.ready {generation expires : Nat} (sound : service.Sound)
    (ending : service.Ending generation expires now) (heedful : service.Heedful)
    (alive : service.live ≠ []) (instant : Nat) (closed : Bool) :
    service.step? instant closed ≠ none := by
  rcases sound.live_cases with quiet | ⟨run, live, task, _⟩
  · exact absurd quiet alive
  -- The run that is alive is the one that the stop waits for, so it was asked to stop.
  · cases ending.task.symm.trans task
    have member : run ∈ service.live := live ▸ List.mem_singleton.mpr rfl
    have ready : (run.go? instant (service.signals closed run.generation)).isSome = true :=
      Run.ready_of_stop ending.asked ((sound.follows run member).heedful heedful)
    obtain ⟨go, goes⟩ := Option.isSome_iff_exists.mp ready
    unfold Threaded.step?
    split
    · exact Option.some_ne_none _
    · simp [live, goAt?, goes]

theorem Turn.begins_stop {phase : Phase} (sound : service.Sound)
    (turn : service.Turn now (.control .stop) .fresh phase after) :
    (∃ generation, phase = .stopping generation (now + stopGrace) ∧
      after.Ending generation (now + stopGrace) now) ∨
    phase = .ended (.value (.ok .done)) ∧ after.Over := by
  cases turn with
  | @braked generation task =>
    have begun : service.Turn now (.control .stop) .fresh (.stopping generation (now + stopGrace)) _ :=
      .braked task
    exact .inl ⟨generation, rfl, task, begun.asks, fun _ _ => Nat.le_refl _⟩
  | idle task => exact .inr ⟨rfl, sound.over_of_task_none task⟩
  | refused other => exact absurd rfl other

/-- A stop that has waited leaves the service stopped, whatever it answers. -/
theorem Turn.ends_stop {query : Query} {generation expires : Nat} {phase : Phase}
    (sound : service.Sound) (ending : service.Ending generation expires now)
    (turn : service.Turn now query (.stopping generation expires) phase after) :
    (∃ answer, phase = .ended (.value answer)) ∧ after.Over := by
  have after_sound := turn.sound sound
  cases turn with
  | released => exact ⟨⟨_, rfl⟩, after_sound.over_of_task_none rfl⟩
  | outdone other => exact absurd ending.task other
  -- A run that heeds stops ends before time passes, so that none has outlived its grace.
  | outlived late =>
    refine ⟨⟨_, rfl⟩, fun other task => ?_, fun heedful => ?_⟩
    · cases ending.task.symm.trans task
      exact .inr ending.asked
    · refine Classical.byContradiction fun alive => ?_
      have waits := ending.waits heedful alive
      have grace : 0 < stopGrace := by decide
      omega

end ServiceHost.Threaded
