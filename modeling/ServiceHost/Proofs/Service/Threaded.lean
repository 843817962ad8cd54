import ServiceHost.Proofs.Lifecycle.Soundness
import ServiceHost.Proofs.Service.Runs
import ServiceHost.Service.Threaded

/-! Services with a run loop: what holds of them at any time, and what a call can do to them. -/

set_option autoImplicit false

namespace ServiceHost

/-- The generation of the run that goes on, if one does. -/
def Lifecycle.alive (lifecycle : Lifecycle) : List Nat :=
  lifecycle.task.toList.filter fun generation => !lifecycle.isFinished generation

namespace Lifecycle

variable {lifecycle : Lifecycle}

theorem alive_of_task_none (task : lifecycle.task = none) : lifecycle.alive = [] := by
  simp [alive, task]

theorem alive_of_isFinished {generation : Nat} (task : lifecycle.task = some generation)
    (ended : lifecycle.isFinished generation = true) : lifecycle.alive = [] := by
  simp [alive, task, ended]

theorem alive_of_not_isAlive (quiet : lifecycle.isAlive = false) : lifecycle.alive = [] := by
  cases task : lifecycle.task with
  | none => exact alive_of_task_none task
  | some generation =>
    simp only [isAlive, task, Bool.not_eq_false'] at quiet
    exact alive_of_isFinished task quiet

theorem Sound.alive_restarted (sound : lifecycle.Sound) :
    lifecycle.restarted.alive = [lifecycle.generations.issued + 1] := by
  have last : lifecycle.restarted.run? (lifecycle.generations.issued + 1) = some .fresh := by
    rw [run?_succ, Lifecycle.restarted, ← sound.runs_length, List.getElem?_concat_length]
  have fresh : lifecycle.restarted.isFinished (lifecycle.generations.issued + 1) = false := by
    rw [isFinished, last]
    rfl
  have task : lifecycle.restarted.task = some (lifecycle.generations.issued + 1) := rfl
  simp [alive, task, fresh]

theorem mem_alive {generation : Nat} :
    generation ∈ lifecycle.alive ↔
      lifecycle.task = some generation ∧ lifecycle.isFinished generation = false := by
  simp [alive]

theorem alive_length_le (lifecycle : Lifecycle) : lifecycle.alive.length ≤ 1 := by
  refine Nat.le_trans (List.length_filter_le ..) ?_
  cases lifecycle.task <;> simp

/-- Only a stop whose grace is over is told nothing. -/
theorem expires_le_of_stopAnswer {generation expires now : Nat}
    (told : lifecycle.stopAnswer generation expires now = some none) : expires ≤ now := by
  unfold stopAnswer Watched.answer at told
  split at told
  · split at told
    · cases told
    · split at told
      · assumption
      · cases told
  · cases told

/-- A stop that has no answer yet is within its grace. -/
theorem lt_expires_of_stopAnswer {generation expires now : Nat}
    (open_ : lifecycle.stopAnswer generation expires now = none) : now < expires := by
  unfold stopAnswer Watched.answer at open_
  split at open_
  · split at open_
    · cases open_
    · split at open_
      · cases open_
      · omega
  · cases open_

theorem isFinished_observe (generation other : Nat) :
    (lifecycle.updateRun generation Watched.observe).isFinished other =
      lifecycle.isFinished other := by
  unfold isFinished run? updateRun
  by_cases zero : other = 0
  · simp [zero]
  · simp only [if_neg zero, List.getElem?_modify]
    cases lifecycle.runs[other - 1]? with
    | none => rfl
    | some run => by_cases same : generation - 1 = other - 1 <;> simp [same]

end Lifecycle

namespace Threaded

variable {service after : Threaded} {now : Nat}

/-- What holds of a service at any time. -/
structure Sound (service : Threaded) : Prop where
  machine : service.lifecycle.Sound
  /-- The runs that have not ended are those of which the machine thinks so. -/
  live_eq : service.live.map Run.generation = service.lifecycle.alive
  follows : ∀ run ∈ service.live, run.Follows service.loop
  /-- A run that was killed was asked to stop. -/
  asked : ∀ generation ∈ service.dying, service.lifecycle.stopRequested generation = true

theorem sound_new (typeName version stamp : String) (loop : RunLoop) :
    (new typeName version stamp loop).Sound :=
  ⟨Lifecycle.sound_fresh, rfl, nofun, nofun⟩

namespace Sound

theorem live_of_alive (sound : service.Sound) (quiet : service.lifecycle.alive = []) :
    service.live = [] :=
  List.map_eq_nil_iff.mp (sound.live_eq.trans quiet)

/-- At most one run goes on, the present one. -/
theorem live_cases (sound : service.Sound) :
    service.live = [] ∨
      ∃ run, service.live = [run] ∧ service.lifecycle.task = some run.generation ∧
        service.lifecycle.isFinished run.generation = false := by
  have one := service.lifecycle.alive_length_le
  rw [← sound.live_eq, List.length_map] at one
  match live : service.live with
  | [] => exact .inl rfl
  -- The only run is the one that the machine has as its task.
  | [run] =>
    have member : run.generation ∈ service.lifecycle.alive := by
      rw [← sound.live_eq, live]
      exact List.mem_singleton.mpr rfl
    exact .inr ⟨run, rfl, Lifecycle.mem_alive.mp member⟩
  | _ :: _ :: _ =>
    rw [live, List.length_cons, List.length_cons] at one
    omega

theorem withLifecycle (sound : service.Sound) {lifecycle : Lifecycle} (machine : lifecycle.Sound)
    (same : lifecycle.alive = service.lifecycle.alive)
    (extends_ : service.lifecycle.Extends lifecycle) : Threaded.Sound { service with lifecycle } :=
  ⟨machine, sound.live_eq.trans same.symm, sound.follows,
    fun generation member => extends_.requested generation (sound.asked generation member)⟩

theorem withConfig (sound : service.Sound) (config : Properties) :
    Threaded.Sound { service with config } :=
  ⟨sound.machine, sound.live_eq, sound.follows, sound.asked⟩

end Sound

/-! ## What a call does to a service in one go -/

/-- A service under a run that has just begun. -/
def launched (service : Threaded) : Threaded :=
  { service with
    lifecycle := service.lifecycle.restarted
    live := service.live ++
      [Run.start service.loop (service.lifecycle.generations.issued + 1) service.config] }

/-- One go of a call: its query, how far it was, how far it is then, and the service then. -/
inductive Turn (service : Threaded) (now : Nat) : Query → Phase → Phase → Threaded → Prop where
  | launched :
      service.lifecycle.isAlive = false →
      Turn service now (.control .start) .fresh (.ended (.value (.ok .done))) service.launched
  | braked {generation : Nat} :
      service.lifecycle.task = some generation →
      Turn service now (.control .stop) .fresh (.stopping generation (now + stopGrace))
        { service with lifecycle := service.lifecycle.braked generation }
  | idle :
      service.lifecycle.task = none →
      Turn service now (.control .stop) .fresh (.ended (.value (.ok .done))) service
  | paused :
      service.lifecycle.state = .running →
      Turn service now (.control .pause) .fresh (.ended (.value (.ok .done)))
        { service with lifecycle := service.lifecycle.passed .pausing .paused true }
  | resumed :
      service.lifecycle.state = .paused →
      Turn service now (.control .resume) .fresh (.ended (.value (.ok .done)))
        { service with lifecycle := service.lifecycle.passed .resuming .running false }
  | refused {control : Control} {cause : LifecycleError} :
      control ≠ .stop →
      Turn service now (.control control) .fresh
        (.ended (.value (.error (.lifecycle cause)))) service
  | told :
      Turn service now .state .fresh (.ended (.value (.ok (.state service.lifecycle.state)))) service
  | named :
      Turn service now .instanceId .fresh (.ended (.value (.ok (.id service.id)))) service
  | released {query : Query} {generation expires : Nat} {exit : Exit} :
      service.lifecycle.task = some generation →
      service.lifecycle.isFinished generation = true →
      Turn service now query (.stopping generation expires) (.ended (.value (.ok .done)))
        { service with lifecycle := service.lifecycle.released exit }
  | outdone {query : Query} {generation expires : Nat} :
      service.lifecycle.task ≠ some generation →
      Turn service now query (.stopping generation expires) (.ended (.value (.ok .done))) service
  | outlived {query : Query} {generation expires : Nat} :
      expires ≤ now →
      Turn service now query (.stopping generation expires)
        (.ended (.value (.error (.lifecycle (.stopTimedOut (.ofMillis stopGrace)))))) service

theorem begin_turn (sound : service.Sound) {query : Query} {phase : Phase}
    (done : service.begin now query = (phase, after)) :
    service.Turn now query .fresh phase after := by
  cases query with
  | state => cases done; exact .told
  | instanceId => cases done; exact .named
  | control control =>
    cases control with
    | start =>
      cases section_ : service.lifecycle.locked Lifecycle.start with
      | mk answer lifecycle =>
        rcases Lifecycle.start_cases section_ with ⟨_, rfl, rfl⟩ | ⟨quiet, rfl, rfl⟩ <;>
          simp only [Threaded.begin, start, startWith, locked, section_] at done <;> cases done
        · exact .refused (by decide)
        · exact .launched quiet
    | stop =>
      cases section_ : service.lifecycle.locked Lifecycle.requestStop with
      | mk answer lifecycle =>
        rcases sound.machine.requestStop_cases section_ with ⟨task, rfl, rfl⟩ | ⟨_, task, rfl, rfl⟩ <;>
          simp only [Threaded.begin, locked, section_] at done <;> cases done
        · exact .idle task
        · exact .braked task
    | pause =>
      cases section_ : service.lifecycle.locked Lifecycle.pause with
      | mk answer lifecycle =>
        rcases Lifecycle.pause_cases section_ with ⟨running, rfl, rfl⟩ | ⟨_, rfl, rfl⟩ <;>
          simp only [Threaded.begin, locked, section_] at done <;> cases done
        · exact .paused running
        · exact .refused (by decide)
    | resume =>
      cases section_ : service.lifecycle.locked Lifecycle.resume with
      | mk answer lifecycle =>
        rcases Lifecycle.resume_cases section_ with ⟨paused, rfl, rfl⟩ | ⟨_, rfl, rfl⟩ <;>
          simp only [Threaded.begin, locked, section_] at done <;> cases done
        · exact .resumed paused
        · exact .refused (by decide)

theorem finishStop_turn (sound : service.Sound) {query : Query} {generation expires : Nat}
    {phase : Phase} (asked : service.lifecycle.stopRequested generation = true)
    (done : service.finishStop now generation expires = some (phase, after)) :
    service.Turn now query (.stopping generation expires) phase after := by
  unfold finishStop at done
  cases told : service.lifecycle.stopAnswer generation expires now with
  | none => simp [told] at done
  | some exit? =>
    cases exit? with
    | none =>
      simp only [told, Option.some.injEq] at done
      cases done
      exact .outlived (Lifecycle.expires_le_of_stopAnswer told)
    | some exit =>
      cases section_ : service.lifecycle.locked (Lifecycle.completeStop generation exit) with
      | mk answer lifecycle =>
        simp only [told, locked, section_, Option.some.injEq] at done
        have ended := sound.machine.isFinished_of_stopAnswer told
        obtain ⟨rfl, outcome⟩ := sound.machine.completeStop_cases asked section_
        rcases outcome with ⟨other, rfl⟩ | ⟨task, rfl⟩ <;> cases done
        · exact .outdone other
        · exact .released task ended

/-- What can happen in one go, given that a stop that waits has made its request. -/
theorem goOn_turn (sound : service.Sound) {query : Query} {before phase : Phase}
    (asked : ∀ generation expires, before = .stopping generation expires →
      service.lifecycle.stopRequested generation = true)
    (done : service.goOn now query before = some (phase, after)) :
    service.Turn now query before phase after := by
  unfold goOn at done
  split at done
  · exact begin_turn sound (Option.some.inj done)
  · exact finishStop_turn sound (asked _ _ rfl) done
  · cases done

theorem lt_expires_of_goOn {query : Query} {generation expires : Nat}
    (waits : service.goOn now query (.stopping generation expires) = none) : now < expires := by
  refine @Lifecycle.lt_expires_of_stopAnswer service.lifecycle generation expires now ?_
  simp only [goOn, finishStop] at waits
  split at waits
  · assumption
  · cases waits
  · cases waits

theorem Turn.extends {query : Query} {before phase : Phase} (sound : service.Sound)
    (turn : service.Turn now query before phase after) :
    service.lifecycle.Extends after.lifecycle := by
  cases turn with
  | launched => exact .restarted sound.machine
  | braked => exact .braked ..
  | paused | resumed => exact .passed ..
  | released => exact .released ..
  | idle | refused | told | named | outdone | outlived => exact .refl _

theorem Turn.sound {query : Query} {before phase : Phase} (sound : service.Sound)
    (turn : service.Turn now query before phase after) : after.Sound := by
  have machine := sound.machine
  have extends_ := turn.extends sound
  cases turn with
  | launched quiet =>
    -- A start is refused while a run is alive, so the new run is the only one.
    have none_live := sound.live_of_alive (Lifecycle.alive_of_not_isAlive quiet)
    refine ⟨machine.restarted quiet, ?_, fun run member => ?_,
      fun generation member => extends_.requested generation (sound.asked generation member)⟩
    · simp only [Threaded.launched, none_live, machine.alive_restarted]
      rfl
    · simp only [Threaded.launched, none_live, List.nil_append, List.mem_singleton] at member
      rw [member]
      exact Run.follows_start ..
  | braked task => exact sound.withLifecycle (machine.braked task) rfl extends_
  | paused running => exact sound.withLifecycle (machine.passed_paused running) rfl extends_
  | resumed paused => exact sound.withLifecycle (machine.passed_running paused) rfl extends_
  | released task ended =>
    exact sound.withLifecycle (machine.released _ task ended)
      (Lifecycle.alive_of_isFinished task ended).symm extends_
  | idle | refused | told | named | outdone | outlived => exact sound

/-- Only a start begins a run. -/
theorem Turn.issued {query : Query} {before phase : Phase}
    (turn : service.Turn now query before phase after) :
    query = .control .start ∧ (∃ stop, before = .fresh ∧ phase = .ended stop) ∧
        after.lifecycle.generations.issued = service.lifecycle.generations.issued + 1 ∨
      after.lifecycle.generations.issued = service.lifecycle.generations.issued := by
  cases turn with
  | launched => exact .inl ⟨rfl, ⟨_, rfl, rfl⟩, rfl⟩
  | braked => exact .inr (by simp [Lifecycle.braked])
  | paused | resumed | released | idle | refused | told | named | outdone | outlived =>
    exact .inr rfl

theorem Turn.dying {query : Query} {before phase : Phase}
    (turn : service.Turn now query before phase after) : after.dying = service.dying := by
  cases turn <;> rfl

theorem Turn.loop {query : Query} {before phase : Phase}
    (turn : service.Turn now query before phase after) : after.loop = service.loop := by
  cases turn <;> rfl

/-- A call is over after one go, except for a stop that waits. -/
theorem Turn.phase_cases {query : Query} {before phase : Phase}
    (turn : service.Turn now query before phase after) :
    (∃ reply, phase = .ended (.value reply)) ∨
      ∃ generation, phase = .stopping generation (now + stopGrace) ∧ before = .fresh := by
  cases turn with
  | braked => exact .inr ⟨_, rfl, rfl⟩
  | launched | idle | paused | resumed | refused | told | named | released | outdone | outlived =>
    exact .inl ⟨_, rfl⟩

/-- A stop waits only for a run that it has asked to stop. -/
theorem Turn.asks {query : Query} {before : Phase} {generation expires : Nat}
    (turn : service.Turn now query before (.stopping generation expires) after) :
    after.lifecycle.stopRequested generation = true := by
  cases turn with
  | braked =>
    simp [Lifecycle.braked, Lifecycle.stopRequested, Generations.stopRequested_requestStop]

theorem Turn.task_none {query : Query} {before phase : Phase}
    (turn : service.Turn now query before phase after)
    (same : after.lifecycle.generations.issued = service.lifecycle.generations.issued)
    (task : service.lifecycle.task = none) : after.lifecycle.task = none := by
  cases turn with
  | launched => exact absurd same (Nat.succ_ne_self _)
  | braked | paused | resumed | idle | refused | told | named | outdone | outlived => exact task
  | released => rfl

/-! ## What a service does by itself -/

/-- A run goes on or ends, one that was killed is dropped, or a watcher looks. The watcher of a run
has nothing to see before the run is dropped. -/
inductive Stir (service : Threaded) : Threaded → Prop where
  | on {place : Nat} {run next : Run} (count : Nat) (shown : List Sighting) :
      service.live[place]? = some run → run.Continues next →
      Stir service { service with count, shown, live := service.live.set place next }
  | ended {place : Nat} {run : Run} (exit : Exit) (count : Nat) (shown : List Sighting) :
      service.live[place]? = some run →
      Stir service { service with
        count
        shown
        live := service.live.eraseIdx place
        lifecycle := service.lifecycle.endRun run.generation exit }
  | reaped {place : Nat} :
      place < service.dying.length → Stir service (service.reap place)
  | record {generation : Nat} :
      0 < generation → generation ∉ service.dying →
      Stir service
        { service with lifecycle := service.lifecycle.updateRun generation Watched.observe }

/-- Lets the run in a place go on, if it can. -/
def go? (service : Threaded) (now : Nat) (closed : Bool) (place : Nat) : Option Threaded :=
  (service.live[place]?).bind (service.goAt? now closed place)

/-- Drops a run that was killed, if there is one in the place. -/
def reap? (service : Threaded) (place : Nat) : Option Threaded :=
  if place < service.dying.length then some (service.reap place) else none

/-- Lets the watcher of a run look, unless the run is still to be dropped. -/
def look? (service : Threaded) (generation : Nat) : Option Threaded :=
  if generation = 0 ∨ generation ∈ service.dying then none
  else some { service with
    lifecycle := service.lifecycle.updateRun generation Watched.observe }

theorem reap?_eq_some {place : Nat} (done : service.reap? place = some after) :
    place < service.dying.length ∧ after = service.reap place := by
  obtain ⟨bound, equation⟩ := Option.ite_none_right_eq_some.mp done
  exact ⟨bound, (Option.some.inj equation).symm⟩

theorem look?_eq_some {generation : Nat} (done : service.look? generation = some after) :
    0 < generation ∧ generation ∉ service.dying ∧ after = { service with
      lifecycle := service.lifecycle.updateRun generation Watched.observe } := by
  obtain ⟨other, equation⟩ := Option.ite_none_left_eq_some.mp done
  obtain ⟨positive, settled⟩ := not_or.mp other
  exact ⟨Nat.pos_of_ne_zero positive, settled, (Option.some.inj equation).symm⟩

theorem reap?_stir {place : Nat} (done : service.reap? place = some after) : service.Stir after := by
  obtain ⟨bound, rfl⟩ := reap?_eq_some done
  exact .reaped bound

theorem look?_stir {generation : Nat} (done : service.look? generation = some after) :
    service.Stir after := by
  obtain ⟨positive, settled, rfl⟩ := look?_eq_some done
  exact .record positive settled

theorem goAt?_stir {closed : Bool} {place : Nat} {run : Run}
    (there : service.live[place]? = some run)
    (done : service.goAt? now closed place run = some after) : service.Stir after := by
  obtain ⟨⟨outcome, counted, shown⟩, goes, rfl⟩ := Option.map_eq_some_iff.mp done
  cases outcome with
  | ok next => exact .on _ _ there (Run.continues_of_go? goes rfl)
  | error exit => exact .ended exit _ _ there

theorem go?_stir {closed : Bool} {place : Nat} (done : service.go? now closed place = some after) :
    service.Stir after := by
  obtain ⟨_, there, goes⟩ := Option.bind_eq_some_iff.mp done
  exact goAt?_stir there goes

theorem step?_cases {closed : Bool} (step : service.step? now closed = some after) :
    service.reap? 0 = some after ∨
      (∃ place run, service.live[place]? = some run ∧
        service.goAt? now closed place run = some after) ∨
      ∃ generation watched, service.lifecycle.run? generation = some watched ∧
        watched.unseen = true ∧ service.look? generation = some after := by
  unfold Threaded.step? at step
  split at step
  · rename_i dying
    exact .inl ((if_pos (List.length_pos_iff.mpr (by simpa using dying))).trans step)
  rename_i settled
  have none_dying : service.dying = [] := by simpa using settled
  split at step
  · rename_i next chosen
    cases step
    obtain ⟨⟨run, place⟩, member, goes⟩ := List.exists_of_findSome?_eq_some chosen
    exact .inr (.inl ⟨place, run, List.mk_mem_zipIdx_iff_getElem?.mp member, goes⟩)
  · obtain ⟨lifecycle, recorded, rfl⟩ := Option.map_eq_some_iff.mp step
    obtain ⟨index, found, rfl⟩ := Option.map_eq_some_iff.mp recorded
    obtain ⟨bound, unseen, _⟩ := List.findIdx?_eq_some_iff_getElem.mp found
    have here := (Lifecycle.run?_succ index).trans (List.getElem?_eq_getElem bound)
    exact .inr (.inr ⟨index + 1, _, here, unseen, by simp [look?, none_dying, Lifecycle.updateRun]⟩)

/-- While nothing is ready, nothing is left to be dropped. -/
theorem dying_eq_nil_of_step? {closed : Bool} (quiet : service.step? now closed = none) :
    service.dying = [] := by
  unfold Threaded.step? at quiet
  split at quiet
  · cases quiet
  · rename_i settled
    simpa using settled

theorem Stir.extends (sound : service.Sound) (stir : service.Stir after) :
    service.lifecycle.Extends after.lifecycle := by
  cases stir with
  | on => exact .refl _
  | ended exit count shown there =>
    rename_i place run
    have member : run.generation ∈ service.lifecycle.alive := by
      rw [← sound.live_eq]
      exact List.mem_map_of_mem (List.mem_of_getElem? there)
    have positive := (sound.machine.open_of_task (Lifecycle.mem_alive.mp member).1).2.2
    exact .updateRun _ positive fun _ => Watched.isFinished_of_finish _
  | reaped => exact .refl _
  | record positive => exact .updateRun _ positive fun run ended => by simpa using ended

theorem Stir.sound (sound : service.Sound) (stir : service.Stir after) : after.Sound := by
  have extends_ := stir.extends sound
  cases stir with
  | on count shown there same =>
    rename_i place run next
    refine ⟨sound.machine, ?_, fun other member => ?_, sound.asked⟩
    · obtain ⟨bound, here⟩ := List.getElem?_eq_some_iff.mp there
      have mapped : place < (service.live.map Run.generation).length := by simpa using bound
      have generation : next.generation = (service.live.map Run.generation)[place] := by
        rw [List.getElem_map, here, same.generation]
      rw [List.map_set, generation, List.set_getElem_self]
      exact sound.live_eq
    · rcases List.mem_or_eq_of_mem_set member with old | rfl
      · exact sound.follows other old
      · exact (sound.follows run (List.mem_of_getElem? there)).continues same
  | ended exit count shown there =>
    rename_i place run
    rcases sound.live_cases with none_live | ⟨only, live, task, _⟩
    · rw [none_live] at there
      cases there
    · obtain ⟨rfl, rfl⟩ : place = 0 ∧ run = only := by
        rw [live] at there
        cases place with
        | zero => exact ⟨rfl, (Option.some.inj there).symm⟩
        | succ _ => cases there
      have positive := (sound.machine.open_of_task task).2.2
      refine ⟨sound.machine.endRun positive exit, ?_, fun other member => ?_,
        fun generation member => extends_.requested generation (sound.asked generation member)⟩
      · have ended : (service.lifecycle.endRun run.generation exit).alive = [] :=
          Lifecycle.alive_of_isFinished task
            (Lifecycle.isFinished_updateRun_self positive fun run => run.isFinished_finish exit)
        simp [live, ended]
      · rw [live] at member
        cases member
  | reaped =>
    exact ⟨sound.machine, sound.live_eq, sound.follows, fun generation member =>
      sound.asked generation (List.mem_of_mem_eraseIdx member)⟩
  | record positive =>
    refine sound.withLifecycle (sound.machine.observe positive) ?_ extends_
    unfold Lifecycle.alive
    simp only [Lifecycle.isFinished_observe]
    rfl

/-- The state of the machine, its task and its generations are not for a run to change. -/
theorem Stir.machine (stir : service.Stir after) :
    after.lifecycle.state = service.lifecycle.state ∧
      after.lifecycle.task = service.lifecycle.task ∧
      after.lifecycle.generations = service.lifecycle.generations ∧
      after.loop = service.loop := by
  cases stir <;> exact ⟨rfl, rfl, rfl, rfl⟩

theorem Stir.dying_eq_nil (stir : service.Stir after) (whole : service.dying = []) :
    after.dying = [] := by
  cases stir with
  | on | ended | record => exact whole
  | reaped => simp [Threaded.reap, whole]

/-! ## Forced end -/

theorem task_kill (sound : service.Sound) : service.kill.lifecycle.task = none := by
  change service.lifecycle.kill.task = none
  rcases sound.machine.kill_cases with ⟨task, equation⟩ | ⟨_, _, equation⟩ <;> rw [equation]
  · exact task
  · rfl

theorem issued_kill (sound : service.Sound) :
    service.kill.lifecycle.generations.issued = service.lifecycle.generations.issued := by
  change service.lifecycle.kill.generations.issued = service.lifecycle.generations.issued
  rcases sound.machine.kill_cases with ⟨_, equation⟩ | ⟨_, _, equation⟩ <;> rw [equation]
  · rfl
  · simp [Lifecycle.killed]

theorem live_kill (sound : service.Sound) : service.kill.live = [] := by
  refine List.filter_eq_nil_iff.mpr fun run _ => ?_
  -- After a kill there is no task, and all runs but that of the task have ended.
  have ended : service.lifecycle.kill.isFinished run.generation = true :=
    sound.machine.kill.former run.generation fun present => by
      rw [show service.lifecycle.kill.task = none from task_kill sound] at present
      cases present
  simp [ended]

theorem Sound.kill (sound : service.Sound) : service.kill.Sound := by
  refine ⟨sound.machine.kill, ?_, fun run member => ?_, fun generation member => ?_⟩
  · rw [live_kill sound, Lifecycle.alive_of_task_none (task_kill sound)]
    rfl
  · rw [live_kill sound] at member
    cases member
  · rcases List.mem_append.mp member with earlier | aborted
    · exact (Lifecycle.Extends.kill sound.machine).requested generation
        (sound.asked generation earlier)
    · obtain ⟨run, listed, rfl⟩ := List.mem_map.mp aborted
      have alive : run.generation ∈ service.lifecycle.alive :=
        sound.live_eq ▸ List.mem_map_of_mem (List.mem_filter.mp listed).1
      exact sound.machine.asked_kill (Lifecycle.mem_alive.mp alive).1

/-- A service whose machine has no task rests, and none of its runs is alive. -/
theorem Sound.rests (sound : service.Sound) (task : service.lifecycle.task = none) :
    service.lifecycle.state = .stopped ∧ service.live = [] ∧
      ∀ generation, service.lifecycle.isFinished generation = true :=
  ⟨sound.machine.stopped_of_task task,
    sound.live_of_alive (Lifecycle.alive_of_task_none task),
    fun generation => sound.machine.former generation fun present => by
      rw [task] at present
      cases present⟩

end Threaded
end ServiceHost
