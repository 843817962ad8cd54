import ServiceHost.Proofs.Host.Prompt
import ServiceHost.Service.Builtin

/-! What a kill leaves of a service.

Every call has a hold of its own on the service, from the moment at which it is made. A kill aborts
the present run, which is dropped some time later, and cuts the service off from all later calls.
Starts that were under way before still begin a run each; without them the service stays STOPPED.
-/

set_option autoImplicit false

namespace ServiceHost

def Phase.isFresh : Phase → Bool
  | fresh => true
  | _ => false

theorem Phase.eq_fresh {phase : Phase} (fresh : phase.isFresh = true) : phase = .fresh := by
  cases phase with
  | fresh => rfl
  | planned | stopping | ended => cases fresh

/-- Whether a call is a start of the service that has not begun. -/
def Body.starts (id : ServiceId) (body : Body) : Bool :=
  body.service == id && body.query == .control .start && body.phase.isFresh

theorem Service.not_fresh {service after : Service} {now : Nat} {query : Query}
    {before phase : Phase} (goes : service.goOn now query before = some (phase, after)) :
    phase.isFresh = false := by
  cases service with
  | threaded service =>
    obtain ⟨⟨turned, next⟩, went, equation⟩ := Option.map_eq_some_iff.mp goes
    cases equation
    unfold Threaded.goOn at went
    split at went
    · rcases query with (_ | _ | _ | _) | _ | _ <;> simp only [Threaded.begin] at went
      case control.stop => split at went <;> cases went <;> rfl
      all_goals cases went; rfl
    · unfold Threaded.finishStop at went
      split at went <;> cases went <;> rfl
    · cases went
  | scripted service =>
    obtain ⟨⟨turned, next⟩, went, equation⟩ := Option.map_eq_some_iff.mp goes
    cases equation
    unfold Scripted.goOn at went
    split at went
    · cases went
      rfl
    · split at went <;> cases went
      rfl
    · cases went

namespace System

/-- The starts of a service that are under way and have not begun. -/
def pending (system : System Answer) (id : ServiceId) : Nat :=
  system.executor.bodies.countP (Body.starts id)

variable {before after : System Answer} {stages later : Nat → Option Stage} {event : Event}
  {id : ServiceId} {server : ServerId}

theorem pending_arrived_le (system : System Answer) (host : Host) {halt : Halt}
    (elsewhere : ∀ service stage, halt = .waits service stage → service ≠ id) :
    (system.arrived host halt).pending id ≤ system.pending id := by
  cases halt with
  | ended => exact Nat.le_refl _
  | waits service stage =>
    have other : (service == id) = false := by simpa using elsewhere service stage rfl
    have counted := system.executor.countP_submit (Body.starts id) system.now stage.query.operation
      callDeadline ⟨service, stage.query, .fresh⟩
    rw [Body.starts, other] at counted
    exact Nat.le_of_eq counted

/-- No start of a service comes under way once nobody holds it. -/
theorem Step.pending_le (step : before.Step stages event after later)
    (abandoned : after.host.Abandoned later id) : after.pending id ≤ before.pending id := by
  cases step with
  | launch part =>
    refine pending_arrived_le before _ fun service stage halts => ?_
    rintro rfl
    subst halts
    -- A new call goes to a service that somebody holds.
    rcases part.calls_held with wraps | ⟨server, held⟩
    · refine abandoned.held (.procedure before.procedures.length) ?_
      simp [Host.holds, Halt.stage?, wraps]
    · exact abandoned.held (.server server) (by simpa [Host.holds] using held)
  | resume _ _ _ part =>
    refine pending_arrived_le (before.answered _) _ fun service stage halts => ?_
    rintro rfl
    subst halts
    obtain ⟨server, held⟩ := part.calls_held
    exact abandoned.held (.server server) (by simpa [Host.holds] using held)
  | @serve place call service next phase there served goes =>
    cases phase with
    | ended ending => exact before.executor.countP_finish_le ..
    | fresh | planned | stopping =>
      refine before.executor.countP_continueWith_le _ ?_
      rw [Body.starts, Service.not_fresh goes, Bool.and_false]
  | expire => exact before.executor.countP_expire_le ..
  | stir | take | drop | wait => exact Nat.le_refl _

/-- A start that launches a run is no longer to come. -/
theorem pending_lt_of_launch {call : Running Body} {ending : Ending (Except ServiceError Reply)}
    (member : call ∈ before.executor.running) (start : call.work = ⟨id, .control .start, .fresh⟩)
    (moves : after.executor = moved before.executor call (.ended ending)) :
    after.pending id < before.pending id := by
  rw [pending, moves]
  refine before.executor.countP_finish_lt _ ending member ?_
  rw [start]
  simp [Body.starts, Phase.isFresh]

/-- A service that nobody holds, from some moment on: how many runs had been launched then, and
how many there can ever be. -/
structure Spent (id : ServiceId) (launches limit : Nat) (system : System Answer)
    (stages : Nat → Option Stage) : Prop where
  sound : system.Sound
  abandoned : system.host.Abandoned stages id
  service : ∃ service, system.host.service? id = some (.threaded service) ∧
    launches ≤ service.lifecycle.generations.issued ∧
    service.lifecycle.generations.issued + system.pending id ≤ limit ∧
    (service.lifecycle.generations.issued = launches → service.lifecycle.task = none)

theorem Step.spent {launches limit : Nat} (step : before.Step stages event after later)
    (spent : Spent id launches limit before stages) : Spent id launches limit after later := by
  have abandoned := step.abandoned spent.abandoned
  have pending := step.pending_le abandoned
  obtain ⟨service, found, since, bounded, idle⟩ := spent.service
  -- A launch takes one from the starts that are to come, so that the sum does not grow.
  obtain ⟨next, there, effect⟩ := step.effect spent.sound found
  refine ⟨step.sound spent.sound, abandoned, next, there, ?_⟩
  cases effect with
  | same => exact ⟨since, by omega, idle⟩
  | killed held | configured _ held => exact absurd held (spent.abandoned.held _)
  | @turned call phase _ member own turn moves =>
    rcases turn.issued with ⟨query, ⟨ending, fresh, rfl⟩, issued⟩ | issued
    · have start : call.work = ⟨id, .control .start, .fresh⟩ := by
        rw [← own, ← query, ← fresh]
      have fewer := pending_lt_of_launch member start moves
      exact ⟨by omega, by omega, fun same => by omega⟩
    · refine ⟨by omega, by omega, fun same => turn.task_none issued (idle ?_)⟩
      omega
  | stirred stir =>
    obtain ⟨_, task, generations, _⟩ := stir.machine
    rw [task, generations]
    exact ⟨since, by omega, idle⟩

/-- A server lets go of its service only by tearing it down. -/
theorem Step.torn (step : before.Step stages event after later)
    (held : before.host.serviceOf server = some id) (killed : after.host.serviceOf server = none) :
    after.host.service? id = (before.host.service? id).map Service.kill := by
  cases step with
  | launch part =>
    rw [host_arrived] at killed ⊢
    rcases part.deals.lost server id held with kept | ⟨_, torn⟩
    · cases kept.symm.trans killed
    · exact torn
  | resume _ _ _ part =>
    rw [host_arrived] at killed ⊢
    rcases part.deals.lost server id held with kept | ⟨_, torn⟩
    · cases kept.symm.trans killed
    · exact torn
  | serve | stir | expire | take | drop | wait => cases held.symm.trans killed

/-- Nobody but the server that is killed has held its service. -/
theorem Step.abandons (step : before.Step stages event after later)
    (owned : before.host.Owned stages) (held : before.host.serviceOf server = some id)
    (killed : after.host.serviceOf server = none) : after.host.Abandoned later id := by
  have mine : before.host.holds stages id (.server server) := held
  have made := owned.bound id _ mine
  obtain ⟨place, origin⟩ := step.origin
  refine ⟨Nat.lt_of_lt_of_le made step.services_le, fun holder holds => ?_⟩
  cases origin id holder holds with
  | kept other =>
    cases owned.sole _ _ _ mine other
    cases killed.symm.trans holds
  | passed other => cases owned.sole _ _ _ mine other
  | made new => exact absurd new (Nat.ne_of_lt made)

/-- After a kill, a service launches no more runs than starts of it were under way. Until one of
them does, it is STOPPED, and of its runs only those are left that were killed and so asked to stop,
and that are still to be dropped. Once nothing is ready, none is left. -/
theorem launches_after_kill {host : Host} {capacity : Nat} {past events : List Event}
    {last : System Answer} {service : Threaded} (unused : host.Unused)
    (reaches : Reaches (.start host capacity) past before)
    (held : before.host.serviceOf server = some id)
    (found : before.host.service? id = some (.threaded service))
    (done : before.after? event = some after) (killed : after.host.serviceOf server = none)
    (runs : after.runs? events = some last) :
    ∃ final, last.host.service? id = some (.threaded final) ∧
      service.lifecycle.generations.issued ≤ final.lifecycle.generations.issued ∧
      final.lifecycle.generations.issued ≤
        service.lifecycle.generations.issued + before.pending id ∧
      (final.lifecycle.generations.issued = service.lifecycle.generations.issued →
        final.lifecycle.state = .stopped ∧ final.live = [] ∧
          (∀ generation ∈ final.dying, final.lifecycle.stopRequested generation = true) ∧
          (last.step? = none → final.dying = [] ∧
            ∀ generation, final.lifecycle.isFinished generation = true)) := by
  obtain ⟨stages, trail⟩ := reaches_iff_trail.mp reaches
  obtain ⟨sound, owned⟩ := trail.sound unused
  obtain ⟨later, step⟩ := trail.tracks.exists_step done
  have own := sound.threaded _ _ found
  have torn := step.torn held killed
  have abandoned := step.abandons owned held killed
  rw [found] at torn
  -- The kill itself begins no start and launches nothing.
  have spent : Spent id service.lifecycle.generations.issued
      (service.lifecycle.generations.issued + before.pending id) after later := by
    refine ⟨step.sound sound, abandoned, service.kill, torn, ?_⟩
    rw [Threaded.issued_kill own]
    have pending := step.pending_le abandoned
    exact ⟨Nat.le_refl _, by omega, fun _ => Threaded.task_kill own⟩
  obtain ⟨_, _, spent⟩ := (trail.next done step).onward runs spent fun _ _ step => step.spent
  obtain ⟨final, there, since, bounded, idle⟩ := spent.service
  refine ⟨final, there, since, by omega, fun same => ?_⟩
  have sound := spent.sound.threaded _ _ there
  obtain ⟨state, live, finished⟩ := sound.rests (idle same)
  refine ⟨state, live, sound.asked, fun quiet => ⟨?_, finished⟩⟩
  exact Threaded.dying_eq_nil_of_step? (not_lively quiet there)

/-! ### Kills of a running service, and of one whose start waits for a permit -/

def lone : System Answer := .start .bare 1

def idler : Blueprint := ⟨"idler", .threaded "Idler" "1" Builtin.idling⟩

/-- A service that takes five seconds to start. -/
def busy : Blueprint :=
  ⟨"busy", .scripted (fun query =>
    match query with
    | .instanceId => ⟨[], ⟨0, some (.value (.name "Busy:1"))⟩⟩
    | .state => ⟨[], ⟨0, some (.value .tell)⟩⟩
    | .control .start => ⟨[], ⟨5000, some (.value (.become .running))⟩⟩
    | .control control => ⟨[], ⟨0, some (.value (.become control.goal))⟩⟩) .stopped⟩

/-- The start of the idler waits behind the start of the other service. -/
def queuing : List Event :=
  [.launch (.load idler), .serve 0, .resume 0, .launch (.load busy), .serve 0, .serve 0,
    .resume 1, .launch (.call 1 (.control .start)), .serve 0,
    .launch (.call 0 (.control .start))]

/-- Both starts end, and the idler settles down to wait for its next tick. -/
def belated : List Event :=
  [.wait 5000, .serve 0, .resume 2, .serve 0, .resume 3, .go 0 0, .go 0 0, .go 0 0, .go 0 0]

/-- The idler is started, and has begun to idle. -/
def idling : List Event :=
  [.launch (.load idler), .serve 0, .resume 0, .launch (.call 0 (.control .start)), .serve 0,
    .resume 1, .go 0 0]

/-- A run is cut in two at one of its events. -/
theorem exists_cut {system : System Answer} {past events : List Event}
    (possible : (system.runs? (past ++ [event] ++ events)).isSome = true) :
    ∃ before after last, system.runs? past = some before ∧ before.after? event = some after ∧
      system.runs? (past ++ [event]) = some after ∧ after.runs? events = some last ∧
      system.runs? (past ++ [event] ++ events) = some last := by
  obtain ⟨last, whole⟩ := Option.isSome_iff_exists.mp possible
  obtain ⟨after, first, ends⟩ := runs?_append.mp whole
  obtain ⟨before, enters, done⟩ := runs?_append.mp first
  rw [runs?_singleton] at done
  exact ⟨before, after, last, enters, done, first, ends, whole⟩

/-- The start that was waiting launches a run of the killed service, and the system comes to rest
with the run alive. -/
theorem launch_after_kill :
    ∃ before after last service, Reaches lone queuing before ∧
      before.host.serviceOf 0 = some 0 ∧
      before.after? (.launch (.killServer 0)) = some after ∧ after.host.serviceOf 0 = none ∧
      after.runs? belated = some last ∧ last.step? = none ∧ last.executor.bodies = [] ∧
      last.host.service? 0 = some (.threaded service) ∧
      service.lifecycle.state = .running ∧ service.live.length = 1 := by
  obtain ⟨before, after, last, enters, done, first, ends, whole⟩ := exists_cut
    (by decide +kernel :
      (lone.runs? (queuing ++ [.launch (.killServer 0)] ++ belated)).isSome = true)
  have threaded := view_of_runs whole
    (fun system => (system.host.threaded? 0).map fun service =>
      (service.lifecycle.state, service.live.length))
    (by decide +kernel : _ = some (some (State.running, 1)))
  obtain ⟨service, there, seen⟩ := Option.map_eq_some_iff.mp threaded
  obtain ⟨state, alive⟩ := Prod.mk.inj seen
  refine ⟨before, after, last, service, Reaches.start.runs enters, ?_, done, ?_, ends, ?_, ?_,
    Host.threaded?_eq_some.mp there, state, alive⟩
  · exact view_of_runs enters (fun system => system.host.serviceOf 0) (by decide +kernel)
  · exact view_of_runs first (fun system => system.host.serviceOf 0) (by decide +kernel)
  · exact Option.isNone_iff_eq_none.mp
      (view_of_runs whole (fun system => system.step?.isNone) (by decide +kernel))
  · exact List.isEmpty_iff.mp
      (view_of_runs whole (fun system => system.executor.bodies.isEmpty) (by decide +kernel))

/-- The run of the idler is dropped, and its watcher looks. -/
def dropping : List Event := [.reap 0 0, .record 0 1]

/-- With no start under way, a kill of the idler is for good. When it is over, the run is still to
be dropped. When nothing is ready any more, it is gone. -/
theorem launches_after_kill_idling :
    ∃ before after last service killed final, Reaches lone idling before ∧
      before.host.service? 0 = some (.threaded service) ∧ service.live.length = 1 ∧
      before.after? (.launch (.killServer 0)) = some after ∧
      after.host.service? 0 = some (.threaded killed) ∧ killed.dying = [1] ∧
      after.runs? dropping = some last ∧ last.step? = none ∧
      last.host.service? 0 = some (.threaded final) ∧
      final.lifecycle.state = .stopped ∧ final.live = [] ∧ final.dying = [] := by
  obtain ⟨before, after, last, enters, done, first, ends, whole⟩ := exists_cut
    (by decide +kernel :
      (lone.runs? (idling ++ [.launch (.killServer 0)] ++ dropping)).isSome = true)
  have threaded := view_of_runs enters
    (fun system => (system.host.threaded? 0).map fun service => service.live.length)
    (by decide +kernel : _ = some (some 1))
  obtain ⟨service, there, alive⟩ := Option.map_eq_some_iff.mp threaded
  have found := Host.threaded?_eq_some.mp there
  have aborted := view_of_runs first
    (fun system => (system.host.threaded? 0).map fun service => service.dying)
    (by decide +kernel : _ = some (some [1]))
  obtain ⟨killed, torn, dying⟩ := Option.map_eq_some_iff.mp aborted
  have quiet := Option.isNone_iff_eq_none.mp
    (view_of_runs whole (fun system => system.step?.isNone) (by decide +kernel))
  obtain ⟨final, here, since, bounded, rests⟩ := launches_after_kill Host.unused_bare
    (Reaches.start.runs enters)
    (view_of_runs enters (fun system => system.host.serviceOf 0)
      (by decide +kernel : _ = some (some 0)))
    found done
    (view_of_runs first (fun system => system.host.serviceOf 0) (by decide +kernel)) ends
  have pending := view_of_runs enters (fun system => system.pending 0)
    (by decide +kernel : _ = some 0)
  rw [pending, Nat.add_zero] at bounded
  obtain ⟨state, live, _, settles⟩ := rests (Nat.le_antisymm bounded since)
  exact ⟨before, after, last, service, killed, final, Reaches.start.runs enters, found, alive, done,
    Host.threaded?_eq_some.mp torn, dying, ends, quiet, here, state, live, (settles quiet).1⟩

end System
end ServiceHost
