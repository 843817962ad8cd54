import ServiceHost.Proofs.Service.Direct
import ServiceHost.Proofs.Service.Stopped
import ServiceHost.Proofs.Timeline

/-! Everything that can become of a service with a run loop that somebody holds and calls directly.

Calls, kills and new configurations come at any moment. Of what is ready, the next go of a run, the
drop of one that was killed, the record of a watcher and the answer to a stop that waits, anything
may be next. Time goes on when nothing is ready, and only up to the next timer. -/

set_option autoImplicit false

namespace ServiceHost.Alone

/-- One thing that happens. A call comes with how far it gets at once. -/
inductive Event where
  | called (query : Query) (phase : Phase)
  | killed
  | configured (config : Properties)
  /-- A stop that waited has its answer. -/
  | answered (call : Nat)
  | went (generation : Nat)
  /-- A run that was killed is dropped. -/
  | reaped
  | recorded (generation : Nat)

/-- A call that is done at once. -/
def Event.did (control : Control) : Event := .called (.control control) (.ended (.value (.ok .done)))

/-- Whether someone stops the service, by a request or by force. -/
def Event.stops : Event → Bool
  | .called (.control .stop) _ | .killed => true
  | _ => false

/-- Whether nobody asked for it. -/
def Event.own : Event → Bool
  | .answered _ | .went _ | .reaped | .recorded _ => true
  | _ => false

inductive Step (alone : Alone) : Event → Alone → Prop where
  | called (query : Query) :
      Step alone (.called query (alone.service.begin alone.now query).1) (alone.call query)
  | killed : Step alone .killed { alone with service := alone.service.kill }
  | configured (config : Properties) :
      Step alone (.configured config) { alone with service := { alone.service with config } }
  | answered {call : Nat} {query : Query} {phase later : Phase} {service : Threaded} :
      alone.calls[call]? = some (query, phase) →
      alone.service.goOn alone.now query phase = some (later, service) →
      Step alone (.answered call) { alone with service, calls := alone.calls.set call (query, later) }
  | went {place : Nat} {run : ServiceHost.Run} {service : Threaded} :
      alone.service.live[place]? = some run →
      alone.service.goAt? alone.now false place run = some service →
      Step alone (.went run.generation) { alone with service }
  | reaped {place : Nat} {service : Threaded} :
      alone.service.reap? place = some service → Step alone .reaped { alone with service }
  | recorded {generation : Nat} {watched : Watched} {service : Threaded} :
      alone.service.lifecycle.run? generation = some watched → watched.unseen = true →
      alone.service.look? generation = some service →
      Step alone (.recorded generation) { alone with service }

/-- What has happened, oldest first, each with its instant. -/
abbrev History := List (Nat × Event)

/-- What can become of a service and its callers. -/
abbrev Course : Alone → History → Alone → Prop := Clocked.Course Step

variable {start alone after : Alone} {past more : History} {event : Event}

/-- Whatever the program does next is among what can happen. -/
theorem step_of_step? (found : alone.step? = some after) :
    ∃ event, event.own = true ∧ Step alone event after := by
  rcases step?_cases found with ⟨service, lives, rfl⟩ | ⟨call, query, phase, later, service, there,
    goes, rfl⟩
  · rcases Threaded.step?_cases lives with reaped | ⟨place, run, there, goes⟩ |
      ⟨generation, watched, here, unseen, looked⟩
    · exact ⟨_, rfl, .reaped reaped⟩
    · exact ⟨_, rfl, .went there goes⟩
    · exact ⟨_, rfl, .recorded here unseen looked⟩
  · exact ⟨_, rfl, .answered there goes⟩

/-! ## Courses of what others do -/

/-- Some course on which this is what others do, and when. -/
def Plays (start : Alone) (schedule : History) (alone : Alone) : Prop :=
  ∃ more, Course start more alone ∧ more.filter (fun moment => !moment.2.own) = schedule

variable {schedule rest : History} {instant : Nat}

theorem own_of_filter (none_ : more.filter (fun moment => !moment.2.own) = []) :
    ∀ moment ∈ more, moment.2.own = true := fun moment member => by
  simpa using List.filter_eq_nil_iff.mp none_ moment member

theorem Plays.trans (first : Plays start schedule alone) (second : Plays alone rest after) :
    Plays start (schedule ++ rest) after := by
  obtain ⟨past, course, rfl⟩ := first
  obtain ⟨more, onward, rfl⟩ := second
  exact ⟨_, course.trans onward, List.filter_append ..⟩

theorem plays_step (step : Step alone event after) (asked : event.own = false) :
    Plays alone [(alone.now, event)] after :=
  ⟨_, Clocked.Course.start.next step, List.filter_cons_of_pos (by rw [asked]; rfl)⟩

theorem plays_run (steps : Nat) (alone : Alone) : Plays alone [] (Clocked.run steps alone) := by
  obtain ⟨more, onward, own⟩ := Clocked.Course.ran (fun _ _ => step_of_step?) steps alone
  exact ⟨more, onward, List.filter_eq_nil_iff.mpr fun moment member => by simp [own moment member]⟩

/-- A service at a later instant, after all that was ready then. -/
def lapsed (instant : Nat) (alone : Alone) : Alone := Clocked.run 9 (Clocked.setNow instant alone)

/-- A service after a call and all that was ready then. -/
def served (control : Control) (alone : Alone) : Alone := Clocked.run 9 (alone.call (.control control))

theorem plays_lapsed (quiet : alone.step? = none) (later : alone.now ≤ instant)
    (bounded : ∀ timer, alone.timer? = some timer → instant ≤ timer) :
    Plays alone [] (alone.lapsed instant) :=
  Plays.trans ⟨[], Clocked.Course.start.pass quiet later bounded, rfl⟩ (plays_run 9 _)

theorem plays_served (control : Control) (alone : Alone) : Plays alone
    [(alone.now, .called (.control control) (alone.service.begin alone.now (.control control)).1)]
    (alone.served control) :=
  (plays_step (.called (.control control)) rfl).trans (plays_run 9 _)

/-! ## What holds at any time -/

/-- A call that was made has its answer, or it is a stop that waits for a run it has asked. -/
def Made (service : Threaded) : Phase → Prop
  | .ended _ => True
  | .stopping generation _ => service.lifecycle.stopRequested generation = true
  | _ => False

structure Kept (loop : RunLoop) (alone : Alone) : Prop where
  sound : alone.service.Sound
  loop_eq : alone.service.loop = loop
  made : ∀ call ∈ alone.calls, Made alone.service call.2

variable {loop : RunLoop} {service later : Threaded} {query : Query} {before phase : Phase}
  {now : Nat}

theorem Made.extends (extends_ : service.lifecycle.Extends later.lifecycle)
    (made : Made service phase) : Made later phase := by
  cases phase with
  | ended => trivial
  | stopping generation expires => exact extends_.requested generation made
  | fresh | planned => cases made

theorem Made.asked {generation expires : Nat} (made : Made service before)
    (same : before = .stopping generation expires) :
    service.lifecycle.stopRequested generation = true := by
  cases same
  exact made

theorem made_of_turn (turn : service.Turn now query before phase later) : Made later phase := by
  rcases turn.phase_cases with ⟨_, rfl⟩ | ⟨generation, rfl, _⟩
  · trivial
  · exact turn.asks

namespace Kept

theorem sole {service : Threaded} (sound : service.Sound) : Kept service.loop (sole service) :=
  ⟨sound, rfl, fun _ member => by cases member⟩

/-- A change of the service that forgets no request. -/
theorem changed (kept : Kept loop alone) (sound : later.Sound) (loop_eq : later.loop = loop)
    (extends_ : alone.service.lifecycle.Extends later.lifecycle) :
    Kept loop { alone with service := later } :=
  ⟨sound, loop_eq, fun call member => (kept.made call member).extends extends_⟩

theorem turn (kept : Kept loop alone)
    (turn : alone.service.Turn now query before phase later) :
    Kept loop { alone with service := later } :=
  kept.changed (turn.sound kept.sound) (turn.loop.trans kept.loop_eq) (turn.extends kept.sound)

theorem stir (kept : Kept loop alone) (stir : alone.service.Stir later) :
    Kept loop { alone with service := later } :=
  kept.changed (stir.sound kept.sound) (stir.machine.2.2.2.trans kept.loop_eq)
    (stir.extends kept.sound)

theorem begun (kept : Kept loop alone) (query : Query) :
    alone.service.Turn alone.now query .fresh (alone.service.begin alone.now query).1
      (alone.call query).service :=
  Threaded.begin_turn kept.sound rfl

theorem resumed (kept : Kept loop alone) {call : Nat}
    (there : alone.calls[call]? = some (query, before))
    (goes : alone.service.goOn alone.now query before = some (phase, later)) :
    alone.service.Turn alone.now query before phase later :=
  Threaded.goOn_turn kept.sound
    (fun _ _ => (kept.made _ (List.mem_of_getElem? there)).asked) goes

/-- Only a stop goes on after it was called. -/
theorem waiting (kept : Kept loop alone) {call : Nat}
    (there : alone.calls[call]? = some (query, before))
    (goes : alone.service.goOn alone.now query before = some (phase, later)) :
    ∃ generation expires, before = .stopping generation expires := by
  have made := kept.made _ (List.mem_of_getElem? there)
  cases before with
  | stopping generation expires => exact ⟨generation, expires, rfl⟩
  | ended => cases goes
  | fresh | planned => cases made

theorem step (kept : Kept loop alone) (step : Step alone event after) : Kept loop after := by
  cases step with
  | called query =>
    have turn := kept.begun query
    obtain ⟨sound, loop_eq, made⟩ := kept.turn turn
    refine ⟨sound, loop_eq, fun call member => ?_⟩
    rcases List.mem_append.mp member with old | new
    · exact made call old
    · rw [List.mem_singleton.mp new]
      exact made_of_turn turn
  | killed => exact kept.changed kept.sound.kill kept.loop_eq (.kill kept.sound.machine)
  | configured config =>
    exact kept.changed (kept.sound.withConfig config) kept.loop_eq (.refl _)
  | answered there goes =>
    have turn := kept.resumed there goes
    obtain ⟨sound, loop_eq, made⟩ := kept.turn turn
    refine ⟨sound, loop_eq, fun call member => ?_⟩
    rcases List.mem_or_eq_of_mem_set member with old | rfl
    · exact made call old
    · exact made_of_turn turn
  | went there goes => exact kept.stir (Threaded.goAt?_stir there goes)
  | reaped done => exact kept.stir (Threaded.reap?_stir done)
  | recorded _ _ looked => exact kept.stir (Threaded.look?_stir looked)

end Kept

theorem Course.kept (course : Course start past alone) (kept : Kept loop start) :
    Kept loop alone := by
  induction course with
  | start => exact kept
  | next _ step ih => exact ih.step step
  | pass _ _ _ _ ih => exact ⟨ih.sound, ih.loop_eq, ih.made⟩

end ServiceHost.Alone
