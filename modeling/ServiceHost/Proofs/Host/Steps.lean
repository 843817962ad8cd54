import ServiceHost.Proofs.Executor.Bodies
import ServiceHost.Proofs.Host.Event

/-! What one event can do to a host, said once for all that follows.

A procedure that waits has become a function of an answer, of which nothing can be seen.
So the stage that it waits at is carried along beside the system.
-/

set_option autoImplicit false

namespace ServiceHost

def Halt.stage? : Halt → Option Stage
  | ended _ => none
  | waits _ stage => some stage

/-- The stages with another one in one place. -/
def Stage.put (stages : Nat → Option Stage) (place : Nat) (stage? : Option Stage) :
    Nat → Option Stage :=
  fun other => if other = place then stage? else stages other

@[simp] theorem Stage.put_self (stages : Nat → Option Stage) (place : Nat) (stage? : Option Stage) :
    put stages place stage? place = stage? := if_pos rfl

theorem Stage.put_of_ne {place other : Nat} (apart : other ≠ place) (stages : Nat → Option Stage)
    (stage? : Option Stage) : put stages place stage? other = stages other := if_neg apart

namespace System

/-- The system once an operation has given up control: a call that it waits for is in the queue. -/
def arrived (system : System Answer) (host : Host) : Halt → System Answer
  | .ended _ => { system with host }
  | .waits service stage =>
    { system with
      host
      executor := system.executor.submit system.now stage.query.operation callDeadline
        ⟨service, stage.query, .fresh⟩ }

def progression (system : System Answer) : Halt → Progression Answer
  | .ended yield => .yielded yield
  | .waits _ stage => .waiting system.executor.issued stage.next

theorem runFlow_eq {system : System Answer} {flow : Flow (Yield Answer)} {halt : Halt} {host : Host}
    (run : flow.run system.host = (halt.stop, host)) :
    system.runFlow flow = (system.progression halt, system.arrived host halt) := by
  unfold runFlow
  rw [run]
  cases halt <;> rfl

/-- The system without the answer of a call, which was taken. -/
def answered (system : System Answer) (call : Nat) : System Answer :=
  { system with executor := system.executor.forget call }

/-- The calls once one of them has gone on to a phase. -/
def moved (executor : Executor Body (Except ServiceError Reply)) (call : Running Body) :
    Phase → Executor Body (Except ServiceError Reply)
  | .ended ending => executor.finish call.request.id ending
  | phase => executor.continueWith call.request.id { call.work with phase }

/-- The system after an operation was launched that gave up control. -/
def launched (before : System Answer) (host : Host) (halt : Halt) : System Answer :=
  { before.arrived host halt with procedures := before.procedures ++ [before.progression halt] }

/-- The system after the procedure in a place went on with the answer of its call. -/
def resumed (before : System Answer) (place number : Nat) (host : Host) (halt : Halt) :
    System Answer :=
  { (before.answered number).arrived host halt with
    procedures := before.procedures.set place ((before.answered number).progression halt) }

/-- Every procedure that waits is at its stage, and no other has one. -/
structure Tracks (system : System Answer) (stages : Nat → Option Stage) : Prop where
  stage : ∀ place call next, system.procedures[place]? = some (.waiting call next) →
    ∃ stage, stages place = some stage ∧ next = stage.next
  waits : ∀ place stage, stages place = some stage →
    ∃ call, system.procedures[place]? = some (.waiting call stage.next)

/-- One event, its outcome, and the stages then. -/
inductive Step (before : System Answer) (stages : Nat → Option Stage) :
    Event → System Answer → (Nat → Option Stage) → Prop where
  | launch {operation : Operation} {halt : Halt} {host : Host} :
      operation.Section before.host halt host →
      Step before stages (.launch operation)
        { before.arrived host halt with
          procedures := before.procedures ++ [before.progression halt] }
        (Stage.put stages before.procedures.length halt.stage?)
  | resume {place call : Nat} {stage : Stage} {answer : CallAnswer} {halt : Halt} {host : Host} :
      stages place = some stage →
      before.procedures[place]? = some (.waiting call stage.next) →
      before.executor.answer? call = some answer →
      stage.Section before.host answer halt host →
      Step before stages (.resume place)
        { (before.answered call).arrived host halt with
          procedures := before.procedures.set place ((before.answered call).progression halt) }
        (Stage.put stages place halt.stage?)
  | serve {place : Nat} {call : Running Body} {service after : Service} {phase : Phase} :
      before.executor.running[place]? = some call →
      before.host.service? call.work.service = some service →
      service.goOn before.now call.work.query call.work.phase = some (phase, after) →
      Step before stages (.serve place)
        { before.withService call.work.service after with
          executor := moved before.executor call phase } stages
  | stir {event : Event} {id : ServiceId} {service after : Threaded} :
      event.stirs = true →
      before.host.service? id = some (.threaded service) → service.Stir after →
      Step before stages event (before.withService id (.threaded after)) stages
  | expire :
      before.executor.overdue before.now = true →
      Step before stages .expire
        { before with executor := before.executor.expire before.now } stages
  | take {place : Nat} {name : Option String} {yield : Yield Answer} :
      before.yield? place = some yield →
      Step before stages (.take place name) (before.take place name) stages
  | drop {name : String} :
      Step before stages (.drop name) { before with kept := before.kept.erase name } stages
  | wait {instant : Nat} :
      before.now ≤ instant →
      Step before stages (.wait instant) { before with now := instant } stages

theorem procedures_arrived (system : System Answer) (host : Host) (halt : Halt) :
    (system.arrived host halt).procedures = system.procedures := by
  cases halt <;> rfl

@[simp] theorem host_arrived (system : System Answer) (host : Host) (halt : Halt) :
    (system.arrived host halt).host = host := by
  cases halt <;> rfl

theorem after?_launch {system : System Answer} {operation : Operation} {halt : Halt} {host : Host}
    (run : operation.flow.run system.host = (halt.stop, host)) :
    system.after? (.launch operation) = some (system.launched host halt) := by
  simp only [after?, System.launch, runFlow_eq run, Option.some.injEq]
  rw [procedures_arrived]
  rfl

theorem after?_resume {system : System Answer} {place number : Nat}
    {next : CallAnswer → Flow (Yield Answer)} {answer : CallAnswer} {halt : Halt} {host : Host}
    (waits : system.procedures[place]? = some (.waiting number next))
    (told : system.executor.answer? number = some answer)
    (run : (next answer).run system.host = (halt.stop, host)) :
    system.after? (.resume place) = some (system.resumed place number host halt) := by
  have flows : (system.answered number).runFlow (next answer) =
      ((system.answered number).progression halt, (system.answered number).arrived host halt) :=
    runFlow_eq run
  simp only [after?, waits, Option.bind_some, resumeAt?, told, Option.map_some, Option.some.injEq]
  change (let (progression, system) := (system.answered number).runFlow (next answer)
    { system with procedures := system.procedures.set place progression }) = _
  -- Whatever was done to the host and the queue, the procedures are those of before.
  rw [flows]
  simp only [procedures_arrived]
  rfl

namespace Tracks

variable {before after : System Answer} {stages : Nat → Option Stage}

theorem start (host : Host) (capacity : Nat) : Tracks (.start host capacity) fun _ => none :=
  ⟨fun _ _ _ there => (by cases there), fun _ _ there => (by cases there)⟩

/-- A procedure that was put in a place is at the stage at which it gave up control. -/
theorem put (tracks : before.Tracks stages) (system : System Answer) (place : Nat) (halt : Halt)
    (here : after.procedures[place]? = some (system.progression halt))
    (others : ∀ other, other ≠ place → after.procedures[other]? = before.procedures[other]?) :
    after.Tracks (Stage.put stages place halt.stage?) := by
  constructor
  · intro other call next there
    by_cases same : other = place
    · subst same
      rw [here] at there
      cases halt with
      | ended => cases there
      | waits service stage =>
        cases there
        exact ⟨stage, Stage.put_self .., rfl⟩
    · rw [others other same] at there
      obtain ⟨stage, known, rfl⟩ := tracks.stage other call next there
      exact ⟨stage, (Stage.put_of_ne same ..).trans known, rfl⟩
  · intro other stage known
    by_cases same : other = place
    · subst same
      rw [Stage.put_self] at known
      cases halt with
      | ended => cases known
      | waits service stage =>
        cases known
        exact ⟨_, here⟩
    · rw [Stage.put_of_ne same] at known
      rw [others other same]
      exact tracks.waits other stage known

theorem of_procedures (tracks : before.Tracks stages)
    (same : after.procedures = before.procedures) : after.Tracks stages :=
  ⟨fun place => same ▸ tracks.stage place, fun place => same ▸ tracks.waits place⟩

theorem take (tracks : before.Tracks stages) {place : Nat} {yield : Yield Answer}
    (yielded : before.yield? place = some yield) (name : Option String) :
    (before.take place name).Tracks stages := by
  have there : before.procedures[place]? = some (.yielded yield) := by
    unfold System.yield? at yielded
    split at yielded
    · cases yielded
      assumption
    · cases yielded
  have bound := (List.getElem?_eq_some_iff.mp there).1
  have others : ∀ other, other ≠ place →
      (before.take place name).procedures[other]? = before.procedures[other]? :=
    fun other apart => List.getElem?_set_ne (Ne.symm apart)
  constructor
  · intro other call next waits
    by_cases same : other = place
    · subst same
      simp [System.take, bound] at waits
    · rw [others other same] at waits
      exact tracks.stage other call next waits
  · intro other stage known
    obtain ⟨call, waits⟩ := tracks.waits other stage known
    have apart : other ≠ place := by
      rintro rfl
      rw [there] at waits
      cases waits
    exact ⟨call, (others other apart).trans waits⟩

/-- A procedure that goes on runs through a section of its stage. -/
theorem exists_resumed (tracks : before.Tracks stages) {place : Nat}
    (done : before.after? (.resume place) = some after) :
    ∃ number answer stage halt host, stages place = some stage ∧
      before.procedures[place]? = some (.waiting number stage.next) ∧
      before.executor.answer? number = some answer ∧ stage.Section before.host answer halt host ∧
      (stage.next answer).run before.host = (halt.stop, host) ∧
      after = before.resumed place number host halt := by
  obtain ⟨progression, there, resumed⟩ := Option.bind_eq_some_iff.mp done
  cases progression with
  | yielded | taken => cases resumed
  | waiting number next =>
    obtain ⟨answer, told, _⟩ := Option.map_eq_some_iff.mp resumed
    obtain ⟨stage, known, rfl⟩ := tracks.stage place number next there
    obtain ⟨halt, host, part, run⟩ := stage.run_next answer before.host
    exact ⟨number, answer, stage, halt, host, known, there, told, part, run,
      Option.some.inj (done.symm.trans (after?_resume there told run))⟩

/-- Every event is one of those above. -/
theorem exists_step (tracks : before.Tracks stages) {event : Event}
    (done : before.after? event = some after) : ∃ later, before.Step stages event after later := by
  cases event with
  | launch operation =>
    obtain ⟨halt, host, part, run⟩ := operation.run_flow before.host
    obtain rfl := Option.some.inj ((after?_launch run).symm.trans done)
    exact ⟨_, .launch part⟩
  | take place name =>
    obtain ⟨yield, yielded, rfl⟩ := Option.map_eq_some_iff.mp done
    exact ⟨_, .take yielded⟩
  | drop name =>
    cases done
    exact ⟨_, .drop⟩
  | expire =>
    simp only [after?, expire?, Option.ite_none_right_eq_some, Option.some.injEq] at done
    obtain ⟨overdue, rfl⟩ := done
    exact ⟨_, .expire overdue⟩
  | resume place =>
    obtain ⟨_, _, _, _, _, known, there, told, part, _, rfl⟩ := tracks.exists_resumed done
    exact ⟨_, .resume known there told part⟩
  | serve place =>
    obtain ⟨call, there, served⟩ := Option.bind_eq_some_iff.mp done
    obtain ⟨service, found, served⟩ := Option.bind_eq_some_iff.mp served
    obtain ⟨⟨phase, later⟩, goes, served⟩ := Option.bind_eq_some_iff.mp served
    have equation : after = { before.withService call.work.service later with
        executor := moved before.executor call phase } := by
      cases phase <;> cases served <;> rfl
    subst equation
    exact ⟨_, .serve there found goes⟩
  | go id place =>
    obtain ⟨service, next, found, went, rfl⟩ := stirred?_eq_some done
    exact ⟨_, .stir rfl found (Threaded.go?_stir went)⟩
  | reap id place =>
    obtain ⟨service, next, found, reaped, rfl⟩ := stirred?_eq_some done
    exact ⟨_, .stir rfl found (Threaded.reap?_stir reaped)⟩
  | record id generation =>
    obtain ⟨service, next, found, looked, rfl⟩ := stirred?_eq_some done
    exact ⟨_, .stir rfl found (Threaded.look?_stir looked)⟩
  | wait instant =>
    simp only [after?, Option.ite_none_right_eq_some, Option.some.injEq] at done
    obtain ⟨later, rfl⟩ := done
    exact ⟨_, .wait later⟩

theorem step (tracks : before.Tracks stages) {event : Event} {later : Nat → Option Stage}
    (step : before.Step stages event after later) : after.Tracks later := by
  cases step with
  | launch part =>
    rename_i operation halt host
    -- The new procedure goes behind those that are there.
    refine tracks.put before _ halt (List.getElem?_concat_length ..) fun other apart => ?_
    rw [List.getElem?_append]
    split
    · rfl
    · rename_i beyond
      have past := Nat.lt_of_le_of_ne (Nat.le_of_not_lt beyond) (Ne.symm apart)
      rw [List.getElem?_eq_none (Nat.le_of_lt past)]
      exact List.getElem?_eq_none (Nat.sub_pos_of_lt past)
  | resume _ there =>
    rename_i place call stage answer halt host _ _ _
    have bound := (List.getElem?_eq_some_iff.mp there).1
    exact tracks.put (before.answered call) _ halt (List.getElem?_set_self bound)
      fun other apart => List.getElem?_set_ne (Ne.symm apart)
  | take yielded => exact tracks.take yielded _
  | serve | stir | expire | drop | wait => exact tracks.of_procedures rfl

end Tracks

/-- The runs of a host, with the stages of its procedures. -/
inductive Trail (first : System Answer) :
    List Event → System Answer → (Nat → Option Stage) → Prop where
  | start : Trail first [] first fun _ => none
  | next {events : List Event} {event : Event} {system after : System Answer}
      {stages later : Nat → Option Stage} :
      Trail first events system stages → system.after? event = some after →
      system.Step stages event after later → Trail first (events ++ [event]) after later

theorem Trail.tracks {host : Host} {capacity : Nat} {events : List Event} {system : System Answer}
    {stages : Nat → Option Stage} (trail : Trail (.start host capacity) events system stages) :
    system.Tracks stages := by
  induction trail with
  | start => exact .start host capacity
  | next _ _ step ih => exact ih.step step

/-- A procedure stays at its stage until it goes on. -/
theorem Step.keeps {before after : System Answer} {stages later : Nat → Option Stage}
    {event : Event} (step : before.Step stages event after later) (tracks : before.Tracks stages)
    {place : Nat} {stage : Stage} (stands : stages place = some stage)
    (other : event.resumes place = false) : later place = some stage := by
  cases step with
  | launch =>
    -- A procedure that waits has a place of its own already.
    obtain ⟨call, waits⟩ := tracks.waits place stage stands
    have apart : place ≠ before.procedures.length :=
      Nat.ne_of_lt (List.getElem?_eq_some_iff.mp waits).1
    rwa [Stage.put_of_ne apart]
  | @resume resumed =>
    have apart : place ≠ resumed := by
      rintro rfl
      simp [Event.resumes] at other
    rwa [Stage.put_of_ne apart]
  | serve | stir | expire | take | drop | wait => exact stands

/-- What every step keeps still holds after any number of steps. -/
theorem Trail.onward {host : Host} {capacity : Nat} {past events : List Event}
    {system last : System Answer} {stages : Nat → Option Stage}
    {Holds : System Answer → (Nat → Option Stage) → Prop}
    (trail : Trail (.start host capacity) past system stages)
    (runs : system.runs? events = some last) (holds : Holds system stages)
    (keeps : ∀ {before after : System Answer} {stages later : Nat → Option Stage} {event : Event},
      event ∈ events → before.Tracks stages → before.Step stages event after later →
      Holds before stages → Holds after later) :
    ∃ later, Trail (.start host capacity) (past ++ events) last later ∧ Holds last later := by
  induction events generalizing past system stages with
  | nil =>
    cases runs
    exact ⟨stages, by rwa [List.append_nil], holds⟩
  | cons event rest ih =>
    obtain ⟨next, done, runs⟩ := Option.bind_eq_some_iff.mp runs
    obtain ⟨later, step⟩ := trail.tracks.exists_step done
    have onward := ih (trail.next done step) runs
      (keeps (List.mem_cons_self ..) trail.tracks step holds)
      fun member => keeps (List.mem_cons_of_mem _ member)
    rwa [List.append_assoc] at onward

theorem Trail.keeps {host : Host} {capacity : Nat} {past events : List Event}
    {system after : System Answer} {stages : Nat → Option Stage}
    (trail : Trail (.start host capacity) past system stages)
    (runs : system.runs? events = some after) {place : Nat} {stage : Stage}
    (stands : stages place = some stage)
    (others : events.all (fun event => !event.resumes place) = true) :
    ∃ later, Trail (.start host capacity) (past ++ events) after later ∧
      later place = some stage := by
  refine trail.onward runs stands
    fun member tracks step stands => step.keeps tracks stands ?_
  simpa using List.all_eq_true.mp others _ member

/-- Whatever a host comes to, it comes to along a trail. -/
theorem reaches_iff_trail {host : Host} {capacity : Nat} {events : List Event}
    {system : System Answer} :
    Reaches (.start host capacity) events system ↔
      ∃ stages, Trail (.start host capacity) events system stages := by
  constructor
  · intro reaches
    induction reaches with
    | start => exact ⟨_, .start⟩
    | next _ done ih =>
      obtain ⟨stages, trail⟩ := ih
      obtain ⟨later, step⟩ := trail.tracks.exists_step done
      exact ⟨later, trail.next done step⟩
  · rintro ⟨stages, trail⟩
    induction trail with
    | start => exact .start
    | next _ done _ ih => exact ih.next done

end System
end ServiceHost
