import ServiceHost.Proofs.Host.Ensures

/-! Hosts with procedures of any kind, while nobody launches anything.

The procedures here yield whatever they like, and call whatever they like. One that ensures
an outcome comes to it, and has a way to it from wherever it waits, on which every event
comes at its time.
-/

set_option autoImplicit false

namespace ServiceHost.System

variable {ρ : Type} {before after last system : System ρ} {event : Event} {place number : Nat}

/-- What an event makes of a system, if it can happen. Nobody launches anything. -/
def onward? (system : System ρ) : Event → Option (System ρ)
  | .launch _ => none
  | .take place name => (system.yield? place).map fun _ => system.take place name
  | .drop name => some { system with kept := system.kept.erase name }
  | .expire => system.expire?
  | .resume place => (system.procedures[place]?).bind (system.resumeAt? place)
  | .serve place => (system.executor.running[place]?).bind system.serveCall?
  | .go id place => system.stirred? id (·.go? system.now (system.closed id) place)
  | .reap id place => system.stirred? id (·.reap? place)
  | .record id generation => system.stirred? id (·.look? generation)
  | .wait instant => if system.now ≤ instant then some { system with now := instant } else none

/-- Whether nobody could go on: no procedure has an answer, and every call that has a permit has
begun. -/
def stands (system : System ρ) : Bool :=
  system.procedures.all (fun
    | .waiting call _ => (system.executor.answer? call).isNone
    | _ => true) &&
  system.executor.running.all fun call => !call.work.phase.isFresh

/-- Whether an event may happen now. Deadlines come first, and time passes only while nobody could
go on, and never beyond a deadline. -/
def inTime (system : System ρ) : Event → Bool
  | .expire => true
  | .wait instant =>
    !system.executor.overdue system.now && system.stands &&
      system.executor.deadline?.all fun deadline => instant ≤ deadline
  | _ => !system.executor.overdue system.now

/-- For the operations of a host, these are the events that there are but launches. -/
theorem onward?_eq_after? {system : System Answer} (launches : ∀ operation, event ≠ .launch operation) :
    system.onward? event = system.after? event ∧ system.inTime event = system.keepsTime event := by
  have same : system.stands = system.rests := by
    unfold stands rests
    congr 2
    funext progression
    cases progression <;> rfl
  cases event with
  | launch operation => exact absurd rfl (launches operation)
  | wait instant => exact ⟨rfl, by rw [inTime, keepsTime, same]⟩
  | _ => exact ⟨rfl, rfl⟩

def Passes (before after : System ρ) : Prop := ∃ event, before.onward? event = some after

def PassesInTime (before after : System ρ) : Prop :=
  ∃ event, before.onward? event = some after ∧ before.inTime event = true

/-- What events make of a system, one after the other, if they can happen. -/
def onwards? (system : System ρ) : List Event → Option (System ρ)
  | [] => some system
  | event :: rest => (system.onward? event).bind fun next => next.onwards? rest

theorem passes_of_onwards? {events : List Event} (done : before.onwards? events = some after) :
    Relation.ReflTransGen Passes before after := by
  induction events generalizing before with
  | nil =>
    cases done
    exact .refl
  | cons event rest ih =>
    obtain ⟨next, first, done⟩ := Option.bind_eq_some_iff.mp done
    exact .head ⟨event, first⟩ (ih done)

/-- What a passage of a system does not touch, if no procedure goes on with it. -/
structure Stills (before after : System ρ) : Prop where
  works : before.host.Works after.host
  orderly : after.executor.Orderly
  bodies : ∀ entry ∈ after.executor.hand, ∃ old ∈ before.executor.hand,
    old.2.service = entry.2.service
  owes : ∀ number, after.executor.Owes number ↔ before.executor.Owes number
  procedures : ∀ place : Nat, after.procedures[place]? = before.procedures[place]? ∨
    (∃ yield, before.procedures[place]? = some (.yielded yield)) ∧
      after.procedures[place]? = some .taken

theorem serveCall?_eq {call : Running Body} {service changed : Service} {phase : Phase}
    (found : before.host.service? call.work.service = some service)
    (goes : service.goOn before.now call.work.query call.work.phase = some (phase, changed)) :
    before.serveCall? call = some { before with
      host := before.host.updateService call.work.service fun _ => changed
      executor := moved before.executor call phase } := by
  simp only [serveCall?, found, Option.bind_eq_bind, Option.bind_some, goes]
  cases phase <;> rfl

namespace Stills

/-- A service goes on by itself. -/
theorem goes (orderly : before.executor.Orderly) {id : ServiceId} {service changed : Service}
    (found : before.host.service? id = some service) (goes : service.Goes changed) :
    before.Stills { before with host := before.host.updateService id fun _ => changed } where
  works := .updateService found goes
  orderly := orderly
  bodies entry member := ⟨entry, member, rfl⟩
  owes _ := Iff.rfl
  procedures _ := .inl rfl

theorem expire (orderly : before.executor.Orderly) :
    before.Stills { before with executor := before.executor.expire before.now } where
  works := .refl _
  orderly := orderly.expire _
  bodies entry member := ⟨entry, Executor.mem_hand_of_expire member, rfl⟩
  owes _ := Executor.owes_expire
  procedures _ := .inl rfl

theorem serve (orderly : before.executor.Orderly) {call : Running Body}
    (running : call ∈ before.executor.running) {service changed : Service} {phase : Phase}
    (found : before.host.service? call.work.service = some service)
    (goes : service.goOn before.now call.work.query call.work.phase = some (phase, changed)) :
    before.Stills { before with
      host := before.host.updateService call.work.service fun _ => changed
      executor := moved before.executor call phase } where
  works := .updateService found (.called goes)
  orderly := by
    cases phase with
    | ended =>
      simp only [moved_of_ended]
      exact orderly.conclude ..
    | fresh | planned | stopping => exact orderly.continueWith ..
  bodies entry member := by
    rcases Turn.mem_hand_moved orderly running member with ⟨old, _⟩ | ⟨rfl, _⟩
    · exact ⟨entry, old, rfl⟩
    · exact ⟨_, Executor.mem_hand_of_running running, rfl⟩
  owes _ := owes_moved orderly running phase
  procedures _ := .inl rfl

theorem take (orderly : before.executor.Orderly) {yield : Yield ρ}
    (yielded : before.yield? place = some yield) (name : Option String) :
    before.Stills (before.take place name) where
  works := .refl _
  orderly := orderly
  bodies entry member := ⟨entry, member, rfl⟩
  owes _ := Iff.rfl
  procedures other := by
    by_cases same : other = place
    · subst same
      have there := yielded_of_yield? yielded
      exact .inr ⟨⟨yield, there⟩,
        List.getElem?_set_self (List.getElem?_eq_some_iff.mp there).1⟩
    · exact .inl (List.getElem?_set_ne (Ne.symm same))

/-- Nothing but a procedure that goes on does more. -/
theorem of_onward? (orderly : before.executor.Orderly) (done : before.onward? event = some after)
    (resumes : ∀ place, event ≠ .resume place) : before.Stills after := by
  cases event with
  | launch => cases done
  | resume place => exact absurd rfl (resumes place)
  | take place name =>
    obtain ⟨yield, yielded, rfl⟩ := Option.map_eq_some_iff.mp done
    exact take orderly yielded name
  | drop name =>
    cases done
    exact ⟨.refl _, orderly, fun entry member => ⟨entry, member, rfl⟩, fun _ => Iff.rfl,
      fun _ => .inl rfl⟩
  | expire =>
    simp only [onward?, expire?, Option.ite_none_right_eq_some, Option.some.injEq] at done
    obtain ⟨-, rfl⟩ := done
    exact expire orderly
  | serve place =>
    obtain ⟨call, there, served⟩ := Option.bind_eq_some_iff.mp done
    obtain ⟨service, found, onward⟩ := Option.bind_eq_some_iff.mp served
    obtain ⟨⟨phase, changed⟩, goes, -⟩ := Option.bind_eq_some_iff.mp onward
    cases (serveCall?_eq found goes).symm.trans served
    exact serve orderly (List.mem_of_getElem? there) found goes
  | go id place =>
    obtain ⟨service, next, found, went, rfl⟩ := stirred?_eq_some done
    exact goes orderly found (.stirred rfl (Threaded.go?_stir went))
  | reap id place =>
    obtain ⟨service, next, found, reaped, rfl⟩ := stirred?_eq_some done
    exact goes orderly found (.stirred rfl (Threaded.reap?_stir reaped))
  | record id generation =>
    obtain ⟨service, next, found, looked, rfl⟩ := stirred?_eq_some done
    exact goes orderly found (.stirred rfl (Threaded.look?_stir looked))
  | wait instant =>
    simp only [onward?, Option.ite_none_right_eq_some, Option.some.injEq] at done
    obtain ⟨-, rfl⟩ := done
    exact ⟨.refl _, orderly, fun entry member => ⟨entry, member, rfl⟩, fun _ => Iff.rfl,
      fun _ => .inl rfl⟩

end Stills

/-- A system in good order: calls are in the order of their numbers, and each is of a service that
there is. -/
structure Calm (system : System ρ) : Prop where
  orderly : system.executor.Orderly
  known : ∀ entry ∈ system.executor.hand, entry.2.service < system.host.services.length

theorem Calm.start (host : Host) (capacity : Nat) : (System.start host capacity : System ρ).Calm where
  orderly := .start capacity
  known entry member := by cases member

/-- A host that is used by operations only is calm at all times. -/
theorem History.calm {host : Host} {capacity : Nat} {moments : List Moment} {last : System Answer}
    (unused : host.Unused) (history : History (.start host capacity) moments last) : last.Calm := by
  obtain ⟨stages, books⟩ := history.books unused
  constructor
  · exact books.entered.orderly
  · intro entry member
    obtain ⟨inquiry, asked, _, own, _⟩ := books.entered.hand entry member
    rw [own]
    exact books.seated.known inquiry asked

theorem Calm.stills (calm : before.Calm) (stills : before.Stills after) : after.Calm where
  orderly := stills.orderly
  known entry member := by
    obtain ⟨old, there, same⟩ := stills.bodies entry member
    rw [stills.works.length_services, ← same]
    exact calm.known old there

/-- No procedure is under way. -/
def Silent (system : System ρ) : Prop :=
  ∀ (place call : Nat) (next : CallAnswer → Flow (Yield ρ)),
    system.procedures[place]? ≠ some (.waiting call next)

/-- The system after a procedure has run up to its next call, which is put into the queue. -/
def reached (system : System ρ) (host : Host) : Flow.Stop (Yield ρ) → System ρ
  | .done _ => { system with host }
  | .call service query _ =>
    { system with
      host
      executor := system.executor.submit system.now query.operation callDeadline
        ⟨service, query, .fresh⟩ }

def reachedAt (system : System ρ) : Flow.Stop (Yield ρ) → Progression ρ
  | .done yield => .yielded yield
  | .call _ _ next => .waiting system.executor.issued next

theorem runFlow_eq_reached {flow : Flow (Yield ρ)} {stop : Flow.Stop (Yield ρ)} {host : Host}
    (run : flow.run system.host = (stop, host)) :
    system.runFlow flow = (system.reachedAt stop, system.reached host stop) := by
  unfold runFlow
  rw [run]
  cases stop <;> rfl

theorem procedures_runFlow (system : System ρ) (flow : Flow (Yield ρ)) :
    (system.runFlow flow).2.procedures = system.procedures := by
  rw [runFlow_eq_reached rfl]
  cases (flow.run system.host).1 <;> rfl

/-! ## One procedure that ensures an outcome -/

/-- The system in which a procedure has run up to its next call and stands among others. -/
def placed (system : System ρ) (flow : Flow (Yield ρ)) (procedures : List (Progression ρ)) :
    System ρ :=
  { (system.runFlow flow).2 with procedures }

/-- The system without the answer of a call, which was taken. -/
def without (system : System ρ) (call : Nat) : System ρ :=
  { system with executor := system.executor.forget call }

/-- Nobody waits but the procedure in a place, which ensures an outcome from where it is. -/
structure Under (post : Yield ρ → Host → Prop) (place : Nat) (system : System ρ) : Prop
    extends system.Calm where
  alone : ∀ other call next, system.procedures[other]? = some (.waiting call next) → other = place
  waits : ∀ call next, system.procedures[place]? = some (.waiting call next) →
    system.executor.Owes call ∧
      ∀ answer after, system.host.Works after → (next answer).Ensures post after
  yields : ∀ yield, system.procedures[place]? = some (.yielded yield) →
    ∃ past, post yield past ∧ past.Works system.host

namespace Under

variable {post : Yield ρ → Host → Prop} {flow : Flow (Yield ρ)}
  {procedures : List (Progression ρ)} {call : Nat} {next : CallAnswer → Flow (Yield ρ)}

theorem placed (calm : system.Calm) (ensures : flow.Ensures post system.host)
    (here : procedures[place]? = some (system.runFlow flow).1)
    (alone : ∀ other call next, procedures[other]? = some (.waiting call next) → other = place) :
    (system.placed flow procedures).Under post place := by
  unfold System.placed
  cases ensures with
  | done run grows holds =>
    rw [runFlow_eq_reached run] at here ⊢
    exact {
      orderly := calm.orderly
      known := fun entry member => Nat.lt_of_lt_of_le (calm.known entry member) grows
      alone
      waits := fun call next there => by cases here.symm.trans there
      yields := fun yield there => by
        cases here.symm.trans there
        exact ⟨_, holds, .refl _⟩ }
  | call run grows known onward =>
    rw [runFlow_eq_reached run] at here ⊢
    exact {
      orderly := calm.orderly.arrive ..
      known := fun entry member => by
        rcases List.mem_append.mp (Executor.hand_submit .. ▸ member) with old | new
        · exact Nat.lt_of_lt_of_le (calm.known entry old) grows
        · cases List.mem_singleton.mp new
          exact known
      alone
      waits := fun call next there => by
        cases here.symm.trans there
        exact ⟨Executor.owes_submit.mpr (.inr rfl), onward⟩
      yields := fun yield there => by cases here.symm.trans there }

theorem stills (under : before.Under post place) (stills : before.Stills after) :
    after.Under post place where
  toCalm := under.toCalm.stills stills
  alone other call next there := by
    rcases stills.procedures other with same | ⟨_, taken⟩
    · exact under.alone other call next (same.symm.trans there)
    · cases taken.symm.trans there
  waits call next there := by
    rcases stills.procedures place with same | ⟨_, taken⟩
    · obtain ⟨owed, ensures⟩ := under.waits call next (same.symm.trans there)
      exact ⟨(stills.owes call).mpr owed, fun answer later works =>
        ensures answer later (stills.works.trans works)⟩
    · cases taken.symm.trans there
  yields yield there := by
    rcases stills.procedures place with same | ⟨_, taken⟩
    · obtain ⟨past, holds, works⟩ := under.yields yield (same.symm.trans there)
      exact ⟨past, holds, works.trans stills.works⟩
    · cases taken.symm.trans there

theorem alone_set (under : system.Under post place) (progression : Progression ρ) (other number : Nat)
    (goes : CallAnswer → Flow (Yield ρ))
    (there : (system.procedures.set place progression)[other]? = some (.waiting number goes)) :
    other = place := by
  by_cases same : other = place
  · exact same
  · rw [List.getElem?_set_ne (Ne.symm same)] at there
    exact under.alone other number goes there

/-- The procedure goes on with its answer. -/
theorem onward?_resume {answer : CallAnswer}
    (waits : system.procedures[place]? = some (.waiting call next))
    (told : system.executor.answer? call = some answer) :
    system.onward? (.resume place) = some ((system.without call).placed (next answer)
      (system.procedures.set place ((system.without call).runFlow (next answer)).1)) := by
  simp only [onward?, waits, Option.bind_some, resumeAt?, told, Option.map_some, procedures_runFlow,
    System.placed, without]

theorem passes (under : before.Under post place) (done : before.onward? event = some after) :
    after.Under post place := by
  by_cases resumes : ∃ other, event = .resume other
  · obtain ⟨other, rfl⟩ := resumes
    obtain ⟨progression, there, resumed⟩ := Option.bind_eq_some_iff.mp done
    cases progression with
    | yielded | taken => cases resumed
    | waiting call next =>
      obtain rfl := under.alone other call next there
      obtain ⟨answer, told, -⟩ := Option.map_eq_some_iff.mp resumed
      cases (onward?_resume there told).symm.trans done
      have bound := (List.getElem?_eq_some_iff.mp there).1
      exact placed ⟨under.orderly.forget call, under.known⟩
        ((under.waits call next there).2 answer _ (.refl _)) (List.getElem?_set_self bound)
        (under.alone_set _)
  · exact under.stills (.of_onward? under.orderly done fun other same => resumes ⟨other, same⟩)

/-- A procedure is launched while nobody else waits. -/
theorem launch (calm : system.Calm) (silent : system.Silent)
    (ensures : flow.Ensures post system.host) :
    (system.launch flow).Under post system.procedures.length := by
  have same : system.launch flow =
      system.placed flow (system.procedures ++ [(system.runFlow flow).1]) := by
    simp only [System.launch, System.placed, procedures_runFlow]
  rw [same]
  apply placed calm ensures List.getElem?_concat_length
  intro other call next there
  by_cases earlier : other < system.procedures.length
  · rw [List.getElem?_append_left earlier] at there
    exact absurd there (silent other call next)
  · have bound := (List.getElem?_eq_some_iff.mp there).1
    rw [List.length_append, List.length_singleton] at bound
    omega

theorem run (under : before.Under post place) (passed : Relation.ReflTransGen Passes before after) :
    after.Under post place := by
  induction passed with
  | refl => exact under
  | tail _ pass ih =>
    obtain ⟨event, done⟩ := pass
    exact ih.passes done

/-! ### The way to the end -/

/-- What there is still to be done until the call that the procedure waits for is answered. -/
def effort (system : System ρ) : Nat :=
  2 * system.executor.pending.length + (unbegun system.executor).length +
    (!system.executor.overdue system.now).toNat

theorem exists_deadline (timely : system.executor.overdue system.now = false)
    (owed : system.executor.Owes call) (untold : system.executor.answer? call = none) :
    ∃ instant, system.executor.deadline? = some instant ∧ system.now ≤ instant := by
  have pending : call ∈ system.executor.pending := by
    cases owed with
    | inl waits => exact waits
    | inr told =>
      obtain ⟨answer, answered⟩ := told
      rw [Executor.answer?, List.lookup_eq_none_iff] at untold
      simpa using untold _ answered
  obtain ⟨_, _, _, instant, next, _⟩ := deadline?_le pending
  apply Exists.intro instant
  apply And.intro next
  apply Nat.le_of_not_lt
  intro past
  have overdue := Executor.overdue_of_le (Executor.overdue_of_deadline? next) (Nat.le_of_lt past)
  cases timely.symm.trans overdue

theorem effort_expire (orderly : system.executor.Orderly)
    (overdue : system.executor.overdue system.now = true) :
    effort { system with executor := system.executor.expire system.now } < effort system := by
  have fewer := Executor.length_pending_expire_lt orderly overdue
  have same : (unbegun (system.executor.expire system.now)).length ≤
      (unbegun system.executor).length :=
    ((system.executor.hand_expire_sublist system.now).filter _).length_le
  have slack := Bool.toNat_le (!(system.executor.expire system.now).overdue system.now)
  simp only [effort, overdue, Bool.not_true, Bool.toNat_false]
  omega

/-- A call that has a permit can begin. -/
theorem begins (calm : system.Calm) (timely : system.executor.overdue system.now = false)
    {running : Running Body} (member : running ∈ system.executor.running)
    (fresh : running.work.phase.isFresh = true) :
    ∃ number after, system.onward? (.serve number) = some after ∧ effort after < effort system := by
  obtain ⟨number, there⟩ := List.getElem?_of_mem member
  obtain ⟨service, phase, changed, found, goes⟩ :=
    exists_goOn_of_fresh (calm.known _ (Executor.mem_hand_of_running member)) fresh
  refine ⟨number, _, (by rw [onward?, there]; exact serveCall?_eq found goes), ?_⟩
  have later := (Stills.serve calm.orderly member found goes).orderly
  have fewer := length_unbegun_moved_lt calm.orderly member fresh (Service.not_fresh goes) later
  have same := length_pending_moved_le calm.orderly member phase later
  have slack := Bool.toNat_le (!(moved system.executor running phase).overdue system.now)
  simp only [effort, timely, Bool.not_false, Bool.toNat_true]
  omega

/-- As long as the call is not answered, something may happen by which there is less to be done. -/
theorem goes_on (under : system.Under post place)
    (waits : system.procedures[place]? = some (.waiting call next)) :
    ((system.executor.answer? call).isSome = true ∧ system.executor.overdue system.now = false) ∨
      ∃ event after, system.onward? event = some after ∧ system.inTime event = true ∧
        (∀ other, event ≠ .resume other) ∧ effort after < effort system := by
  cases timely : system.executor.overdue system.now with
  | true =>
    exact .inr ⟨.expire, _, by simp [onward?, expire?, timely], rfl, by simp,
      effort_expire under.orderly timely⟩
  | false =>
    by_cases told : (system.executor.answer? call).isSome = true
    · exact .inl ⟨told, rfl⟩
    right
    by_cases fresh : ∃ call ∈ system.executor.running, call.work.phase.isFresh = true
    · obtain ⟨running, member, fresh⟩ := fresh
      obtain ⟨number, after, done, less⟩ := begins under.toCalm timely member fresh
      exact ⟨.serve number, after, done, by simp [inTime, timely], by simp, less⟩
    -- Nobody can go on, so time passes up to the next deadline.
    · have untold : system.executor.answer? call = none := by simpa using told
      obtain ⟨instant, next, ahead⟩ := exists_deadline timely (under.waits _ _ waits).1 untold
      have stands : system.stands = true := by
        simp only [System.stands, Bool.and_eq_true, List.all_eq_true]
        constructor
        · intro progression member
          obtain ⟨other, there⟩ := List.getElem?_of_mem member
          cases progression with
          | yielded | taken => rfl
          | waiting number goes =>
            obtain rfl := under.alone other number goes there
            cases there.symm.trans waits
            simp [untold]
        · intro running member
          simpa using fun new => fresh ⟨running, member, new⟩
      refine ⟨.wait instant, _, by simp [onward?, ahead]; rfl, ?_, by simp, ?_⟩
      · simp [inTime, timely, next, stands]
      · simp [effort, timely, Executor.overdue_of_deadline? next]

/-- The call that a procedure waits for is answered in time. -/
theorem comes_to_answer (under : system.Under post place)
    (waits : system.procedures[place]? = some (.waiting call next)) :
    ∃ last, Relation.ReflTransGen PassesInTime system last ∧ last.Under post place ∧
      last.procedures[place]? = some (.waiting call next) ∧ system.host.Works last.host ∧
      (last.executor.answer? call).isSome = true ∧ last.executor.overdue last.now = false := by
  generalize bound : effort system = total
  induction total using Nat.strong_induction_on generalizing system with
  | _ total ih =>
    rcases under.goes_on waits with ⟨told, timely⟩ | ⟨event, after, done, keeps, apart, less⟩
    · exact ⟨system, .refl, under, waits, .refl _, told, timely⟩
    · have stills := Stills.of_onward? under.orderly done apart
      have still : after.procedures[place]? = some (.waiting call next) := by
        rcases stills.procedures place with same | ⟨⟨_, yielded⟩, _⟩
        · exact same.trans waits
        · cases yielded.symm.trans waits
      obtain ⟨last, run, under, waits, works, ends⟩ :=
        ih (effort after) (bound ▸ less) (under.stills stills) still rfl
      exact ⟨last, .head ⟨event, done, keeps⟩ run, under, waits, stills.works.trans works, ends⟩

/-- A procedure comes to its end in time, wherever it is placed in a calm system in which nobody
else waits. -/
def Returns (place : Nat) (flow : Flow (Yield ρ)) (host : Host) : Prop :=
  ∀ (system : System ρ) (procedures : List (Progression ρ)), system.Calm → system.host = host →
    procedures[place]? = some (system.runFlow flow).1 →
    (∀ other call next, procedures[other]? = some (.waiting call next) → other = place) →
    ∃ last, Relation.ReflTransGen PassesInTime (system.placed flow procedures) last ∧
      (last.yield? place).isSome = true

theorem returns_of_waits (under : system.Under post place)
    (waits : system.procedures[place]? = some (.waiting call next))
    (onward : ∀ answer after, system.host.Works after → Returns place (next answer) after) :
    ∃ last, Relation.ReflTransGen PassesInTime system last ∧ (last.yield? place).isSome = true := by
  obtain ⟨middle, run, under, waits, works, told, timely⟩ := under.comes_to_answer waits
  obtain ⟨answer, told⟩ := Option.isSome_iff_exists.mp told
  have bound := (List.getElem?_eq_some_iff.mp waits).1
  obtain ⟨last, more, yields⟩ := onward answer middle.host works (middle.without call) _
    ⟨under.orderly.forget call, under.known⟩ rfl (List.getElem?_set_self bound) (under.alone_set _)
  have resumes : PassesInTime middle _ :=
    ⟨.resume place, onward?_resume waits told, by simp [inTime, timely]⟩
  exact ⟨last, (run.tail resumes).trans more, yields⟩

theorem returns_of_ensures {host : Host} (ensures : flow.Ensures post host) :
    Returns place flow host := by
  -- Along the calls of the procedure; each is answered by its deadline.
  induction ensures with
  | done run =>
    intro system procedures calm same here alone
    subst same
    rw [runFlow_eq_reached run] at here
    exact ⟨_, .refl, by simp [yield?, System.placed, here, reachedAt]⟩
  | call run grows known onward ih =>
    intro system procedures calm same here alone
    subst same
    have under := Under.placed calm (.call run grows known onward) here alone
    have host : (system.placed _ procedures).host = _ := congrArg (System.host ∘ Prod.snd)
      (runFlow_eq_reached run)
    rw [runFlow_eq_reached run] at here
    apply under.returns_of_waits here
    rwa [host]

/-- From wherever the procedure waits, it comes to its end in time. -/
theorem returns (under : system.Under post place)
    (waits : system.procedures[place]? = some (.waiting call next)) :
    ∃ last, Relation.ReflTransGen PassesInTime system last ∧ (last.yield? place).isSome = true :=
  under.returns_of_waits waits fun answer after works =>
    returns_of_ensures ((under.waits call next waits).2 answer after works)

end Under

end ServiceHost.System
