import ServiceHost.Proofs.Host.Prompt

/-! A removal, or a row of them, with nothing else under way: where its one call is. -/

set_option autoImplicit false

namespace ServiceHost

/-- Whether all servers in the directory are around services with a run loop. -/
def Host.Lively (host : Host) : Prop :=
  ∀ id server number, host.directory.get? id = some server →
    host.serviceOf server = some number →
    ∃ service, host.service? number = some (.threaded service)

/-- A host from which nothing but ids has been taken out. -/
structure Host.Shrinks (host after : Host) : Prop where
  alike : Host.Alike host after
  there : ∀ id server, after.directory.get? id = some server →
    host.directory.get? id = some server

namespace Host.Shrinks

variable {host middle after : Host}

theorem refl (host : Host) : Shrinks host host := ⟨.refl host, fun _ _ there => there⟩

theorem trans (left : Shrinks host middle) (right : Shrinks middle after) : Shrinks host after :=
  ⟨left.alike.trans right.alike, fun id server there => left.there _ _ (right.there id server there)⟩

theorem noted (host : Host) (server : ServerId) (query : Query) (answer : CallAnswer) :
    Shrinks host (host.noted server query answer) :=
  ⟨(Alike.refl host).noted .., fun _ _ there => by rwa [directory_noted] at there⟩

theorem record (host : Host) (server : ServerId) (cause : HostError) :
    Shrinks host (host.record server cause) :=
  ⟨(Alike.refl host).record .., fun _ _ there => there⟩

theorem leave (host : Host) (id : String) : Shrinks host (host.leave id) :=
  ⟨(Alike.refl host).leave id, fun _ _ => host.registered_of_leave⟩

theorem unregistered (host : Host) (id : String) (server : ServerId) (stopped : Bool) :
    Shrinks host (Registry.unregistered id server stopped host) :=
  ⟨(Alike.refl host).unregistered ..,
    fun _ _ => Registry.registered_of_unregistered host server⟩

theorem lively (shrinks : Shrinks host after) (lively : host.Lively) : after.Lively := by
  intro id server number there held
  rw [shrinks.alike.serviceOf] at held
  rw [service?_eq_of_services shrinks.alike.services]
  exact lively id server number (shrinks.there id server there) held

theorem of_sweep {result : Answer} {ids : List String} {halt : Halt}
    (sweep : Sweep result ids host halt after) : Shrinks host after :=
  ⟨sweep.alike, fun _ _ => sweep.registered⟩

end Host.Shrinks

theorem Stage.Section.shrinks {stage : Stage} {answer : CallAnswer} {host after : Host} {halt : Halt}
    (part : stage.Section host answer halt after) {about : String × ServerId}
    (removal : stage.removal? = some about) : Host.Shrinks host after := by
  cases part with
  | unwrapped | duplicate | entered | starts | started | rollsBack | answered => cases removal
  | judged _ sweep => exact ((Host.Shrinks.noted ..).trans (.leave ..)).trans (.of_sweep sweep)
  | stops => exact .noted ..
  | outrun _ _ sweep =>
    exact (((Host.Shrinks.noted ..).trans (.record ..)).trans (.unregistered ..)).trans
      (.of_sweep sweep)
  | stopped sweep =>
    exact ((Host.Shrinks.noted ..).trans (.unregistered ..)).trans (.of_sweep sweep)

/-- A removal waits for a server that it has found in the directory. -/
theorem Stage.Section.waits_for {stage waiting : Stage} {answer : CallAnswer} {host after : Host}
    {service : ServiceId} (part : stage.Section host answer (.waits service waiting) after)
    {about : String × ServerId} (removal : stage.removal? = some about)
    (there : host.directory.get? about.1 = some about.2) :
    ∃ id server, waiting.removal? = some (id, server) ∧ after.Lists id server service := by
  cases part with
  | starts => cases removal
  | judged _ sweep | outrun _ _ sweep | stopped sweep =>
    obtain ⟨id, server, rest, rfl, lists⟩ := sweep.waits_for
    exact ⟨id, server, rfl, lists⟩
  | stops _ alive =>
    cases removal
    exact ⟨_, _, rfl, Host.Lists.noted ⟨there, alive⟩ ..⟩

namespace System

variable {before after : System Answer} {stages later : Nat → Option Stage} {event : Event}
  {place : Nat} {stage : Stage} {call : Running Body} {since : Nat}

/-! ## Where the call is -/

/-- The only call under way is made for the procedure in a place, which waits for its answer. -/
structure Asking (system : System Answer) (place : Nat) (stage : Stage) (call : Running Body)
    (since : Nat) : Prop where
  waits : system.procedures[place]? = some (.waiting call.request.id stage.next)
  queue : system.executor.queue = []
  running : system.executor.running = [call]
  awaited : call.awaited = true
  expires : call.request.expires = since + callDeadline
  query : call.work.query = stage.query
  unanswered : system.executor.answer? call.request.id = none
  /-- Before the call has begun, no time passes. -/
  timely : call.work.phase = .fresh ∧ system.now = since ∨
    ∃ generation, call.work.phase = .stopping generation (since + stopGrace) ∧
      system.now ≤ since + stopGrace
  threaded : ∃ service, system.host.service? call.work.service = some (.threaded service)

/-- The procedure in a place has been answered, and no call is under way. -/
structure Told (system : System Answer) (place : Nat) (stage : Stage) (answer : CallAnswer) :
    Prop where
  idle : system.executor.Idle
  waits : ∃ number, system.procedures[place]? = some (.waiting number stage.next) ∧
    system.executor.answer? number = some answer

/-- How far a removal is that is alone. -/
inductive Posture (system : System Answer) (place : Nat) : Option Stage → Prop where
  | ended : system.executor.Idle → Posture system place none
  | asks {stage : Stage} {call : Running Body} {since : Nat} {id : String} {server : ServerId} :
      stage.removal? = some (id, server) → system.host.directory.get? id = some server →
      system.Asking place stage call since → Posture system place (some stage)
  | told {stage : Stage} {answer : CallAnswer} {id : String} {server : ServerId} :
      stage.removal? = some (id, server) → system.host.directory.get? id = some server →
      system.Told place stage answer → Posture system place (some stage)

/-- What can happen while a removal is alone. -/
inductive Move (before : System Answer) (stages : Nat → Option Stage) (place : Nat) :
    System Answer → (Nat → Option Stage) → Prop where
  /-- Something that does not concern the removal and its call. -/
  | stays {after : System Answer} :
      after.executor = before.executor → after.now = before.now →
      after.host.directory = before.host.directory → after.host.servers = before.host.servers →
      (∀ call next, before.procedures[place]? = some (.waiting call next) →
        after.procedures[place]? = some (.waiting call next)) →
      (∀ number service, before.host.service? number = some (.threaded service) →
        ∃ next, after.host.service? number = some (.threaded next) ∧
          (next = service ∨ service.Stir next)) →
      Move before stages place after stages
  | waits {instant : Nat} :
      before.prompts (.wait instant) = true →
      Move before stages place { before with now := instant } stages
  | turns {call : Running Body} {service next : Threaded} {phase : Phase} :
      before.executor.running = [call] →
      before.host.service? call.work.service = some (.threaded service) →
      service.Turn before.now call.work.query call.work.phase phase next →
      Move before stages place
        { before.withService call.work.service (.threaded next) with
          executor := moved before.executor call phase } stages
  | resumes {stage : Stage} {call : Nat} {answer : CallAnswer} {halt : Halt} {host : Host} :
      stages place = some stage →
      before.procedures[place]? = some (.waiting call stage.next) →
      before.executor.answer? call = some answer →
      stage.Section before.host answer halt host →
      Move before stages place
        { (before.answered call).arrived host halt with
          procedures := before.procedures.set place ((before.answered call).progression halt) }
        (Stage.put stages place halt.stage?)

/-- The call of a removal begins at once, and a stop ends within its grace. -/
theorem Asking.before_deadline (asking : before.Asking place stage call since) :
    before.now < call.request.expires := by
  have grace : stopGrace < callDeadline := by decide
  rw [asking.expires]
  rcases asking.timely with ⟨_, now⟩ | ⟨_, _, bound⟩ <;> omega

theorem Posture.not_overdue {stage? : Option Stage} (posture : before.Posture place stage?) :
    before.executor.overdue before.now = false := by
  cases posture with
  | ended idle => simp [Executor.overdue, idle.queue, idle.running]
  | told _ _ told => simp [Executor.overdue, told.idle.queue, told.idle.running]
  | asks _ _ asking =>
    refine Bool.eq_false_iff.mpr fun overdue => ?_
    have late := Executor.overdue_of_sole asking.queue asking.running asking.awaited overdue
    exact absurd late (Nat.not_le_of_lt asking.before_deadline)

theorem Posture.removal (posture : before.Posture place (some stage)) :
    ∃ about, stage.removal? = some about := by
  cases posture with
  | asks removal | told removal => exact ⟨_, removal⟩

theorem Posture.move (posture : before.Posture place (stages place)) (sound : before.Sound)
    (alone : ∀ other, other ≠ place → stages other = none)
    (step : before.Step stages event after later) (prompt : before.prompts event = true) :
    before.Move stages place after later := by
  have unmoved : ∀ number service, before.host.service? number = some (.threaded service) →
      ∃ next, before.host.service? number = some (.threaded next) ∧
        (next = service ∨ service.Stir next) := fun _ service found => ⟨service, found, .inl rfl⟩
  cases step with
  | launch => cases prompt
  | @resume resumed _ _ _ _ _ stands waits told part =>
    by_cases same : resumed = place
    · subst same
      exact .resumes stands waits told part
    · rw [alone resumed same] at stands
      cases stands
  | @serve served call service next phase there found goes =>
    -- The only call that can be served is that of the removal, of a service with a run loop.
    have member := List.mem_of_getElem? there
    generalize at_ : stages place = stage? at posture
    cases posture with
    | ended idle =>
      rw [idle.running] at member
      cases member
    | told _ _ told =>
      rw [told.idle.running] at member
      cases member
    | asks _ _ asking =>
      rw [asking.running] at member
      cases List.mem_singleton.mp member
      obtain ⟨threaded, same⟩ := asking.threaded
      cases found.symm.trans same
      obtain ⟨⟨turned, last⟩, went, equation⟩ := Option.map_eq_some_iff.mp goes
      cases equation
      exact .turns asking.running found
        (sound.turn (asking.running ▸ List.mem_singleton.mpr rfl) found went)
  | @stir _ changing service next _ found stir =>
    refine .stays rfl rfl rfl rfl (fun _ _ waits => waits) fun number other there => ?_
    by_cases own : number = changing
    · subst own
      cases found.symm.trans there
      exact ⟨next, service?_withService_self found _, .inr stir⟩
    · exact ⟨other, (service?_withService_of_ne _ own _).trans there, .inl rfl⟩
  | expire overdue => cases posture.not_overdue.symm.trans overdue
  | @take taken name yield yielded =>
    refine .stays rfl rfl rfl rfl (fun call next waits => ?_) unmoved
    have apart : place ≠ taken := by
      rintro rfl
      simp [yield?, waits] at yielded
    exact (List.getElem?_set_ne (Ne.symm apart)).trans waits
  | drop => exact .stays rfl rfl rfl rfl (fun _ _ waits => waits) unmoved
  | wait => exact .waits prompt

/-! ## How the call goes on -/

/-- A call that is made while none is under way is the only one. -/
theorem asking_of_arrived (base after : System Answer) (host : Host) {service : ServiceId}
    (idle : base.executor.Idle) (permits : 0 < base.executor.capacity)
    (numbered : base.executor.Numbered)
    (executor : after.executor = (base.arrived host (.waits service stage)).executor)
    (now : after.now = base.now)
    (waits : after.procedures[place]? = some (base.progression (.waits service stage)))
    (threaded : ∃ found, after.host.service? service = some (.threaded found)) :
    ∃ request, after.Asking place stage ⟨request, true, ⟨service, stage.query, .fresh⟩⟩ base.now := by
  let request : Request :=
    ⟨base.executor.issued, stage.query.operation, callDeadline, base.now + callDeadline⟩
  have submitted := Executor.submit_of_idle idle permits base.now stage.query.operation callDeadline
    ⟨service, stage.query, .fresh⟩
  have executor := executor.trans submitted
  exact ⟨request, {
    waits
    queue := by rw [executor]; exact idle.queue
    running := by rw [executor]
    awaited := rfl
    expires := rfl
    query := rfl
    unanswered := by rw [executor]; exact numbered.unanswered
    timely := .inl ⟨rfl, now⟩
    threaded }⟩

/-- A removal that goes on makes its next call while none is under way. -/
theorem Told.asks {answer : CallAnswer} (told : before.Told place stage answer)
    (permits : 0 < before.executor.capacity) (numbered : before.executor.Numbered) {number : Nat}
    {host : Host} {service : ServiceId} {waiting : Stage}
    (waits : before.procedures[place]? = some (.waiting number stage.next))
    (threaded : ∃ found, host.service? service = some (.threaded found)) :
    ∃ request, System.Asking
      { (before.answered number).arrived host (.waits service waiting) with
        procedures := before.procedures.set place
          ((before.answered number).progression (.waits service waiting)) }
      place waiting ⟨request, true, ⟨service, waiting.query, .fresh⟩⟩ before.now := by
  have bound := (List.getElem?_eq_some_iff.mp waits).1
  exact asking_of_arrived (before.answered number) _ host (told.idle.forget number) permits
    (numbered.forget number) rfl rfl (List.getElem?_set_self bound) threaded

theorem Asking.stays (asking : before.Asking place stage call since)
    (executor : after.executor = before.executor) (now : after.now = before.now)
    (waits : ∀ call next, before.procedures[place]? = some (.waiting call next) →
      after.procedures[place]? = some (.waiting call next))
    (services : ∀ number service, before.host.service? number = some (.threaded service) →
      ∃ next, after.host.service? number = some (.threaded next)) :
    after.Asking place stage call since where
  waits := waits _ _ asking.waits
  queue := by rw [executor]; exact asking.queue
  running := by rw [executor]; exact asking.running
  awaited := asking.awaited
  expires := asking.expires
  query := asking.query
  unanswered := by rw [executor]; exact asking.unanswered
  timely := by rw [now]; exact asking.timely
  threaded := by
    obtain ⟨service, found⟩ := asking.threaded
    exact services _ service found

/-- Time passes only while the call is a stop that waits, and not beyond its grace. -/
theorem Asking.wait (asking : before.Asking place stage call since) {instant : Nat}
    (prompt : before.prompts (.wait instant) = true) :
    System.Asking { before with now := instant } place stage call since where
  waits := asking.waits
  queue := asking.queue
  running := asking.running
  awaited := asking.awaited
  expires := asking.expires
  query := asking.query
  unanswered := asking.unanswered
  timely := by
    have member : call ∈ before.executor.running :=
      asking.running ▸ List.mem_singleton.mpr rfl
    -- A call that has not begun is ready, and then no time passes.
    rcases asking.timely with ⟨fresh, _⟩ | ⟨generation, stopping, _⟩
    · obtain ⟨service, found⟩ := asking.threaded
      exact absurd fresh (not_fresh_of_quiet (quiet_of_wait prompt) member found)
    · exact .inr ⟨generation, stopping, wait_le_timer prompt member (by rw [stopping]; rfl)⟩
  threaded := asking.threaded

theorem Asking.ends (asking : before.Asking place stage call since) {service : Service}
    {reply : Except ServiceError Reply} :
    System.Told
      { before.withService call.work.service service with
        executor := moved before.executor call (.ended (.value reply)) }
      place stage (.ok reply) := by
  have finished := Executor.finish_of_sole asking.queue asking.running asking.awaited reply
  refine ⟨⟨?_, ?_⟩, call.request.id, asking.waits, ?_⟩
  · exact (congrArg Executor.queue finished).trans asking.queue
  · exact congrArg Executor.running finished
  · have unanswered := asking.unanswered
    have told := congrArg (Executor.answer? · call.request.id) finished
    refine told.trans ?_
    -- Numbers do not come again, so that no older answer is found first.
    unfold Executor.answer? at unanswered ⊢
    rw [List.lookup_append, unanswered]
    simp

/-- A stop that begins to wait has its grace before it. -/
theorem Asking.waits_on (asking : before.Asking place stage call since) {service : Threaded}
    {generation : Nat} (fresh : call.work.phase = .fresh)
    (known : ∃ earlier, before.host.service? call.work.service = some (.threaded earlier)) :
    System.Asking
      { before.withService call.work.service (.threaded service) with
        executor := moved before.executor call (.stopping generation (before.now + stopGrace)) }
      place stage
      { call with work.phase := .stopping generation (before.now + stopGrace) } since where
  waits := asking.waits
  queue := asking.queue
  running := congrArg Executor.running (Executor.continueWith_of_sole asking.running _)
  awaited := asking.awaited
  expires := asking.expires
  query := asking.query
  unanswered := asking.unanswered
  timely := by
    rcases asking.timely with ⟨_, now⟩ | ⟨_, stopping, _⟩
    · rw [now]
      exact .inr ⟨generation, rfl, by simp [withService, now]⟩
    · rw [fresh] at stopping
      cases stopping
  threaded := by
    obtain ⟨earlier, found⟩ := known
    exact ⟨service, service?_withService_self found _⟩

theorem Move.capacity (move : before.Move stages place after later) :
    after.executor.capacity = before.executor.capacity := by
  cases move with
  | stays executor => rw [executor]
  | waits => rfl
  | @turns _ _ _ phase => cases phase <;> rfl
  | @resumes _ _ _ halt => cases halt <;> rfl

theorem Move.alone (move : before.Move stages place after later)
    (alone : ∀ other, other ≠ place → stages other = none) :
    ∀ other, other ≠ place → later other = none := by
  cases move with
  | stays | waits | turns => exact alone
  | resumes =>
    intro other apart
    rw [Stage.put_of_ne apart, alone other apart]

/-- Whatever happens, the directory only shrinks, and the servers keep their services. -/
theorem Move.shrinks (move : before.Move stages place after later)
    (posture : before.Posture place (stages place)) :
    (∀ id server, after.host.directory.get? id = some server →
      before.host.directory.get? id = some server) ∧
    ∀ server, after.host.serviceOf server = before.host.serviceOf server := by
  cases move with
  | stays _ _ directory servers =>
    exact ⟨fun id server there => by rwa [directory] at there,
      fun server => by rw [Host.serviceOf, Host.serviceOf, Host.server?, Host.server?, servers]⟩
  | waits | turns => exact ⟨fun _ _ there => there, fun _ => rfl⟩
  | @resumes stage _ _ halt host stands waits told part =>
    rw [stands] at posture
    obtain ⟨about, removal⟩ := posture.removal
    have shrinks := part.shrinks removal
    exact ⟨fun id server there => shrinks.there id server (by simpa using there),
      fun server => by simpa using shrinks.alike.serviceOf server⟩

theorem Step.lively (step : before.Step stages event after later) (sound : before.Sound)
    (lively : before.host.Lively)
    (there : ∀ id server, after.host.directory.get? id = some server →
      before.host.directory.get? id = some server)
    (held : ∀ server, after.host.serviceOf server = before.host.serviceOf server) :
    after.host.Lively := by
  intro id server number found holds
  obtain ⟨service, earlier⟩ := lively id server number (there id server found) (held server ▸ holds)
  obtain ⟨next, now, _⟩ := step.effect sound earlier
  exact ⟨next, now⟩

/-- A removal that is alone stays alone, and in one of its postures. -/
theorem Posture.step (posture : before.Posture place (stages place))
    (permits : 0 < before.executor.capacity) (numbered : before.executor.Numbered)
    (lively : after.host.Lively) (move : before.Move stages place after later) :
    after.Posture place (later place) := by
  generalize at_ : stages place = stage? at posture
  cases move with
  | stays executor now directory servers waits services =>
    rw [at_]
    have threaded : ∀ number service, before.host.service? number = some (.threaded service) →
        ∃ next, after.host.service? number = some (.threaded next) := fun number service found => by
      obtain ⟨next, there, _⟩ := services number service found
      exact ⟨next, there⟩
    cases posture with
    | ended idle => exact .ended (executor ▸ idle)
    | asks removal there asking =>
      exact .asks removal (directory ▸ there) (asking.stays executor now waits threaded)
    | told removal there told =>
      obtain ⟨number, waiting, answered⟩ := told.waits
      exact .told removal (directory ▸ there)
        ⟨executor ▸ told.idle, number, waits _ _ waiting, executor ▸ answered⟩
  | waits prompt =>
    rw [at_]
    cases posture with
    | ended idle => exact .ended idle
    | asks removal there asking => exact .asks removal there (asking.wait prompt)
    | told removal there told =>
      obtain ⟨number, waiting, answered⟩ := told.waits
      cases (not_answered_of_quiet (quiet_of_wait prompt) waiting).symm.trans answered
  | @turns call service next phase running found turn =>
    rw [at_]
    cases posture with
    | ended idle => cases idle.running.symm.trans running
    | told _ _ told => cases told.idle.running.symm.trans running
    | asks removal there asking =>
      cases asking.running.symm.trans running
      rcases turn.phase_cases with ⟨reply, rfl⟩ | ⟨generation, rfl, fresh⟩
      · exact .told removal there asking.ends
      · exact .asks removal there (asking.waits_on fresh ⟨_, found⟩)
  | @resumes stage number answer halt host stands waits answered part =>
    cases at_.symm.trans stands
    rw [Stage.put_self]
    cases posture with
    -- The call that the procedure waits for has no answer yet.
    | asks _ _ asking =>
      cases asking.waits.symm.trans waits
      cases asking.unanswered.symm.trans answered
    | told removal there told =>
      cases halt with
      | ended yield => exact .ended (told.idle.forget number)
      | waits service waiting =>
        obtain ⟨id, server, removing, lists⟩ := part.waits_for removal there
        obtain ⟨request, asking⟩ := told.asks permits numbered waits
          (lively id server service lists.there lists.held)
        exact .asks removing lists.there asking

end System
end ServiceHost
