import ServiceHost.Proofs.Host.Ownership

/-! What one event can do to one service with a run loop, and what holds of all services at
any time.
-/

set_option autoImplicit false

namespace ServiceHost

theorem Scripted.not_stopping {service after : Scripted} {now : Nat} {query : Query}
    {before phase : Phase} (goes : service.goOn now query before = some (phase, after))
    {generation expires : Nat} : phase ≠ .stopping generation expires := by
  rintro rfl
  unfold Scripted.goOn at goes
  split at goes
  · cases goes
  · split at goes <;> cases goes
  · cases goes

namespace System

/-- What holds of the services of a system at any time. -/
structure Sound (system : System Answer) : Prop where
  threaded : ∀ id service, system.host.service? id = some (.threaded service) → service.Sound
  /-- A stop that waits for a run has asked it to stop. -/
  asked : ∀ body ∈ system.executor.bodies, ∀ generation expires,
    body.phase = .stopping generation expires →
    ∃ service, system.host.service? body.service = some (.threaded service) ∧
      service.lifecycle.stopRequested generation = true

/-- What an event makes of a service. -/
inductive Effect (before : System Answer) (stages : Nat → Option Stage) (after : System Answer)
    (id : ServiceId) (service : Threaded) : Threaded → Prop where
  | same : Effect before stages after id service service
  | killed {holder : Holder} :
      before.host.holds stages id holder → Effect before stages after id service service.kill
  | configured {holder : Holder} (config : Properties) :
      before.host.holds stages id holder →
      Effect before stages after id service { service with config }
  | turned {call : Running Body} {phase : Phase} {next : Threaded} :
      call ∈ before.executor.running → call.work.service = id →
      service.Turn before.now call.work.query call.work.phase phase next →
      after.executor = moved before.executor call phase →
      Effect before stages after id service next
  | stirred {next : Threaded} : service.Stir next → Effect before stages after id service next

variable {before after : System Answer} {stages later : Nat → Option Stage} {event : Event}
  {id : ServiceId} {service next : Threaded}

theorem service?_withService (system : System Answer) (id other : ServiceId) (service : Service) :
    (system.withService id service).host.service? other =
      if other = id then (system.host.service? other).map fun _ => service
      else system.host.service? other :=
  system.host.service?_updateService id other fun _ => service

theorem service?_withService_self {system : System Answer} {old : Service}
    (found : system.host.service? id = some old) (service : Service) :
    (system.withService id service).host.service? id = some service := by
  rw [service?_withService, if_pos rfl, found]
  rfl

theorem service?_withService_of_ne (system : System Answer) {other : ServiceId}
    (apart : other ≠ id) (service : Service) :
    (system.withService id service).host.service? other = system.host.service? other := by
  rw [service?_withService, if_neg apart]

namespace Effect

theorem sound (sound : service.Sound) (effect : before.Effect stages after id service next) :
    next.Sound := by
  cases effect with
  | same => exact sound
  | killed => exact sound.kill
  | configured config => exact sound.withConfig config
  | turned _ _ turn => exact turn.sound sound
  | stirred stir => exact stir.sound sound

theorem extends_ (sound : service.Sound) (effect : before.Effect stages after id service next) :
    service.lifecycle.Extends next.lifecycle := by
  cases effect with
  | same | configured => exact .refl _
  | killed => exact .kill sound.machine
  | turned _ _ turn => exact turn.extends sound
  | stirred stir => exact stir.extends sound

theorem loop (effect : before.Effect stages after id service next) : next.loop = service.loop := by
  cases effect with
  | same | configured | killed => rfl
  | turned _ _ turn => exact turn.loop
  | stirred stir => exact stir.machine.2.2.2

theorem of_deals {host : Host} {wrapped : Option ServiceId} (deals : before.host.Deals wrapped host)
    (same : after.host = host)
    (holds : ∀ id, wrapped = some id → ∃ place, before.host.holds stages id (.procedure place))
    (found : before.host.service? id = some (.threaded service)) :
    ∃ next, after.host.service? id = some (.threaded next) ∧
      before.Effect stages after id service next := by
  subst same
  obtain ⟨other, there, rfl | ⟨handled, held⟩⟩ := deals.services id _ found
  · exact ⟨service, there, .same⟩
  · have held : ∃ holder, before.host.holds stages id holder := by
      rcases held with wrapped | ⟨server, held⟩
      · obtain ⟨place, held⟩ := holds id wrapped
        exact ⟨_, held⟩
      · exact ⟨.server server, held⟩
    obtain ⟨holder, held⟩ := held
    cases handled with
    | killed => exact ⟨_, there, .killed held⟩
    | configured config => exact ⟨_, there, .configured config held⟩

end Effect

theorem Sound.turn (sound : before.Sound) {call : Running Body} {phase : Phase}
    (member : call ∈ before.executor.running)
    (served : before.host.service? call.work.service = some (.threaded service))
    (goes : service.goOn before.now call.work.query call.work.phase = some (phase, next)) :
    service.Turn before.now call.work.query call.work.phase phase next := by
  refine Threaded.goOn_turn (sound.threaded _ _ served) (fun generation expires stopping => ?_) goes
  obtain ⟨other, same, requested⟩ := sound.asked call.work
    (List.mem_append_right _ (List.mem_map_of_mem member)) generation expires stopping
  cases same.symm.trans served
  exact requested

/-- A service with a run loop stays one, and one of these things happens to it. -/
theorem Step.effect (step : before.Step stages event after later) (sound : before.Sound)
    (found : before.host.service? id = some (.threaded service)) :
    ∃ next, after.host.service? id = some (.threaded next) ∧
      before.Effect stages after id service next := by
  cases step with
  | launch part =>
    exact Effect.of_deals part.deals (host_arrived ..) (fun _ none => by cases none) found
  | @resume place _ _ _ _ _ stands _ _ part =>
    refine Effect.of_deals part.deals (host_arrived ..) (fun id wrapped => ⟨place, ?_⟩) found
    simp [Host.holds, stands, wrapped]
  | @serve place call serving after phase there served goes =>
    by_cases own : call.work.service = id
    · subst own
      cases served.symm.trans found
      obtain ⟨⟨turned, next⟩, went, equation⟩ := Option.map_eq_some_iff.mp goes
      cases equation
      have member := List.mem_of_getElem? there
      exact ⟨next, service?_withService_self found _,
        .turned member rfl (sound.turn member found went) rfl⟩
    · exact ⟨service, (service?_withService_of_ne _ (Ne.symm own) _).trans found, .same⟩
  | @stir _ other changing next _ there stir =>
    by_cases own : id = other
    · subst own
      cases there.symm.trans found
      exact ⟨next, service?_withService_self found _, .stirred stir⟩
    · exact ⟨service, (service?_withService_of_ne _ own _).trans found, .same⟩
  | expire | take | drop | wait => exact ⟨service, found, .same⟩

theorem sound_of_new (new : Service.New (.threaded next)) : next.Sound := by
  cases new
  exact Threaded.sound_new ..

theorem kinds_of_deals {host after : Host} {wrapped : Option ServiceId}
    (deals : host.Deals wrapped after) (found : after.service? id = some (.threaded next)) :
    (host.service? id = none ∧ Service.New (.threaded next)) ∨
      ∃ service, host.service? id = some (.threaded service) := by
  cases earlier : host.service? id with
  | none => exact .inl ⟨rfl, deals.new id _ found earlier⟩
  | some service =>
    cases service with
    | threaded service => exact .inr ⟨service, rfl⟩
    | scripted service =>
      obtain ⟨other, there, rfl | ⟨handled, _⟩⟩ := deals.services id _ earlier <;>
        cases there.symm.trans found
      cases handled

/-- A service with a run loop was one before, unless it was just made. -/
theorem Step.kinds (step : before.Step stages event after later)
    (found : after.host.service? id = some (.threaded next)) :
    (before.host.service? id = none ∧ Service.New (.threaded next)) ∨
      ∃ service, before.host.service? id = some (.threaded service) := by
  cases step with
  | launch part => exact kinds_of_deals part.deals (by simpa using found)
  | resume _ _ _ part => exact kinds_of_deals part.deals (by simpa using found)
  | @serve place call serving after phase there served goes =>
    have found := (service?_withService ..).symm.trans found
    split at found
    · rename_i own
      subst own
      rw [served] at found
      cases found
      cases serving with
      | threaded service => exact .inr ⟨service, served⟩
      | scripted service =>
        obtain ⟨_, _, equation⟩ := Option.map_eq_some_iff.mp goes
        cases equation
    · exact .inr ⟨next, found⟩
  | @stir _ other changing next _ there stir =>
    rw [service?_withService] at found
    split at found
    · rename_i own
      subst own
      exact .inr ⟨changing, there⟩
    · exact .inr ⟨_, found⟩
  | expire | take | drop | wait => exact .inr ⟨next, found⟩

/-- What a call is after an event: it was the same call before, it is new, or it has gone on. -/
theorem Step.body_cases (step : before.Step stages event after later) {body : Body}
    (member : body ∈ after.executor.bodies) :
    body ∈ before.executor.bodies ∨ body.phase = .fresh ∨
      ∃ call phase, call ∈ before.executor.running ∧ body = { call.work with phase } ∧
        ∃ service other, before.host.service? call.work.service = some service ∧
          service.goOn before.now call.work.query call.work.phase = some (phase, other) ∧
          after.host.service? call.work.service = some other := by
  have arrived : ∀ (system : System Answer) (host : Host) (halt : Halt),
      body ∈ (system.arrived host halt).executor.bodies →
        body ∈ system.executor.bodies ∨ body.phase = .fresh := by
    intro system host halt member
    cases halt with
    | ended => exact .inl member
    | waits service stage =>
      rcases Executor.mem_of_mem_submit _ member with rfl | old
      · exact .inr rfl
      · exact .inl old
  cases step with
  | launch => exact (arrived _ _ _ member).imp_right .inl
  | resume => exact (arrived (before.answered _) _ _ member).imp_right .inl
  | @serve place call serving other phase there served goes =>
    have here : (before.withService call.work.service other).host.service? call.work.service =
        some other := service?_withService_self served _
    -- A call that ends makes room, and what goes on then was in the queue before.
    have moves : body ∈ before.executor.bodies ∨ body = { call.work with phase } := by
      cases phase with
      | ended ending => exact .inl (Executor.mem_of_mem_finish _ member)
      | fresh | planned | stopping =>
        exact (Executor.mem_of_mem_continueWith _ member).symm
    rcases moves with old | same
    · exact .inl old
    · exact .inr (.inr ⟨call, phase, List.mem_of_getElem? there, same, _, _, served, goes, here⟩)
  | expire => exact .inl ((Executor.sublist_expire ..).subset member)
  | stir | take | drop | wait => exact .inl member

/-- The request of a stop that waits is made before it waits. -/
theorem Step.sound (step : before.Step stages event after later) (sound : before.Sound) :
    after.Sound := by
  constructor
  · intro id next found
    rcases step.kinds found with ⟨_, new⟩ | ⟨service, earlier⟩
    · exact sound_of_new new
    · obtain ⟨other, there, effect⟩ := step.effect sound earlier
      cases there.symm.trans found
      exact effect.sound (sound.threaded _ _ earlier)
  -- A stop that waits has waited before, or begins to wait in the very go that asks the run.
  · intro body member generation expires stopping
    rcases step.body_cases member with old | fresh |
      ⟨call, phase, running, rfl, service, other, served, goes, here⟩
    · obtain ⟨service, served, requested⟩ := sound.asked body old generation expires stopping
      obtain ⟨next, there, effect⟩ := step.effect sound served
      exact ⟨next, there, (effect.extends_ (sound.threaded _ _ served)).requested _ requested⟩
    · rw [fresh] at stopping
      cases stopping
    · subst stopping
      cases service with
      | scripted service =>
        obtain ⟨⟨turned, next⟩, went, equation⟩ := Option.map_eq_some_iff.mp goes
        cases equation
        exact absurd rfl (Scripted.not_stopping went)
      | threaded service =>
        obtain ⟨⟨turned, next⟩, went, equation⟩ := Option.map_eq_some_iff.mp goes
        cases equation
        refine ⟨next, here, ?_⟩
        exact (sound.turn running served went).asks

/-- A host begins with nothing that could be unsound, and nothing that could be held. -/
theorem Trail.sound {host : Host} {capacity : Nat} {past : List Event} (unused : host.Unused)
    (trail : Trail (.start host capacity) past before stages) :
    before.Sound ∧ before.host.Owned stages := by
  induction trail with
  | start =>
    refine ⟨⟨fun id service found => ?_, fun _ member => by cases member⟩,
      ⟨fun id holder held => ?_, fun id first second held => ?_⟩⟩
    · simp [System.start, Host.service?, unused.services] at found
    · cases holder with
      | server => simp [Host.holds, System.start, Host.serviceOf, Host.server?, unused.servers] at held
      | procedure => cases held
    · cases first with
      | server => simp [Host.holds, System.start, Host.serviceOf, Host.server?, unused.servers] at held
      | procedure => cases held
  | next _ _ step ih => exact ⟨step.sound ih.1, step.owned ih.2⟩

end System
end ServiceHost
