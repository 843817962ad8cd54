import ServiceHost.Proofs.Host.Sections

/-! Who holds a service.

A service belongs to the procedure that wraps it, then to the server around it, and after
a kill to nobody. Nobody ever gets hold of a service that another holds, and calls go out
to services that are held.
-/

set_option autoImplicit false

namespace ServiceHost

/-! ## What a section does to services and servers -/

namespace Host

/-- Two hosts with the same services in the same servers. -/
structure Alike (host after : Host) : Prop where
  services : after.services = host.services
  serviceOf : ∀ server, after.serviceOf server = host.serviceOf server
  length : after.servers.length = host.servers.length

namespace Alike

variable {first host after : Host}

theorem refl (host : Host) : Alike host host := ⟨rfl, fun _ => rfl, rfl⟩

theorem of_servers (services : after.services = host.services)
    (servers : after.servers = host.servers) : Alike host after :=
  ⟨services, fun server => by rw [Host.serviceOf, Host.serviceOf, server?, server?, servers],
    by rw [servers]⟩

theorem trans (left : Alike first host) (right : Alike host after) : Alike first after :=
  ⟨right.services.trans left.services,
    fun server => (right.serviceOf server).trans (left.serviceOf server),
    right.length.trans left.length⟩

theorem leave (alike : Alike first host) (id : String) : Alike first (host.leave id) :=
  alike.trans (.of_servers rfl rfl)

theorem error (alike : Alike first host) (text : String) : Alike first (host.error text) :=
  alike.trans (.of_servers rfl rfl)

theorem record (alike : Alike first host) (server : ServerId) (cause : HostError) :
    Alike first (host.record server cause) :=
  alike.trans ⟨rfl, fun _ => serviceOf_record .., by simp [Host.record, updateServer]⟩

theorem noted (alike : Alike first host) (server : ServerId) (query : Query)
    (answer : CallAnswer) : Alike first (host.noted server query answer) := by
  rcases answer with cause | (cause | reply)
  · exact alike.record ..
  · exact alike.record ..
  · exact alike

theorem unregistered (alike : Alike first host) (id : String) (server : ServerId)
    (stopped : Bool) : Alike first (Registry.unregistered id server stopped host) := by
  unfold Registry.unregistered
  split
  · exact alike.leave id
  · exact (alike.error _).leave id

end Alike
end Host

theorem Sweep.alike {result : Answer} {ids : List String} {host after : Host} {halt : Halt}
    (sweep : Sweep result ids host halt after) : Host.Alike host after := by
  induction sweep with
  | ended | asks => exact .refl _
  | absent _ _ ih => exact ih
  | killed _ _ _ ih => exact ((Host.Alike.refl _).leave _).trans ih

/-- The service that a stage is about to put a server around. -/
def Stage.wraps? : Stage → Option ServiceId
  | wrapping service .. => some service
  | _ => none

theorem Host.lt_of_service? {host : Host} {id : ServiceId} {service : Service}
    (found : host.service? id = some service) : id < host.services.length := by
  obtain ⟨_, there, _⟩ := Option.map_eq_some_iff.mp found
  exact (List.getElem?_eq_some_iff.mp there).1

theorem Host.exists_service? {host : Host} {id : ServiceId} (bound : id < host.services.length) :
    ∃ service, host.service? id = some service :=
  ⟨_, by rw [Host.service?, List.getElem?_eq_getElem bound, Option.map_some]⟩

theorem Host.lt_of_serviceOf {host : Host} {server : ServerId} {id : ServiceId}
    (held : host.serviceOf server = some id) : server < host.servers.length := by
  obtain ⟨_, there, _⟩ := Option.bind_eq_some_iff.mp held
  exact (List.getElem?_eq_some_iff.mp there).1

/-- What the host does to a service outside of its calls. -/
inductive Service.Handled (service : Service) : Service → Prop where
  | killed : Handled service service.kill
  | configured (config : Properties) : Handled service (service.setConfig config)

/-- A service that has just been made. -/
inductive Service.New : Service → Prop where
  | threaded (typeName version stamp : String) (loop : RunLoop) :
      New (.threaded (.new typeName version stamp loop))
  | scripted (script : Query → Script) (state : State) : New (.scripted (.new script state))

/-- What a section does to services and servers, if it may wrap one service. -/
structure Host.Deals (wrapped : Option ServiceId) (host after : Host) : Prop where
  services : ∀ id service, host.service? id = some service → ∃ later,
    after.service? id = some later ∧
      (later = service ∨ service.Handled later ∧
        (wrapped = some id ∨ ∃ server, host.serviceOf server = some id))
  new : ∀ id service, after.service? id = some service → host.service? id = none → service.New
  length : host.services.length ≤ after.services.length
  servers : ∀ server id, after.serviceOf server = some id →
    host.serviceOf server = some id ∨ server = host.servers.length ∧ wrapped = some id
  /-- A server that lets go of its service has torn it down. -/
  lost : ∀ server id, host.serviceOf server = some id →
    after.serviceOf server = some id ∨
      after.serviceOf server = none ∧ after.service? id = (host.service? id).map Service.kill

namespace Host.Deals

variable {wrapped : Option ServiceId} {host first after last : Host}

theorem of_alike (alike : Alike host after) : Deals wrapped host after where
  services id service found := ⟨service, by rwa [service?_eq_of_services alike.services], .inl rfl⟩
  new id service found absent := by
    rw [service?_eq_of_services alike.services, absent] at found
    cases found
  length := Nat.le_of_eq (by rw [alike.services])
  servers server id held := .inl (by rwa [alike.serviceOf] at held)
  lost server id held := .inl (by rwa [alike.serviceOf])

theorem following (deals : Deals wrapped first after) (before : Alike host first) :
    Deals wrapped host after where
  services id service found := by
    rw [← service?_eq_of_services before.services] at found
    simpa only [before.serviceOf] using deals.services id service found
  new id service found absent := by
    rw [← service?_eq_of_services before.services] at absent
    exact deals.new id service found absent
  length := by
    rw [← before.services]
    exact deals.length
  servers server id held := by
    simpa only [before.serviceOf, before.length] using deals.servers server id held
  lost server id held := by
    rw [← before.serviceOf] at held
    simpa only [service?_eq_of_services before.services] using deals.lost server id held

theorem leading (deals : Deals wrapped host after) (behind : Alike after last) :
    Deals wrapped host last where
  services id service found := by
    obtain ⟨later, there, changes⟩ := deals.services id service found
    exact ⟨later, by rwa [service?_eq_of_services behind.services], changes⟩
  new id service found absent := by
    rw [service?_eq_of_services behind.services] at found
    exact deals.new id service found absent
  length := by
    rw [behind.services]
    exact deals.length
  servers server id held := by
    rw [behind.serviceOf] at held
    exact deals.servers server id held
  lost server id held := by
    simpa only [behind.serviceOf, service?_eq_of_services behind.services] using
      deals.lost server id held

theorem killServer (host : Host) (server : ServerId) :
    Deals wrapped host (host.killServer server).2 where
  services id service found := by
    rw [service?_killServer]
    split
    · rename_i held
      exact ⟨service.kill, by rw [found]; rfl, .inr ⟨.killed, .inr ⟨server, held⟩⟩⟩
    · exact ⟨service, found, .inl rfl⟩
  new id service found absent := by
    rw [service?_killServer, absent] at found
    split at found <;> cases found
  length := by
    unfold Host.killServer
    split <;> simp [updateServer, updateService]
  servers other id held := by
    rw [serviceOf_killServer] at held
    split at held
    · cases held
    · exact .inl held
  lost other id held := by
    rw [serviceOf_killServer, service?_killServer]
    by_cases same : other = server
    · subst same
      exact .inr ⟨if_pos rfl, if_pos held⟩
    · exact .inl ((if_neg same).trans held)

theorem configure (host : Host) (server : ServerId) (config : Properties) :
    Deals wrapped host (host.configure server config) where
  services id service found := by
    rw [service?_configure]
    split
    · rename_i held
      exact ⟨service.setConfig config, by rw [found]; rfl,
        .inr ⟨.configured config, .inr ⟨server, held⟩⟩⟩
    · exact ⟨service, found, .inl rfl⟩
  new id service found absent := by
    rw [service?_configure, absent] at found
    split at found <;> cases found
  length := by
    unfold Host.configure
    split <;> simp [updateService]
  servers other id held := .inl (by rwa [serviceOf_configure] at held)
  lost other id held := .inl (by rwa [serviceOf_configure])

theorem make (host : Host) (blueprint : Blueprint) :
    Deals wrapped host (Host.make blueprint host).2 := by
  obtain ⟨service, services, made⟩ := host.services_make blueprint
  have seen : ∀ id, (Host.make blueprint host).2.service? id =
      (host.services ++ [⟨blueprint.label, service⟩])[id]?.map Hosted.service := fun id => by
    rw [service?, services]
  refine ⟨fun id old found => ⟨old, ?_, .inl rfl⟩, fun id other found absent => ?_, ?_,
    fun server id held => .inl (by rwa [serviceOf_make] at held),
    fun server id held => .inl (by rwa [serviceOf_make])⟩
  · rw [seen, List.getElem?_append_left (lt_of_service? found)]
    exact found
  · rw [seen] at found
    -- The service was not there before, so it is the one that was appended.
    have beyond : host.services.length ≤ id :=
      List.getElem?_eq_none_iff.mp (Option.map_eq_none_iff.mp absent)
    rw [List.getElem?_append_right beyond] at found
    obtain ⟨hosted, there, rfl⟩ := Option.map_eq_some_iff.mp found
    rw [List.mem_singleton.mp (List.mem_of_getElem? there)]
    rcases made with ⟨typeName, version, stamp, loop, rfl⟩ | ⟨script, state, rfl⟩
    · exact .threaded ..
    · exact .scripted ..
  · simp [services]

/-- A server is put around a service, and then things are done to servers. -/
theorem addServer {server : Server} {service : ServiceId} {after : Host}
    (own : server.service = some service)
    (deals : Deals none (host.addServer server).2 after) : Deals (some service) host after where
  services id old found := by
    obtain ⟨later, there, same | ⟨handled, none | ⟨holder, held⟩⟩⟩ := deals.services id old found
    · exact ⟨later, there, .inl same⟩
    · cases none
    · refine ⟨later, there, .inr ⟨handled, ?_⟩⟩
      rw [serviceOf_addServer] at held
      split at held
      · exact .inl (own.symm.trans held)
      · exact .inr ⟨holder, held⟩
  new := deals.new
  length := deals.length
  servers holder id held := by
    rcases deals.servers holder id held with held | ⟨_, none⟩
    · rw [serviceOf_addServer] at held
      split at held
      · rename_i last
        exact .inr ⟨last, own.symm.trans held⟩
      · exact .inl held
    · cases none
  lost holder id held := by
    have there : (host.addServer server).2.serviceOf holder = some id := by
      rw [serviceOf_addServer, if_neg (Nat.ne_of_lt (lt_of_serviceOf held)), held]
    exact deals.lost holder id there

end Host.Deals

theorem Operation.Section.deals {operation : Operation} {host after : Host} {halt : Halt}
    (part : operation.Section host halt after) : Host.Deals none host after := by
  cases part with
  | rejected | absent | spares | calls | rests => exact .of_alike (.of_servers rfl rfl)
  | made => exact (Host.Deals.make ..).following (.of_servers rfl rfl)
  | removes _ sweep => exact .of_alike sweep.alike
  | shuts sweep => exact .of_alike sweep.alike
  | kills => exact (Host.Deals.killServer ..).following ((Host.Alike.refl _).leave _)
  | refused => exact .of_alike ((Host.Alike.refl _).record ..)
  | killsServer => exact .killServer ..
  | configures => exact .configure ..

theorem Stage.Section.deals {stage : Stage} {answer : CallAnswer} {host after : Host}
    {halt : Halt} (part : stage.Section host answer halt after) :
    Host.Deals stage.wraps? host after := by
  have same := Host.Alike.refl host
  cases part with
  | unwrapped | started => exact .of_alike same
  | duplicate => exact .addServer rfl (.killServer ..)
  | entered => exact .addServer rfl (.of_alike (.of_servers rfl rfl))
  | starts => exact .addServer rfl ((Host.Deals.configure ..).following (.of_servers rfl rfl))
  | rollsBack =>
    exact ((Host.Deals.killServer ..).following ((same.noted ..).leave _)).leading
      ((Host.Alike.refl _).error _)
  | judged _ sweep => exact .of_alike (((same.noted ..).leave _).trans sweep.alike)
  | stops | answered => exact .of_alike (same.noted ..)
  | outrun _ _ sweep =>
    exact .of_alike ((((same.noted ..).record ..).unregistered ..).trans sweep.alike)
  | stopped sweep => exact .of_alike (((same.noted ..).unregistered ..).trans sweep.alike)

/-! ## Who holds what -/

/-- Who can hold a service. -/
inductive Holder where
  | server (server : ServerId)
  /-- A procedure that is about to put a server around the service. -/
  | procedure (place : Nat)

def Host.holds (host : Host) (stages : Nat → Option Stage) (id : ServiceId) : Holder → Prop
  | .server server => host.serviceOf server = some id
  | .procedure place => (stages place).bind Stage.wraps? = some id

/-- Where somebody who holds a service has it from. -/
inductive Host.Origin (host : Host) (stages : Nat → Option Stage) (after : Host)
    (later : Nat → Option Stage) (place : Nat) (id : ServiceId) : Holder → Prop where
  | kept {holder : Holder} :
      host.holds stages id holder → Origin host stages after later place id holder
  | passed :
      host.holds stages id (.procedure place) → ¬after.holds later id (.procedure place) →
      Origin host stages after later place id (.server host.servers.length)
  | made :
      id = host.services.length → id < after.services.length →
      Origin host stages after later place id (.procedure place)

/-- Services that were made are held by one holder at most. -/
structure Host.Owned (host : Host) (stages : Nat → Option Stage) : Prop where
  bound : ∀ id holder, host.holds stages id holder → id < host.services.length
  sole : ∀ id first second, host.holds stages id first → host.holds stages id second →
    first = second

/-- A service that was made and that nobody holds. -/
structure Host.Abandoned (host : Host) (stages : Nat → Option Stage) (id : ServiceId) : Prop where
  made : id < host.services.length
  held : ∀ holder, ¬host.holds stages id holder

theorem Sweep.not_wraps {result : Answer} {ids : List String} {host after : Host} {halt : Halt}
    (sweep : Sweep result ids host halt after) : halt.stage?.bind Stage.wraps? = none := by
  induction sweep with
  | ended | asks => rfl
  | absent _ _ ih | killed _ _ _ ih => exact ih

theorem Sweep.calls_held {result : Answer} {ids : List String} {host after : Host}
    {service : ServiceId} {stage : Stage}
    (sweep : Sweep result ids host (.waits service stage) after) :
    ∃ server, after.serviceOf server = some service := by
  obtain ⟨_, server, _, _, lists⟩ := sweep.waits_for
  exact ⟨server, lists.held⟩

theorem Operation.Section.makes {operation : Operation} {host after : Host} {halt : Halt}
    {id : ServiceId} (part : operation.Section host halt after)
    (wraps : halt.stage?.bind Stage.wraps? = some id) :
    id = host.services.length ∧ id < after.services.length := by
  cases part with
  | made blueprint resolvers =>
    cases wraps
    obtain ⟨service, services, _⟩ := Host.services_make { host with resolvers } blueprint
    refine ⟨rfl, ?_⟩
    rw [services, List.length_append]
    exact Nat.lt_succ_self _
  | removes _ sweep | shuts sweep =>
    rw [sweep.not_wraps] at wraps
    cases wraps
  | rejected | absent | spares | kills | calls | refused | rests | killsServer | configures =>
    cases wraps

/-- Callers only reach services that are held. -/
theorem Operation.Section.calls_held {operation : Operation} {host after : Host}
    {service : ServiceId} {stage : Stage} (part : operation.Section host (.waits service stage) after) :
    stage.wraps? = some service ∨ ∃ server, after.serviceOf server = some service := by
  cases part with
  | made => exact .inl rfl
  | removes _ sweep | shuts sweep => exact .inr sweep.calls_held
  | calls alive => exact .inr ⟨_, alive⟩

theorem Stage.Section.not_wraps {stage : Stage} {answer : CallAnswer} {host after : Host}
    {halt : Halt} (part : stage.Section host answer halt after) :
    halt.stage?.bind Stage.wraps? = none := by
  cases part with
  | judged _ sweep | outrun _ _ sweep | stopped sweep => exact sweep.not_wraps
  | unwrapped | duplicate | entered | starts | started | rollsBack | stops | answered => rfl

theorem Stage.Section.calls_held {stage waiting : Stage} {answer : CallAnswer} {host after : Host}
    {service : ServiceId} (part : stage.Section host answer (.waits service waiting) after) :
    ∃ server, after.serviceOf server = some service := by
  cases part with
  | starts =>
    refine ⟨host.servers.length, ?_⟩
    rw [Host.serviceOf_configure, Host.serviceOf_enter, Host.serviceOf_addServer, if_pos rfl]
    rfl
  | judged _ sweep | outrun _ _ sweep | stopped sweep => exact sweep.calls_held
  | stops _ alive => exact ⟨_, by rwa [Host.serviceOf_noted]⟩

namespace System

variable {before after : System Answer} {stages later : Nat → Option Stage} {event : Event}

/-- Holders have what they hold from before, from a procedure that put a server around it, or it
was just made. -/
theorem Step.origin (step : before.Step stages event after later) :
    ∃ place, ∀ id holder, after.host.holds later id holder →
      before.host.Origin stages after.host later place id holder := by
  cases step with
  | @launch operation halt host part =>
    refine ⟨before.procedures.length, fun id holder held => ?_⟩
    cases holder with
    | server server =>
      simp only [Host.holds, host_arrived] at held
      rcases part.deals.servers server id held with held | ⟨_, none⟩
      · exact .kept held
      · cases none
    | procedure place =>
      by_cases same : place = before.procedures.length
      · subst same
        rw [Host.holds, Stage.put_self] at held
        obtain ⟨new, bound⟩ := part.makes held
        exact .made new (by simpa using bound)
      · rw [Host.holds, Stage.put_of_ne same] at held
        exact .kept held
  | @resume resumed call stage answer halt host stands _ _ part =>
    refine ⟨resumed, fun id holder held => ?_⟩
    -- A section never ends at a second service to be wrapped, so the first was passed on.
    have gives : ¬((before.answered call).arrived host halt).host.holds
        (Stage.put stages resumed halt.stage?) id (.procedure resumed) := by
      simp [Host.holds, part.not_wraps]
    cases holder with
    | server server =>
      simp only [Host.holds, host_arrived] at held
      rcases part.deals.servers server id held with held | ⟨rfl, wrapped⟩
      · exact .kept held
      · exact .passed (by simp [Host.holds, stands, wrapped]) gives
    | procedure place =>
      by_cases same : place = resumed
      · exact absurd (same ▸ held) gives
      · rw [Host.holds, Stage.put_of_ne same] at held
        exact .kept held
  | serve | stir | expire | take | drop | wait =>
    refine ⟨0, fun id holder held => .kept ?_⟩
    cases holder <;> exact held

theorem Step.services_le (step : before.Step stages event after later) :
    before.host.services.length ≤ after.host.services.length := by
  cases step with
  | launch part => simpa using part.deals.length
  | resume _ _ _ part => simpa using part.deals.length
  | serve | stir => simp [withService, Host.updateService]
  | expire | take | drop | wait => exact Nat.le_refl _

/-- No service ever gets a second holder. -/
theorem Step.owned (step : before.Step stages event after later)
    (owned : before.host.Owned stages) : after.host.Owned later := by
  obtain ⟨place, origin⟩ := step.origin
  have grows := step.services_le
  -- What was kept or passed on had one holder before; what was made had none.
  constructor
  · intro id holder held
    cases origin id holder held with
    | kept earlier | passed earlier =>
      exact Nat.lt_of_lt_of_le (owned.bound _ _ earlier) grows
    | made _ bound => exact bound
  · intro id first second held held'
    cases origin id first held with
    | kept mine =>
      cases origin id second held' with
      | kept other => exact owned.sole _ _ _ mine other
      | passed other gives => exact absurd held (owned.sole _ _ _ mine other ▸ gives)
      | made new => exact absurd new (Nat.ne_of_lt (owned.bound _ _ mine))
    | passed mine gives =>
      cases origin id second held' with
      | kept other => exact absurd held' (owned.sole _ _ _ other mine ▸ gives)
      | passed => rfl
      | made new => exact absurd new (Nat.ne_of_lt (owned.bound _ _ mine))
    | made new =>
      cases origin id second held' with
      | kept other | passed other => exact absurd new (Nat.ne_of_lt (owned.bound _ _ other))
      | made => rfl

/-- A service that nobody holds is never held again. -/
theorem Step.abandoned (step : before.Step stages event after later) {id : ServiceId}
    (abandoned : before.host.Abandoned stages id) : after.host.Abandoned later id := by
  obtain ⟨place, origin⟩ := step.origin
  refine ⟨Nat.lt_of_lt_of_le abandoned.made step.services_le, fun holder held => ?_⟩
  cases origin id holder held with
  | kept earlier | passed earlier => exact abandoned.held _ earlier
  | made new => exact absurd new (Nat.ne_of_lt abandoned.made)

end System
end ServiceHost
