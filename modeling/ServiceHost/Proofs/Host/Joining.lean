import ServiceHost.Proofs.Host.Addition
import ServiceHost.Proofs.Host.Heeded

/-! The adding of a service that was made before, whatever it answers.

The service is asked for its id and then to start. Either it ends up with a server at the end of the
directory, or the directory is as it was, and a server that was put around the service has let go of
it.
-/

set_option autoImplicit false

namespace ServiceHost

/-- What comes of the adding of a service that was made before, by its calls and their answers: what
the directory gains at its end, and the servers there are in addition. -/
inductive Joins (service : ServiceId) (directory : Table ServerId) (number : ServerId) :
    List Exchange → List (String × ServerId) → List Server → Prop where
  | mute {cause : CallError} :
      Joins service directory number [⟨service, .instanceId, .error cause⟩] [] []
  | taken {answer : Except ServiceError Reply} {server : Server} :
      server = .around service Host.localOrigin answer → directory.contains server.id = true →
      Joins service directory number [⟨service, .instanceId, .ok answer⟩] []
        [{ server with service := none }]
  | refuses {answer : Except ServiceError Reply} {server : Server} {told : CallAnswer}
      {cause : HostError} :
      server = .around service Host.localOrigin answer → directory.get? server.id = none →
      Server.failure? (.control .start) told = some cause →
      Joins service directory number
        [⟨service, .instanceId, .ok answer⟩, ⟨service, .control .start, told⟩] []
        [{ server with service := none, lastError := some cause }]
  | starts {answer : Except ServiceError Reply} {server : Server} {reply : Reply} :
      server = .around service Host.localOrigin answer → directory.get? server.id = none →
      Joins service directory number
        [⟨service, .instanceId, .ok answer⟩, ⟨service, .control .start, .ok (.ok reply)⟩]
        [(server.id, number)] [server]

namespace Host

/-- A host as it was, but for some entries at the end of the directory, some servers, and some names
that were deployed; services may have come, and all of them go on. -/
structure Gathered (host now : Host) (deployed : List (String × ResolverId))
    (entries : List (String × ServerId)) (added : List Server) : Prop where
  directory : now.directory.entries = host.directory.entries ++ entries
  servers : now.servers = host.servers ++ added
  deployed : now.deployed = host.deployed.insertAll deployed
  frame : now = { host with
    services := now.services, servers := now.servers, directory := now.directory
    deployed := now.deployed, log := now.log }

variable {host middle now later : Host} {deployed more : List (String × ResolverId)}
  {entries others : List (String × ServerId)} {added further : List Server} {entry : Server}
  {id : String} {number : ServerId}

namespace Gathered

theorem refl (host : Host) : Gathered host host [] [] [] where
  directory := (List.append_nil _).symm
  servers := (List.append_nil _).symm
  deployed := rfl
  frame := rfl

theorem trans (first : Gathered host middle deployed entries added)
    (next : Gathered middle now more others further) :
    Gathered host now (deployed ++ more) (entries ++ others) (added ++ further) where
  directory := by rw [next.directory, first.directory, List.append_assoc]
  servers := by rw [next.servers, first.servers, List.append_assoc]
  deployed := by
    rw [next.deployed, first.deployed]
    exact (List.foldl_append ..).symm
  frame := by
    rw [next.frame, first.frame]

theorem works (gathered : Gathered host now deployed entries added) (works : now.Works later) :
    Gathered host later deployed entries added where
  directory := by rw [works.directory, gathered.directory]
  servers := by rw [works.servers, gathered.servers]
  deployed := by rw [works.frame, gathered.deployed]
  frame := by
    rw [works.frame, gathered.frame]

theorem deploy (host : Host) (name : String) (resolver : ResolverId) :
    Gathered host (host.deploy name resolver) [(name, resolver)] [] [] where
  directory := (List.append_nil _).symm
  servers := (List.append_nil _).symm
  deployed := rfl
  frame := rfl

theorem error (gathered : Gathered host now deployed entries added) (text : String) :
    Gathered host (now.error text) deployed entries added :=
  ⟨gathered.directory, gathered.servers, gathered.deployed,
    by rw [Host.error, Host.note, gathered.frame]⟩

theorem serviceOf_last (gathered : Gathered host now deployed entries [entry]) :
    now.serviceOf host.servers.length = entry.service := by
  rw [Host.serviceOf, server?, gathered.servers, List.getElem?_concat_length]
  rfl

theorem idOf_last (gathered : Gathered host now deployed entries [entry]) :
    now.idOf host.servers.length = entry.id := by
  rw [Host.idOf, server?, gathered.servers, List.getElem?_concat_length]
  rfl

theorem addServer (gathered : Gathered host now deployed entries []) (entry : Server) :
    Gathered host (now.addServer entry).2 deployed entries [entry] where
  directory := gathered.directory
  servers := by
    change now.servers ++ [entry] = _
    rw [gathered.servers, List.append_nil]
  deployed := gathered.deployed
  frame := by
    rw [Host.addServer, gathered.frame]

theorem same_directory (gathered : Gathered host now deployed [] added) :
    now.directory = host.directory :=
  Table.ext (gathered.directory.trans (List.append_nil _))

theorem enter (gathered : Gathered host now deployed [] added)
    (absent : host.directory.get? id = none) (server : ServerId) :
    Gathered host (now.enter id server) deployed [(id, server)] added where
  directory := by
    change (now.directory.insert id server).entries = _
    rw [gathered.same_directory, Table.entries_insert_of_absent _ absent]
  servers := gathered.servers
  deployed := gathered.deployed
  frame := by
    rw [Host.enter, gathered.frame]

/-- What was entered last leaves nothing behind. -/
theorem leave (gathered : Gathered host now deployed [(id, number)] added)
    (absent : host.directory.get? id = none) : Gathered host (now.leave id) deployed [] added where
  directory := by
    rw [List.append_nil]
    exact Table.entries_erase_last gathered.directory absent
  servers := gathered.servers
  deployed := gathered.deployed
  frame := by
    rw [Host.leave, gathered.frame]

theorem updateServer (gathered : Gathered host now deployed entries [entry])
    (change : Server → Server) :
    Gathered host (now.updateServer host.servers.length change) deployed entries [change entry] where
  directory := gathered.directory
  servers := by
    change now.servers.modify _ _ = _
    rw [gathered.servers, modify_last]
  deployed := gathered.deployed
  frame := by
    rw [Host.updateServer, gathered.frame]

theorem updateService (gathered : Gathered host now deployed entries added) (service : ServiceId)
    (change : Service → Service) :
    Gathered host (now.updateService service change) deployed entries added where
  directory := gathered.directory
  servers := gathered.servers
  deployed := gathered.deployed
  frame := by
    rw [Host.updateService, gathered.frame]

theorem killServer (gathered : Gathered host now deployed entries [entry]) {service : ServiceId}
    (held : entry.service = some service) :
    Gathered host (now.killServer host.servers.length).2 deployed entries
      [{ entry with service := none }] := by
  rw [Host.killServer, gathered.serviceOf_last.trans held]
  exact (gathered.updateService ..).updateServer _

theorem configure (gathered : Gathered host now deployed entries added) (server : ServerId)
    (config : Properties) : Gathered host (now.configure server config) deployed entries added := by
  unfold Host.configure
  split
  · exact gathered.updateService ..
  · exact gathered

/-- A server that did not start is rolled back. -/
theorem rolledBack {service : ServiceId}
    (gathered : Gathered host now deployed [(entry.id, host.servers.length)] [entry])
    (absent : host.directory.get? entry.id = none) (held : entry.service = some service) :
    Gathered host (Registry.rolledBack host.servers.length now) deployed []
      [{ entry with service := none }] := by
  rw [Registry.rolledBack, gathered.idOf_last]
  exact ((gathered.leave absent).killServer held).error _

end Gathered

/-- The adding of a service has come to its end. -/
def Joined (host : Host) (service : ServiceId) (talk : List Exchange) (last : Host) : Prop :=
  ∃ entries added, Joins service host.directory host.servers.length talk entries added ∧
    Gathered host last [] entries added

end Host

theorem Server.replyOf_of_failure {query : Query} {answer : CallAnswer} {cause : HostError}
    (fails : failure? query answer = some cause) : replyOf answer = none := by
  rcases answer with failed | (failed | reply)
  · rfl
  · rfl
  · cases fails

namespace Registry

variable {host now : Host} {service : ServiceId} {config : Properties}

/-- Nothing is done to the host before a service that is there has told its id. -/
theorem host_run_add_bind {β : Type} (service : ServiceId) (config : Properties)
    (next : Except HostError ServerId → Flow β) (host : Host) :
    (((add service config).outcome >>= next).run host).2 = host := by
  simp [add, load, enter, Server.wrap]

/-- Once its service was asked to start, a server stays or leaves again. -/
theorem heeds_started {answer : Except ServiceError Reply} {server : Server}
    (around : server = .around service Host.localOrigin answer)
    (vacant : host.directory.get? server.id = none)
    (gathered : host.Gathered now [] [(server.id, host.servers.length)] [server])
    (told : CallAnswer) :
    ((Stage.starting host.servers.length).next told).Heeds
      (fun more _ last => host.Joined service
        (⟨service, .instanceId, .ok answer⟩ :: ⟨service, .control .start, told⟩ :: more) last)
      now := by
  cases fails : Server.failure? (.control .start) told with
  | none =>
    obtain ⟨reply, rfl⟩ := Server.failure?_eq_none.mp fails
    exact .done rfl (Nat.le_refl _) ⟨_, _, .starts around vacant, gathered⟩
  | some cause =>
    have silent := Server.replyOf_of_failure fails
    let failed : Server := { server with lastError := some cause }
    have recorded : host.Gathered (now.noted host.servers.length (.control .start) told) []
        [(failed.id, host.servers.length)] [failed] := by
      rw [Host.noted_of_failure fails]
      exact gathered.updateServer _
    have held : failed.service = some service := congrArg Server.service around
    have part : Stage.Section now (.starting host.servers.length) told _ _ := .rollsBack cause silent
    exact .done (Stage.run_starting_of_failure silent now) part.deals.length
      ⟨_, _, .refuses around vacant fails, recorded.rolledBack vacant held⟩

/-- Once its service was asked for its id, a server is put around it and started, or not. -/
theorem heeds_probed (gathered : host.Gathered now [] [] [])
    (known : service < now.services.length) (answer : CallAnswer) :
    ((Stage.wrapping service Host.localOrigin (some config)).next answer).Heeds
      (fun more _ last => host.Joined service (⟨service, .instanceId, answer⟩ :: more) last)
      now := by
  have servers : now.servers.length = host.servers.length := by
    rw [gathered.servers, List.append_nil]
  obtain ⟨halt, later, part, run⟩ :=
    (Stage.wrapping service Host.localOrigin (some config)).run_next answer now
  have grows := part.deals.length
  cases part with
  | unwrapped cause => exact .done run grows ⟨[], [], .mute, gathered⟩
  | @duplicate _ _ _ answer taken =>
    have around := gathered.addServer (.around service Host.localOrigin answer)
    rw [gathered.same_directory] at taken
    rw [servers] at run grows
    exact .done run grows ⟨[], _, .taken rfl taken, around.killServer rfl⟩
  | @starts _ _ _ answer vacant =>
    have around := gathered.addServer (.around service Host.localOrigin answer)
    rw [gathered.same_directory] at vacant
    rw [servers] at run grows
    have ready := (around.enter vacant host.servers.length).configure host.servers.length config
    refine .call run grows (Nat.lt_of_lt_of_le known grows) fun told after works => ?_
    exact heeds_started rfl vacant (ready.works works) told

/-- A service that is there is added, whatever it answers. -/
theorem heeds_add (known : service < host.services.length) (config : Properties) :
    (add service config).outcome.Heeds (fun talk _ last => host.Joined service talk last) host := by
  have heeds : (entering (add service config)).Heeds
      (fun talk _ last => host.Joined service talk last) host := by
    refine .call (run_enter_start host service Host.localOrigin config) (Nat.le_refl _) known
      fun answer after works => ?_
    rw [← works.length_services] at known
    exact heeds_probed ((Host.Gathered.refl host).works works) known answer
  rw [entering, bind_pure_comp] at heeds
  exact heeds.of_map

end Registry

end ServiceHost
