import ServiceHost.Host.Basic

/-! What each change of the host touches, and that it leaves all else as it is. -/

set_option autoImplicit false

namespace ServiceHost.Host

variable (host : Host)

/-! ## The directory -/

theorem get?_leave (left id : String) :
    (host.leave left).directory.get? id = if id = left then none else host.directory.get? id :=
  host.directory.get?_erase left id

theorem get?_enter (entered id : String) (server : ServerId) :
    (host.enter entered server).directory.get? id =
      if id = entered then some server else host.directory.get? id :=
  host.directory.get?_insert entered id server

theorem registered_of_leave {left id : String} {server : ServerId}
    (there : (host.leave left).directory.get? id = some server) :
    host.directory.get? id = some server := by
  rw [get?_leave] at there
  split at there
  · cases there
  · exact there

@[simp] theorem directory_make (blueprint : Blueprint) :
    (host.make blueprint).2.directory = host.directory := by
  unfold make
  split <;> rfl

@[simp] theorem directory_addServer (server : Server) :
    (host.addServer server).2.directory = host.directory := rfl

@[simp] theorem directory_record (server : ServerId) (cause : HostError) :
    (host.record server cause).directory = host.directory := rfl

@[simp] theorem directory_killServer (server : ServerId) :
    (host.killServer server).2.directory = host.directory := by
  unfold killServer
  split <;> rfl

@[simp] theorem directory_configure (server : ServerId) (config : Properties) :
    (host.configure server config).directory = host.directory := by
  unfold configure
  split <;> rfl

@[simp] theorem directory_error (text : String) : (host.error text).directory = host.directory :=
  rfl

/-! ## The servers -/

theorem server?_updateServer (server other : ServerId) (change : Server → Server) :
    (host.updateServer server change).server? other =
      if other = server then (host.server? other).map change else host.server? other := by
  simp only [server?, updateServer, List.getElem?_modify]
  by_cases same : other = server
  · subst same
    simp
  · have apart : server ≠ other := fun equal => same equal.symm
    simp [same, apart]

theorem serviceOf_updateServer {server : ServerId} {change : Server → Server}
    (keeps : ∀ entry, (change entry).service = entry.service) (other : ServerId) :
    (host.updateServer server change).serviceOf other = host.serviceOf other := by
  unfold serviceOf
  rw [server?_updateServer]
  split
  · cases host.server? other <;> simp [keeps]
  · rfl

@[simp] theorem serviceOf_record (server other : ServerId) (cause : HostError) :
    (host.record server cause).serviceOf other = host.serviceOf other := by
  apply serviceOf_updateServer
  exact fun _ => rfl

@[simp] theorem serviceOf_make (blueprint : Blueprint) (server : ServerId) :
    (host.make blueprint).2.serviceOf server = host.serviceOf server := by
  unfold make
  split <;> rfl

@[simp] theorem serviceOf_enter (id : String) (entered server : ServerId) :
    (host.enter id entered).serviceOf server = host.serviceOf server := rfl

@[simp] theorem serviceOf_configure (server other : ServerId) (config : Properties) :
    (host.configure server config).serviceOf other = host.serviceOf other := by
  unfold configure
  split <;> rfl

theorem serviceOf_addServer (server : Server) (other : ServerId) :
    (host.addServer server).2.serviceOf other =
      if other = host.servers.length then server.service else host.serviceOf other := by
  unfold serviceOf server? addServer
  by_cases last : other = host.servers.length
  · simp [last]
  · rw [if_neg last, List.getElem?_append]
    split
    · rfl
    · rename_i beyond
      have past : host.servers.length < other :=
        Nat.lt_of_le_of_ne (Nat.le_of_not_lt beyond) (Ne.symm last)
      have none_there : [server][other - host.servers.length]? = none :=
        List.getElem?_eq_none (Nat.sub_pos_of_lt past)
      rw [none_there, List.getElem?_eq_none (Nat.le_of_lt past)]

theorem serviceOf_killServer (server other : ServerId) :
    (host.killServer server).2.serviceOf other =
      if other = server then none else host.serviceOf other := by
  unfold killServer
  cases held : host.serviceOf server with
  | none =>
    by_cases same : other = server
    · simp [same, held]
    · simp [same]
  | some service =>
    simp only [serviceOf]
    rw [server?_updateServer]
    by_cases same : other = server
    · subst same
      simp only [if_true]
      cases (host.updateService service Service.kill).server? other <;> rfl
    · simp only [same, if_false]
      rfl

/-- The servers that were there keep their instance ids. -/
structure KeepsIds (host after : Host) : Prop where
  kept : ∀ server entry, host.server? server = some entry →
    ∃ later, after.server? server = some later ∧ later.id = entry.id

theorem KeepsIds.refl : KeepsIds host host := ⟨fun _ entry found => ⟨entry, found, rfl⟩⟩

theorem KeepsIds.of_servers {host after : Host} (same : after.servers = host.servers) :
    KeepsIds host after := ⟨fun _ entry found => ⟨entry, by rwa [server?, same], rfl⟩⟩

theorem KeepsIds.trans {first second third : Host} (left : KeepsIds first second)
    (right : KeepsIds second third) : KeepsIds first third := by
  refine ⟨fun server entry found => ?_⟩
  obtain ⟨between, there, same⟩ := left.kept server entry found
  obtain ⟨later, here, equal⟩ := right.kept server between there
  exact ⟨later, here, equal.trans same⟩

namespace KeepsIds

variable {first host : Host}

theorem updateServer (kept : KeepsIds first host) {server : ServerId} {change : Server → Server}
    (keeps : ∀ entry, (change entry).id = entry.id) :
    KeepsIds first (host.updateServer server change) := by
  refine kept.trans ⟨fun other entry found => ?_⟩
  rw [server?_updateServer]
  split
  · exact ⟨change entry, by rw [found]; rfl, keeps entry⟩
  · exact ⟨entry, found, rfl⟩

theorem addServer (kept : KeepsIds first host) (server : Server) :
    KeepsIds first (host.addServer server).2 := by
  refine kept.trans ⟨fun other entry found => ⟨entry, ?_, rfl⟩⟩
  have bound : other < host.servers.length := (List.getElem?_eq_some_iff.mp found).1
  rw [server?, Host.addServer, List.getElem?_append_left bound]
  exact found

theorem leave (kept : KeepsIds first host) (id : String) : KeepsIds first (host.leave id) :=
  kept.trans (.of_servers rfl)

theorem enter (kept : KeepsIds first host) (id : String) (server : ServerId) :
    KeepsIds first (host.enter id server) := kept.trans (.of_servers rfl)

theorem error (kept : KeepsIds first host) (text : String) : KeepsIds first (host.error text) :=
  kept.trans (.of_servers rfl)

theorem record (kept : KeepsIds first host) (server : ServerId) (cause : HostError) :
    KeepsIds first (host.record server cause) := by
  apply kept.updateServer
  exact fun _ => rfl

theorem killServer (kept : KeepsIds first host) (server : ServerId) :
    KeepsIds first (host.killServer server).2 := by
  unfold Host.killServer
  split
  · exact kept
  · rename_i service _
    have torn : KeepsIds first (host.updateService service Service.kill) :=
      kept.trans (.of_servers rfl)
    apply torn.updateServer
    exact fun _ => rfl

theorem configure (kept : KeepsIds first host) (server : ServerId) (config : Properties) :
    KeepsIds first (host.configure server config) := by
  unfold Host.configure
  split
  · exact kept.trans (.of_servers rfl)
  · exact kept

end KeepsIds

theorem idOf_eq {server : ServerId} {entry : Server} (found : host.server? server = some entry) :
    host.idOf server = entry.id := by
  simp [idOf, found]

/-! ## The services -/

theorem service?_eq_of_services {host after : Host} (same : after.services = host.services)
    (service : ServiceId) : after.service? service = host.service? service := by
  rw [service?, service?, same]

/-- The service with a run loop under a number, if it is one. -/
def threaded? (id : ServiceId) : Option Threaded :=
  match host.service? id with
  | some (.threaded service) => some service
  | _ => none

theorem threaded?_eq_some {host : Host} {id : ServiceId} {service : Threaded} :
    host.threaded? id = some service ↔ host.service? id = some (.threaded service) := by
  unfold threaded?
  split
  · rename_i found
    rw [found, Option.some.injEq, Option.some.injEq, Service.threaded.injEq]
  · rename_i other
    exact ⟨fun none => (by cases none), fun found => absurd found (other service)⟩

theorem service?_updateService (service other : ServiceId) (change : Service → Service) :
    (host.updateService service change).service? other =
      if other = service then (host.service? other).map change else host.service? other := by
  simp only [service?, updateService, List.getElem?_modify]
  by_cases same : other = service
  · subst same
    simp only [if_true]
    cases host.services[other]? <;> rfl
  · have apart : service ≠ other := fun equal => same equal.symm
    simp [same, apart]

theorem service?_killServer (server : ServerId) (service : ServiceId) :
    (host.killServer server).2.service? service =
      if host.serviceOf server = some service then (host.service? service).map Service.kill
      else host.service? service := by
  unfold killServer
  cases held : host.serviceOf server with
  | none => simp
  | some own =>
    change (host.updateService own Service.kill).service? service = _
    rw [service?_updateService]
    by_cases same : service = own
    · simp [same]
    · have apart : some own ≠ some service := fun equal => same (Option.some.inj equal).symm
      simp [same, apart]

theorem service?_configure (server : ServerId) (config : Properties) (service : ServiceId) :
    (host.configure server config).service? service =
      if host.serviceOf server = some service then
        (host.service? service).map (Service.setConfig config)
      else host.service? service := by
  unfold configure
  cases held : host.serviceOf server with
  | none => simp
  | some own =>
    change (host.updateService own (Service.setConfig config)).service? service = _
    rw [service?_updateService]
    by_cases same : service = own
    · simp [same]
    · have apart : some own ≠ some service := fun equal => same (Option.some.inj equal).symm
      simp [same, apart]

/-- What is made is new, and goes behind the services that are there. -/
theorem services_make (blueprint : Blueprint) :
    ∃ service, (host.make blueprint).2.services = host.services ++ [⟨blueprint.label, service⟩] ∧
      ((∃ typeName version stamp loop, service = .threaded (.new typeName version stamp loop)) ∨
        ∃ script state, service = .scripted (.new script state)) := by
  unfold make
  split
  · exact ⟨_, rfl, .inl ⟨_, _, _, _, rfl⟩⟩
  · exact ⟨_, rfl, .inr ⟨_, _, rfl⟩⟩

theorem id_make (blueprint : Blueprint) : (host.make blueprint).1 = host.services.length := by
  unfold make
  split <;> rfl

@[simp] theorem servers_make (blueprint : Blueprint) :
    (host.make blueprint).2.servers = host.servers := by
  unfold make
  split <;> rfl

end ServiceHost.Host
