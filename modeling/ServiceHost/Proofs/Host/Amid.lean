import ServiceHost.Proofs.Host.Solo

/-! A host in the midst of an addition: what is as it was before, and what has been done so far to
the service that is added.
-/

set_option autoImplicit false

namespace ServiceHost

/-- Erasing what was added last gives back what there was before. -/
theorem Table.entries_erase_last {α : Type} {before now : Table α} {key : String} {value : α}
    (added : now.entries = before.entries ++ [(key, value)]) (absent : before.get? key = none) :
    (now.erase key).entries = before.entries := by
  have others : ∀ entry ∈ before.entries, decide (entry.1 ≠ key) = true := by
    intro entry member
    rw [decide_eq_true_iff]
    rintro rfl
    rw [get?_of_mem _ member] at absent
    cases absent
  change now.entries.filter _ = _
  rw [added, List.filter_append, List.filter_eq_self.mpr others]
  simp

namespace Host

/-- A host as it was, but for one more service, some entries at the end of the directory and some
servers; the services that were there have gone on by themselves. -/
structure Amid (host now : Host) (entries : List (String × ServerId)) (added : List Server) :
    Prop where
  directory : now.directory.entries = host.directory.entries ++ entries
  servers : now.servers = host.servers ++ added
  deployed : now.deployed = host.deployed
  factories : now.factories = host.factories
  others : ∀ id, id ≠ host.services.length →
    Option.Rel Service.Works (host.service? id) (now.service? id)

/-- The life so far of a service that a host has made. -/
def Treats (now : Host) (id : ServiceId) (done : List Service.Treatment) : Prop :=
  ∃ made service : Service, made.New ∧ made.Treated done service ∧
    now.service? id = some service

variable {host now later : Host} {entries : List (String × ServerId)} {added : List Server}
  {done : List Service.Treatment} {entry : Server} {id : String} {service : ServiceId}

theorem modify_last {α : Type} (entries : List α) (entry : α) (change : α → α) :
    (entries ++ [entry]).modify entries.length change = entries ++ [change entry] := by
  induction entries with
  | nil => rfl
  | cons first rest ih => simpa using ih

namespace Treats

theorem works (treats : now.Treats service done) (works : now.Works later) :
    later.Treats service done := by
  obtain ⟨made, old, new, life, found⟩ := treats
  have onward := works.works service
  rw [found] at onward
  cases there : later.service? service with
  | none => rw [there] at onward; cases onward
  | some after =>
    rw [there] at onward
    cases onward with
    | some goes => exact ⟨made, after, new, life.works goes, there⟩

theorem of_services (treats : now.Treats service done)
    (same : later.service? service = now.service? service) : later.Treats service done := by
  obtain ⟨made, old, new, life, found⟩ := treats
  exact ⟨made, old, new, life, same.trans found⟩

theorem treated (treats : now.Treats service done) (treatment : Service.Treatment)
    (same : later.service? service = (now.service? service).map treatment.apply) :
    later.Treats service (done ++ [treatment]) := by
  obtain ⟨made, old, new, life, found⟩ := treats
  exact ⟨made, _, new, life.treated treatment, by rw [same, found]; rfl⟩

theorem config (treats : now.Treats service done) :
    (now.service? service).map Service.config =
      some (((done.filterMap Service.Treatment.config?).getLast?).getD Table.empty) := by
  obtain ⟨made, old, new, life, found⟩ := treats
  have empty : made.config = Table.empty := by cases new <;> rfl
  rw [found, Option.map_some, life.config, empty]

/-- Services that keep count of their kills have counted those that the host has done. -/
theorem kills (treats : now.Treats service done) {counted : Service} {count : Nat}
    (found : now.service? service = some counted) (counts : counted.kills? = some count) :
    count = done.countP Service.Treatment.kills := by
  obtain ⟨made, old, new, life, there⟩ := treats
  cases there.symm.trans found
  rw [life.kills?] at counts
  cases new with
  | threaded => cases counts
  | scripted =>
    have none_yet : 0 + done.countP Service.Treatment.kills = count := Option.some.inj counts
    omega

end Treats

namespace Amid

theorem refl (host : Host) (resolvers : Resolvers) : Amid host { host with resolvers } [] [] where
  directory := (List.append_nil _).symm
  servers := (List.append_nil _).symm
  deployed := rfl
  factories := rfl
  others _ _ := Service.Works.rel_refl _

theorem works (amid : Amid host now entries added) (works : now.Works later) :
    Amid host later entries added where
  directory := by rw [works.frame, amid.directory]
  servers := by rw [works.frame, amid.servers]
  deployed := by rw [works.frame, amid.deployed]
  factories := by rw [works.frame, amid.factories]
  others id other := Service.Works.rel_trans (amid.others id other) (works.works id)

theorem make (amid : Amid host now entries added)
    (length : now.services.length = host.services.length) (blueprint : Blueprint) :
    Amid host (now.make blueprint).2 entries added ∧
      (now.make blueprint).2.Treats host.services.length [] := by
  obtain ⟨made, services, kinds⟩ := now.services_make blueprint
  have others : ∀ id, id ≠ host.services.length →
      (now.make blueprint).2.service? id = now.service? id := by
    intro id other
    rw [service?, service?, services, List.getElem?_append]
    split
    · rfl
    · rename_i beyond
      have past : now.services.length < id := by omega
      rw [List.getElem?_eq_none (Nat.le_of_lt past),
        List.getElem?_eq_none (Nat.sub_pos_of_lt past)]
  have new : made.New := by
    rcases kinds with ⟨_, _, _, _, rfl⟩ | ⟨_, _, rfl⟩
    · exact .threaded ..
    · exact .scripted ..
  refine ⟨⟨?_, ?_, ?_, ?_, fun id other => ?_⟩, made, made, new, .made, ?_⟩
  · rw [directory_make, amid.directory]
  · rw [servers_make, amid.servers]
  · exact (by unfold Host.make; split <;> rfl : (now.make blueprint).2.deployed = _).trans
      amid.deployed
  · exact (by unfold Host.make; split <;> rfl : (now.make blueprint).2.factories = _).trans
      amid.factories
  · rw [others id other]
    exact amid.others id other
  · rw [service?, services, ← length]
    simp

theorem addServer (amid : Amid host now entries []) (entry : Server) :
    Amid host (now.addServer entry).2 entries [entry] := by
  refine ⟨amid.directory, ?_, amid.deployed, amid.factories, amid.others⟩
  change now.servers ++ [entry] = _
  rw [amid.servers, List.append_nil]

theorem length_servers (amid : Amid host now entries []) :
    now.servers.length = host.servers.length := by
  rw [amid.servers, List.append_nil]

theorem server? (amid : Amid host now entries [entry]) :
    now.server? host.servers.length = some entry := by
  rw [Host.server?, amid.servers, List.getElem?_concat_length]

theorem enter (amid : Amid host now [] added) (absent : host.directory.get? id = none)
    (server : ServerId) : Amid host (now.enter id server) [(id, server)] added := by
  have same : now.directory = host.directory :=
    Table.ext (amid.directory.trans (List.append_nil _))
  refine ⟨?_, amid.servers, amid.deployed, amid.factories, amid.others⟩
  change (now.directory.insert id server).entries = _
  rw [same, Table.entries_insert_of_absent _ absent]

/-- What was entered last leaves nothing behind. -/
theorem leave {server : ServerId} (amid : Amid host now [(id, server)] added)
    (absent : host.directory.get? id = none) : Amid host (now.leave id) [] added := by
  refine ⟨?_, amid.servers, amid.deployed, amid.factories, amid.others⟩
  rw [List.append_nil]
  exact Table.entries_erase_last amid.directory absent

theorem updateServer (amid : Amid host now entries [entry]) (change : Server → Server) :
    Amid host (now.updateServer host.servers.length change) entries [change entry] := by
  refine ⟨amid.directory, ?_, amid.deployed, amid.factories, amid.others⟩
  change now.servers.modify _ _ = _
  rw [amid.servers, modify_last]

theorem updateService (amid : Amid host now entries added) (change : Service → Service) :
    Amid host (now.updateService host.services.length change) entries added := by
  refine ⟨amid.directory, amid.servers, amid.deployed, amid.factories, fun id other => ?_⟩
  rw [service?_updateService, if_neg other]
  exact amid.others id other

theorem serviceOf (amid : Amid host now entries [entry]) :
    now.serviceOf host.servers.length = entry.service := by
  rw [Host.serviceOf, amid.server?]
  rfl

theorem killServer (amid : Amid host now entries [entry])
    (held : entry.service = some host.services.length)
    (treats : now.Treats host.services.length done) :
    Amid host (now.killServer host.servers.length).2 entries [{ entry with service := none }] ∧
      (now.killServer host.servers.length).2.Treats host.services.length (done ++ [.killed]) := by
  have holds := amid.serviceOf.trans held
  refine ⟨?_, treats.treated .killed ?_⟩
  · rw [Host.killServer, holds]
    exact (amid.updateService _).updateServer _
  · rw [service?_killServer, if_pos holds]
    rfl

theorem configure (amid : Amid host now entries [entry])
    (held : entry.service = some host.services.length)
    (treats : now.Treats host.services.length done) (config : Properties) :
    Amid host (now.configure host.servers.length config) entries [entry] ∧
      (now.configure host.servers.length config).Treats host.services.length
        (done ++ [.configured config]) := by
  have holds := amid.serviceOf.trans held
  refine ⟨?_, treats.treated (.configured config) ?_⟩
  · rw [Host.configure, holds]
    exact amid.updateService _
  · rw [service?_configure, if_pos holds]
    rfl

/-- A server that did not start is rolled back, and its service is torn down. -/
theorem rolledBack {cause : HostError}
    (amid : Amid host now [(entry.id, host.servers.length)] [entry])
    (absent : host.directory.get? entry.id = none)
    (held : entry.service = some host.services.length)
    (treats : now.Treats host.services.length done) (known : entry.lastError = some cause) :
    Registry.causeOf now host.servers.length = cause ∧
      Amid host (Registry.rolledBack host.servers.length now) []
        [{ entry with service := none }] ∧
      (Registry.rolledBack host.servers.length now).Treats host.services.length
        (done ++ [.killed]) := by
  have id : now.idOf host.servers.length = entry.id := by rw [idOf, amid.server?]; rfl
  have reason : Registry.causeOf now host.servers.length = cause := by
    rw [Registry.causeOf, lastError, amid.server?, Option.bind_some, known]
    rfl
  have left := amid.leave absent
  obtain ⟨amid, treats⟩ := left.killServer held (treats.of_services rfl)
  refine ⟨reason, ?_, ?_⟩
  · rw [Registry.rolledBack, id]
    exact ⟨amid.directory, amid.servers, amid.deployed, amid.factories, amid.others⟩
  · rw [Registry.rolledBack, id]
    exact treats.of_services rfl

end Amid
end Host
end ServiceHost
