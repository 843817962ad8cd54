import ServiceHost.Proofs.Host.Clearance
import ServiceHost.Proofs.Host.Ensures

/-! What operations ensure by themselves, whatever their calls are answered.

A host is founded if its servers have services that were made. All operations keep it so, hence
none of them ever calls a service that is not there, and each of them comes to its end.
-/

set_option autoImplicit false

namespace ServiceHost

namespace Host

variable {host after : Host}

/-- Every server that is alive has a service that was made. -/
def Founded (host : Host) : Prop :=
  ∀ server service, host.serviceOf server = some service → service < host.services.length

theorem Unused.founded (unused : host.Unused) : host.Founded := by
  intro server service held
  simp [serviceOf, server?, unused.servers] at held

theorem Founded.works (founded : host.Founded) (works : host.Works after) : after.Founded := by
  intro server service held
  rw [works.length_services]
  rw [works.frame] at held
  exact founded server service held

theorem Founded.deals {wrapped : Option ServiceId} (founded : host.Founded)
    (known : ∀ id, wrapped = some id → id < host.services.length)
    (deals : Deals wrapped host after) : after.Founded := by
  intro server service held
  refine Nat.lt_of_lt_of_le ?_ deals.length
  rcases deals.servers server service held with old | ⟨_, wraps⟩
  · exact founded server service old
  · exact known service wraps

/-- Servers and services are the same as before. -/
theorem Founded.of_same (founded : host.Founded) (servers : after.servers = host.servers)
    (services : after.services = host.services) : after.Founded := by
  intro server service held
  rw [services]
  rw [serviceOf, server?, servers] at held
  exact founded server service held

end Host

/-- The host is founded, and an operation that waits has only to do with services that were made. -/
def Halt.Founded : Halt → Host → Prop
  | .ended _, host => host.Founded
  | .waits service stage, host => host.Founded ∧ service < host.services.length ∧
      ∀ id, stage.wraps? = some id → id < host.services.length

namespace Halt.Founded

variable {halt : Halt} {host after : Host} {service : ServiceId} {stage : Stage}

theorem works (founded : halt.Founded host) (works : host.Works after) : halt.Founded after := by
  cases halt with
  | ended => exact Host.Founded.works founded works
  | waits =>
    rw [Halt.Founded, works.length_services]
    exact ⟨founded.1.works works, founded.2⟩

/-- Whoever is called then is held by a server, or is to be wrapped. -/
theorem of_calls (founded : after.Founded)
    (calls : ∀ service stage, halt = .waits service stage →
      stage.wraps? = some service ∨ ∃ server, after.serviceOf server = some service)
    (wraps : ∀ id, halt.stage?.bind Stage.wraps? = some id → id < after.services.length) :
    halt.Founded after := by
  cases halt with
  | ended => exact founded
  | waits service stage =>
    refine ⟨founded, ?_, wraps⟩
    rcases calls service stage rfl with wrapped | ⟨server, held⟩
    · exact wraps service wrapped
    · exact founded server service held

end Halt.Founded

theorem Operation.Section.founded {operation : Operation} {host after : Host} {halt : Halt}
    (part : operation.Section host halt after) (founded : host.Founded) : halt.Founded after := by
  refine .of_calls (founded.deals (fun _ none => by cases none) part.deals) ?_
    fun id wraps => (part.makes wraps).2
  rintro service stage rfl
  exact part.calls_held

theorem Stage.Section.founded {stage : Stage} {answer : CallAnswer} {host after : Host}
    {halt : Halt} {service : ServiceId} (part : stage.Section host answer halt after)
    (founded : (Halt.waits service stage).Founded host) : halt.Founded after := by
  refine .of_calls (founded.1.deals founded.2.2 part.deals) ?_ fun id wraps => ?_
  · rintro service stage rfl
    exact .inr part.calls_held
  · rw [part.not_wraps] at wraps
    cases wraps

theorem Halt.Founded.invariant : Halt.Invariant Halt.Founded where
  works _ _ _ founded works := founded.works works
  known _ _ _ founded := founded.2.1
  hears _ stage now founded answer := by
    obtain ⟨halt, later, part, runs⟩ := stage.run_next answer now
    exact ⟨halt, later, part, runs, part.founded founded⟩

/-! ## Procedures that keep a host founded -/

/-- A procedure comes to its end in every founded host, and leaves it founded. -/
def Flow.Keeps {α : Type} (flow : Flow α) : Prop :=
  ∀ host : Host, host.Founded → flow.Ensures (fun _ last => last.Founded) host

namespace Flow.Keeps

variable {α β : Type}

theorem pure (result : α) : (pure result : Flow α).Keeps := fun _ founded => .pure founded

theorem bind {flow : Flow α} {next : α → Flow β} (keeps : flow.Keeps)
    (onward : ∀ result, (next result).Keeps) : (flow >>= next).Keeps := fun host founded =>
  .bind ((keeps host founded).mono fun result last founded => onward result last founded)

theorem read (view : Host → α) : (Flow.read view).Keeps := fun _ founded => .read founded

/-- A change that leaves servers and services alone. -/
theorem modify {change : Host → Host} (servers : ∀ host, (change host).servers = host.servers)
    (services : ∀ host, (change host).services = host.services) : (Flow.modify change).Keeps :=
  fun host founded => .modify (Nat.le_of_eq (congrArg _ (services host)).symm)
    (founded.of_same (servers host) (services host))

theorem info (text : String) : (Flow.modify (Host.info text)).Keeps :=
  modify (fun _ => rfl) fun _ => rfl

theorem error (text : String) : (Flow.modify (Host.error text)).Keeps :=
  modify (fun _ => rfl) fun _ => rfl

end Flow.Keeps

theorem Operation.keeps (operation : Operation) : operation.flow.Keeps := by
  intro host founded
  obtain ⟨halt, now, part, run⟩ := operation.run_flow host
  exact Halt.Founded.invariant.ensures (part.founded founded) part.deals.length run

/-- An operation that only wraps the result of a procedure keeps the host founded by that
procedure. -/
theorem Operation.keeps_of_flow {α : Type} {flow : Flow α} {answer : α → Yield Answer}
    (operation : Operation) (own : operation.flow = do return answer (← flow)) : flow.Keeps := by
  intro host founded
  have keeps := operation.keeps host founded
  rw [own, bind_pure_comp] at keeps
  exact keeps.of_map

namespace Registry

theorem keeps_addByName (name : String) (config : Properties) :
    (addByName name config).outcome.Keeps :=
  (Operation.addByName name config).keeps_of_flow rfl

theorem keeps_addLocal (name : String) (config : Properties) :
    (addLocal name config).outcome.Keeps :=
  (Operation.addLocal name config).keeps_of_flow rfl

theorem keeps_remove (id : String) : (remove id).Keeps := (Operation.remove id).keeps_of_flow rfl

theorem keeps_kill (id : String) : (kill id).Keeps := (Operation.kill id).keeps_of_flow rfl

/-- A service that is there is added. -/
theorem ensures_add {host : Host} (founded : host.Founded) {service : ServiceId}
    (known : service < host.services.length) (config : Properties) :
    (add service config).outcome.Ensures (fun _ last => last.Founded) host := by
  have asks : (Halt.waits service (.wrapping service Host.localOrigin (some config))).Founded host :=
    ⟨founded, known, fun id wraps => by cases wraps; exact known⟩
  have ensures := Halt.Founded.invariant.ensures asks (Nat.le_refl _)
    (run_enter_start host service Host.localOrigin config)
  rw [entering, bind_pure_comp] at ensures
  exact ensures.of_map

end Registry

theorem Server.keeps_control (server : ServerId) (asked : Control) :
    (Server.control server asked).Keeps :=
  (Operation.call server (.control asked)).keeps_of_flow rfl

theorem Server.keeps_state (server : ServerId) : (Server.state server).Keeps :=
  (Operation.call server .state).keeps_of_flow rfl

/-! ## Shutting down -/

/-- How far the removal of all servers is, in a founded host. -/
def Shutting (host : Host) (halt : Halt) (now : Host) : Prop :=
  halt.Founded now ∧ ∃ gone talk,
    Clearance host host.directory.entries .done gone talk halt ∧ host.Cleared now gone

theorem Shutting.invariant (host : Host) : Halt.Invariant (Shutting host) where
  works _ _ _ shutting works := by
    obtain ⟨founded, gone, talk, clearance, cleared⟩ := shutting
    exact ⟨founded.works works, gone, talk, clearance, cleared.goes works⟩
  known _ _ _ shutting := shutting.1.2.1
  hears _ stage now shutting answer := by
    obtain ⟨founded, gone, talk, clearance, cleared⟩ := shutting
    obtain ⟨halt, later, part, runs, gone, clearance, cleared⟩ :=
      clearance.hears (.refl _) cleared answer
    exact ⟨halt, later, part, runs, part.founded founded, gone, _, clearance, cleared⟩

/-- A shutdown comes to its end, and nobody is left in the directory then. -/
theorem Registry.ensures_shutdown {host : Host} (founded : host.Founded) :
    Registry.shutdown.Ensures (fun _ last => last.Founded ∧ last.ids = []) host := by
  obtain ⟨halt, now, part, run⟩ := Operation.shutdown.run_flow host
  obtain ⟨gone, clearance, cleared⟩ := Clearance.of_sweep (.refl _) (.refl host)
    (List.nil_append _).symm .none part.sweep_of_shutdown
  have shutting : Shutting host halt now := ⟨part.founded founded, gone, _, clearance, cleared⟩
  have ensures := (Shutting.invariant host).ensures shutting part.deals.length run
  rw [Operation.flow, bind_pure_comp] at ensures
  refine ensures.of_map.mono ?_
  rintro - last ⟨founded, gone, talk, clearance, cleared⟩
  have none : last.directory.entries = Removal.all.left host :=
    (Clearance.ended clearance cleared).2.2
  exact ⟨founded, by rw [Host.ids, Table.keys, none]; rfl⟩

end ServiceHost
