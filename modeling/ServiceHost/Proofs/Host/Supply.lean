import ServiceHost.Proofs.Host.Operation

/-! What a service to be added is supplied with, and from where. -/

set_option autoImplicit false

namespace ServiceHost

/-- Where a service comes from: it is given, its name is resolved, or its factory needs no code. -/
inductive Source where
  | given (blueprint : Blueprint)
  | resolved (name : String)
  | built (name : String)

namespace Source

variable {host : Host} {source : Source} {config : Properties}

def operation (config : Properties) : Source → Operation
  | given blueprint => .add blueprint config
  | resolved name => .addByName name config
  | built name => .addLocal name config

/-- What is to be made and its origin, or why there is nothing. -/
def supply (host : Host) : Source → Except HostError (Blueprint × String)
  | given blueprint => .ok (blueprint, Host.localOrigin)
  | resolved name => host.supplied name
  | built name => host.build name [] Host.factoryOrigin

theorem enters_operation (source : Source) (config : Properties) :
    (source.operation config).enters = true := by
  cases source <;> rfl

theorem run_of_error {cause : HostError} (fails : source.supply host = .error cause)
    (config : Properties) : ∃ resolvers, (source.operation config).flow.run host =
      ((Halt.ended ⟨.entered (.error cause), none⟩).stop, { host with resolvers }) := by
  cases source with
  | given => cases fails
  | resolved name =>
    obtain ⟨resolvers, run⟩ := Registry.run_resolve host name
    simp only [show host.supplied name = _ from fails] at run
    refine ⟨resolvers, ?_⟩
    rw [operation, Operation.flow, Registry.addByName, Registry.loadByName, bind_assoc,
      Registry.run_entering_of_error run]
    rfl
  | built name =>
    refine ⟨host.resolvers, ?_⟩
    cases built : host.factories.instantiate name [] with
    | ok => simp [supply, Host.build, built] at fails
    | error reason =>
      simp only [supply, Host.build, built, Except.error.injEq] at fails
      subst fails
      simp [operation, Operation.flow, entering, Registry.addLocal, Attempt.host, built]
      rfl

theorem run_of_ok {blueprint : Blueprint} {origin : String}
    (found : source.supply host = .ok (blueprint, origin)) (config : Properties) :
    ∃ resolvers, (source.operation config).flow.run host =
      ((Halt.waits host.services.length
          (.wrapping host.services.length origin (some config))).stop,
        (Host.make blueprint { host with resolvers }).2) := by
  cases source with
  | given given =>
    cases found
    refine ⟨host.resolvers, ?_⟩
    rw [operation, Operation.flow, Registry.run_act_entering]
    exact (Registry.run_enter_start ..).trans (by rw [Host.id_make])
  | resolved name =>
    obtain ⟨resolvers, run⟩ := Registry.run_resolve host name
    simp only [show host.supplied name = _ from found] at run
    refine ⟨resolvers, ?_⟩
    rw [operation, Operation.flow, Registry.addByName, Registry.loadByName, bind_assoc,
      Registry.run_entering_of_ok run]
    exact Registry.run_enter_start ..
  | built name =>
    refine ⟨host.resolvers, ?_⟩
    cases built : host.factories.instantiate name [] with
    | error => simp [supply, Host.build, built] at found
    | ok made =>
      simp only [supply, Host.build, built, Except.ok.injEq, Prod.mk.injEq] at found
      obtain ⟨rfl, rfl⟩ := found
      have run : (entering (Registry.addLocal name config)).run host =
          (entering do
            let service ← Attempt.act (Host.make made)
            Registry.startEntered (← Registry.enter service Host.factoryOrigin) config).run host := by
        simp [entering, Registry.addLocal, Attempt.host, built]
      rw [operation, Operation.flow, run, Registry.run_act_entering]
      exact (Registry.run_enter_start ..).trans (by rw [Host.id_make])

end Source

end ServiceHost
