import ServiceHost.Host.System
import ServiceHost.Proofs.Host.Flow
import ServiceHost.Proofs.Host.Frame

/-! The operations of a host: what callers can ask for, where such an operation waits, and what
it does between two waits.
-/

set_option autoImplicit false

namespace ServiceHost

inductive Answer where
  | entered (outcome : Except HostError ServerId)
  | flag (value : Bool)
  | state (state : Option State)
  | id (text : Option String)
  | done

/-- What a caller makes of the reply to a call. -/
def Answer.ofReply : Query → Option Reply → Answer
  | .control _, reply => flag reply.isSome
  | .state, reply => state (Server.toldState reply)
  | .instanceId, reply => id (Server.toldId reply)

/-- What callers ask for. A service that a caller brings along is built for this one call. -/
inductive Operation where
  | load (blueprint : Blueprint)
  | add (blueprint : Blueprint) (config : Properties)
  | loadByName (name : String)
  | addByName (name : String) (config : Properties)
  | addLocal (name : String) (config : Properties)
  | remove (instanceId : String)
  | kill (instanceId : String)
  | shutdown
  | call (server : ServerId) (query : Query)
  | killServer (server : ServerId)
  | configure (server : ServerId) (config : Properties)

/-- A procedure that ends with a server in the directory, for its caller to keep. -/
def entering (attempt : Attempt ServerId) : Flow (Yield Answer) := do
  let outcome ← attempt.outcome
  return ⟨.entered outcome, outcome.toOption⟩

def Operation.flow : Operation → Flow (Yield Answer)
  | load blueprint => entering do Registry.load (← Attempt.act (Host.make blueprint))
  | add blueprint config =>
    entering do Registry.add (← Attempt.act (Host.make blueprint)) config
  | loadByName name => entering (Registry.loadByName name)
  | addByName name config => entering (Registry.addByName name config)
  | addLocal name config => entering (Registry.addLocal name config)
  | remove instanceId => do return ⟨.flag (← Registry.remove instanceId), none⟩
  | kill instanceId => do return ⟨.flag (← Registry.kill instanceId), none⟩
  | shutdown => do
    Registry.shutdown
    return ⟨.done, none⟩
  | call server (.control control) => do return ⟨.flag (← Server.control server control), none⟩
  | call server .state => do return ⟨.state (← Server.state server), none⟩
  | call server .instanceId => do return ⟨.id (← Server.queryId server), none⟩
  | killServer server => do return ⟨.flag (← Flow.act (Host.killServer server)), none⟩
  | configure server config => do
    Flow.modify (Host.configure server config)
    return ⟨.done, none⟩

/-- Where an operation waits for the answer of a call. -/
inductive Stage where
  /-- Asks a service for its id. With a configuration, it is to be started then. -/
  | wrapping (service : ServiceId) (origin : String) (config : Option Properties)
  | starting (server : ServerId)
  /-- A removal asks for the state; further removals may follow. -/
  | judging (instanceId : String) (server : ServerId) (rest : List String) (result : Answer)
  | stopping (instanceId : String) (server : ServerId) (rest : List String) (result : Answer)
  | calling (server : ServerId) (query : Query)

namespace Stage

def query : Stage → Query
  | wrapping .. => .instanceId
  | starting _ => .control .start
  | judging .. => .state
  | stopping .. => .control .stop
  | calling _ query => query

/-- What is left to do once the call is answered. -/
def next : Stage → CallAnswer → Flow (Yield Answer)
  | wrapping service origin none, answer => entering do
    Registry.file (← Server.wrapped service origin answer)
  | wrapping service origin (some config), answer => entering do
    let server ← Registry.file (← Server.wrapped service origin answer)
    Registry.startEntered server config
  | starting server, answer => entering do
    let reply ← Attempt.of (Server.settle server (.control .start) answer)
    Registry.conclude server reply.isSome
  | judging instanceId server rest result, answer => do
    let reply ← Server.settle server .state answer
    Registry.withdraw instanceId server (Server.toldState reply)
    Registry.removeAll rest
    return ⟨result, none⟩
  | stopping instanceId server rest result, answer => do
    let reply ← Server.settle server (.control .stop) answer
    Registry.unregister instanceId server reply.isSome
    Registry.removeAll rest
    return ⟨result, none⟩
  | calling server query, answer => do
    return ⟨.ofReply query (← Server.settle server query answer), none⟩

end Stage

/-- How an operation gives up control: with what it yields, or at a stage. -/
inductive Halt where
  | ended (yield : Yield Answer)
  | waits (service : ServiceId) (stage : Stage)

def Halt.stop : Halt → Flow.Stop (Yield Answer)
  | ended yield => .done yield
  | waits service stage => .call service stage.query stage.next

/-! ## Removals in a row -/

/-- What removals do that follow each other, up to the first one that has to wait. -/
inductive Sweep (result : Answer) : List String → Host → Halt → Host → Prop where
  | ended (host : Host) : Sweep result [] host (.ended ⟨result, none⟩) host
  | absent {id : String} {rest : List String} {host after : Host} {halt : Halt} :
      host.directory.get? id = none → Sweep result rest host halt after →
      Sweep result (id :: rest) host halt after
  /-- A killed server counts as STOPPED. -/
  | killed {id : String} {rest : List String} {host after : Host} {halt : Halt}
      {server : ServerId} :
      host.directory.get? id = some server → host.serviceOf server = none →
      Sweep result rest (host.leave id) halt after → Sweep result (id :: rest) host halt after
  | asks {id : String} {rest : List String} {host : Host} {server : ServerId}
      {service : ServiceId} :
      host.directory.get? id = some server → host.serviceOf server = some service →
      Sweep result (id :: rest) host (.waits service (.judging id server rest result)) host

theorem Registry.run_remove_of_absent {host : Host} {id : String}
    (absent : host.directory.get? id = none) :
    (Registry.remove id).run host = (.done false, host) := by
  simp [Registry.remove, absent]

theorem Registry.run_remove_of_killed {host : Host} {id : String} {server : ServerId}
    (there : host.directory.get? id = some server) (killed : host.serviceOf server = none) :
    (Registry.remove id).run host = (.done true, host.leave id) := by
  simp [Registry.remove, there, Server.state, Host.isKilled, killed, withdraw, restsIn]

theorem Registry.run_remove_bind {α : Type} {host : Host} {id : String} {server : ServerId}
    {service : ServiceId} (there : host.directory.get? id = some server)
    (alive : host.serviceOf server = some service) (next : Bool → Flow α) :
    (Registry.remove id >>= next).run host =
      (.call service .state fun answer => do
        let reply ← Server.settle server .state answer
        Registry.withdraw id server (Server.toldState reply)
        next true, host) := by
  simp [Registry.remove, there, Server.state, Host.isKilled, alive, Server.ask]

theorem Registry.removeAll_sweep (result : Answer) (ids : List String) (host : Host) :
    ∃ halt after, Sweep result ids host halt after ∧
      (do Registry.removeAll ids; return ⟨result, none⟩ : Flow (Yield Answer)).run host =
        (halt.stop, after) := by
  -- Along the ids; the host changes on the way, and the first server that is alive ends the row.
  induction ids generalizing host with
  | nil => exact ⟨_, _, .ended host, rfl⟩
  | cons id rest ih =>
    simp only [removeAll, bind_assoc]
    cases there : host.directory.get? id with
    | none =>
      obtain ⟨halt, after, sweep, run⟩ := ih host
      refine ⟨halt, after, .absent there sweep, ?_⟩
      rwa [Flow.run_bind_of_done host (run_remove_of_absent there)]
    | some server =>
      cases alive : host.serviceOf server with
      | none =>
        obtain ⟨halt, after, sweep, run⟩ := ih (host.leave id)
        refine ⟨halt, after, .killed there alive sweep, ?_⟩
        rwa [Flow.run_bind_of_done host (run_remove_of_killed there alive)]
      | some service =>
        refine ⟨_, _, .asks there alive, ?_⟩
        rw [run_remove_bind there alive]
        rfl

/-! ## How an operation begins -/

/-- Whether an operation is to put a new server into the directory. -/
def Operation.enters : Operation → Bool
  | load _ | add .. | loadByName _ | addByName .. | addLocal .. => true
  | _ => false

/-- What an operation does up to its first wait. -/
inductive Operation.Section (host : Host) : Operation → Halt → Host → Prop where
  | rejected {operation : Operation} (cause : HostError) (resolvers : Resolvers) :
      operation.enters = true →
      Section host operation (.ended ⟨.entered (.error cause), none⟩) { host with resolvers }
  | made {operation : Operation} (blueprint : Blueprint) (resolvers : Resolvers) (origin : String)
      (config : Option Properties) :
      operation.enters = true →
      Section host operation
        (.waits host.services.length (.wrapping host.services.length origin config))
        (Host.make blueprint { host with resolvers }).2
  | absent {id : String} :
      host.directory.get? id = none →
      Section host (.remove id) (.ended ⟨.flag false, none⟩) host
  | removes {id : String} {server : ServerId} {halt : Halt} {after : Host} :
      host.directory.get? id = some server → Sweep (.flag true) [id] host halt after →
      Section host (.remove id) halt after
  | shuts {halt : Halt} {after : Host} :
      Sweep .done host.ids host halt after → Section host .shutdown halt after
  | spares {id : String} :
      host.directory.get? id = none →
      Section host (.kill id) (.ended ⟨.flag false, none⟩) host
  | kills {id : String} {server : ServerId} :
      host.directory.get? id = some server →
      Section host (.kill id) (.ended ⟨.flag true, none⟩) ((host.leave id).killServer server).2
  | calls {server : ServerId} {query : Query} {service : ServiceId} :
      host.serviceOf server = some service →
      Section host (.call server query) (.waits service (.calling server query)) host
  | refused {server : ServerId} {query : Query} (answer : Answer) (cause : HostError) :
      host.serviceOf server = none →
      Section host (.call server query) (.ended ⟨answer, none⟩) (host.record server cause)
  | rests {server : ServerId} :
      host.serviceOf server = none →
      Section host (.call server .state) (.ended ⟨.state (some .stopped), none⟩) host
  | killsServer {server : ServerId} :
      Section host (.killServer server)
        (.ended ⟨.flag (host.killServer server).1, none⟩) (host.killServer server).2
  | configures {server : ServerId} {config : Properties} :
      Section host (.configure server config) (.ended ⟨.done, none⟩) (host.configure server config)

/-- What the factory of a name makes of code, with the origin of the code. -/
def Host.build (host : Host) (name : String) (code : Blob) (origin : String) :
    Except HostError (Blueprint × String) :=
  match host.factories.instantiate name code with
  | .error cause => .error (.resolution name cause.message)
  | .ok blueprint => .ok (blueprint, origin)

/-- What a name is resolved to. -/
def Host.supplied (host : Host) (name : String) : Except HostError (Blueprint × String) :=
  match host.deployed.get? name with
  | none => .error (.resolution name "no resolver deployed")
  | some resolver =>
    let origin := host.resolvers.describe resolver
    match (host.findCode resolver name).1 with
    | none => .error (.resolution name s!"{origin} has no code for it")
    | some code => host.build name code origin

section

variable {host after : Host} {halt : Halt}

theorem Operation.Section.sweep_of_remove {id : String} {server : ServerId}
    (part : (remove id).Section host halt after) (there : host.directory.get? id = some server) :
    Sweep (.flag true) [id] host halt after := by
  cases part with
  | rejected _ _ enters | made _ _ _ _ enters => cases enters
  | absent none => cases none.symm.trans there
  | removes _ sweep => exact sweep

theorem Operation.Section.sweep_of_shutdown (part : shutdown.Section host halt after) :
    Sweep .done host.ids host halt after := by
  cases part with
  | rejected _ _ enters | made _ _ _ _ enters => cases enters
  | shuts sweep => exact sweep

end

namespace Registry

variable (host : Host)

/-- A name is resolved to what the host is supplied with. -/
theorem run_resolve (name : String) : ∃ resolvers,
    (resolve name).outcome.run host =
      match host.supplied name with
      | .error cause => (.done (.error cause), { host with resolvers })
      | .ok (blueprint, origin) =>
        (.done (.ok (host.services.length, origin)),
          (Host.make blueprint { host with resolvers }).2) := by
  unfold Host.supplied Host.build
  cases deployed : host.deployed.get? name with
  | none =>
    refine ⟨host.resolvers, ?_⟩
    simp [resolve, Attempt.host, deployed]
  | some resolver =>
    cases looked : host.findCode resolver name with
    | mk code after =>
      -- A lookup leaves its mark on the resolvers only.
      have same : after = { host with resolvers := after.resolvers } := by
        cases looked
        rfl
      refine ⟨after.resolvers, ?_⟩
      cases code with
      | none => simp [resolve, Attempt.host, Attempt.act, deployed, looked, ← same]
      | some code =>
        cases built : host.factories.instantiate name code with
        | error cause =>
          simp [resolve, Attempt.host, Attempt.act, deployed, looked, built, ← same]
        | ok blueprint =>
          have services : after.services = host.services := by rw [same]
          simp [resolve, Attempt.host, Attempt.act, deployed, looked, built, ← same, Host.id_make,
            services]

/-- A service that was built is asked for its id first. -/
theorem run_enter (service : ServiceId) (origin : String) :
    (entering (enter service origin)).run host =
      ((Halt.waits service (.wrapping service origin none)).stop, host) := by
  simp [entering, enter, Server.wrap]
  rfl

theorem run_enter_start (service : ServiceId) (origin : String) (config : Properties) :
    (entering do startEntered (← enter service origin) config).run host =
      ((Halt.waits service (.wrapping service origin (some config))).stop, host) := by
  simp [entering, enter, Server.wrap]
  rfl

theorem run_act_entering {α : Type} (change : Host → α × Host) (next : α → Attempt ServerId) :
    (entering (Attempt.act change >>= next)).run host =
      (entering (next (change host).1)).run (change host).2 := by
  simp [entering, Attempt.act]

theorem run_entering_of_error {α : Type} {host after : Host} {first : Attempt α}
    {cause : HostError} (fails : first.outcome.run host = (.done (.error cause), after))
    (next : α → Attempt ServerId) :
    (entering (first >>= next)).run host = (.done ⟨.entered (.error cause), none⟩, after) := by
  rw [entering, Attempt.outcome_bind, bind_assoc, Flow.run_bind_of_done host fails]
  rfl

theorem run_entering_of_ok {α : Type} {host after : Host} {first : Attempt α}
    {result : α} (succeeds : first.outcome.run host = (.done (.ok result), after))
    (next : α → Attempt ServerId) :
    (entering (first >>= next)).run host = (entering (next result)).run after := by
  rw [entering, Attempt.outcome_bind, bind_assoc, Flow.run_bind_of_done host succeeds]
  rfl

end Registry

/-- What an operation does up to its first wait is among the sections. -/
theorem Operation.run_flow (operation : Operation) (host : Host) :
    ∃ halt after, operation.Section host halt after ∧
      operation.flow.run host = (halt.stop, after) := by
  cases operation with
  | load blueprint =>
    refine ⟨_, _, .made blueprint host.resolvers Host.localOrigin none rfl, ?_⟩
    rw [flow, Registry.run_act_entering, Registry.load, Registry.run_enter, Host.id_make]
  | add blueprint config =>
    refine ⟨_, _, .made blueprint host.resolvers Host.localOrigin (some config) rfl, ?_⟩
    rw [flow, Registry.run_act_entering]
    exact (Registry.run_enter_start ..).trans (by rw [Host.id_make])
  | loadByName name =>
    obtain ⟨resolvers, run⟩ := Registry.run_resolve host name
    rcases supplied : host.supplied name with cause | ⟨blueprint, origin⟩ <;>
      simp only [supplied] at run
    · refine ⟨_, _, .rejected cause resolvers rfl, ?_⟩
      rw [flow, Registry.loadByName, Registry.run_entering_of_error run]
      rfl
    · refine ⟨_, _, .made blueprint resolvers origin none rfl, ?_⟩
      rw [flow, Registry.loadByName, Registry.run_entering_of_ok run, Registry.run_enter]
  | addByName name config =>
    obtain ⟨resolvers, run⟩ := Registry.run_resolve host name
    rcases supplied : host.supplied name with cause | ⟨blueprint, origin⟩ <;>
      simp only [supplied] at run
    · refine ⟨_, _, .rejected cause resolvers rfl, ?_⟩
      rw [flow, Registry.addByName, Registry.loadByName, bind_assoc,
        Registry.run_entering_of_error run]
      rfl
    · refine ⟨_, _, .made blueprint resolvers origin (some config) rfl, ?_⟩
      rw [flow, Registry.addByName, Registry.loadByName, bind_assoc,
        Registry.run_entering_of_ok run]
      exact Registry.run_enter_start ..
  | addLocal name config =>
    cases built : host.factories.instantiate name [] with
    | error cause =>
      refine ⟨_, _, .rejected (.resolution name cause.message) host.resolvers rfl, ?_⟩
      simp [flow, entering, Registry.addLocal, Attempt.host, built]
      rfl
    | ok blueprint =>
      refine ⟨_, _, .made blueprint host.resolvers Host.factoryOrigin (some config) rfl, ?_⟩
      have run : (entering (Registry.addLocal name config)).run host =
          (entering do
            let service ← Attempt.act (Host.make blueprint)
            Registry.startEntered (← Registry.enter service Host.factoryOrigin) config).run host := by
        simp [entering, Registry.addLocal, Attempt.host, built]
      rw [flow, run, Registry.run_act_entering]
      exact (Registry.run_enter_start ..).trans (by rw [Host.id_make])
  | remove id =>
    cases there : host.directory.get? id with
    | none =>
      refine ⟨_, _, .absent there, ?_⟩
      simp [flow, Registry.run_remove_of_absent there]
      rfl
    | some server =>
      obtain ⟨halt, after, sweep, run⟩ := Registry.removeAll_sweep (.flag true) [id] host
      refine ⟨halt, after, .removes there sweep, ?_⟩
      rw [← run]
      -- A removal is a row of one, but tells whether the id was there.
      cases alive : host.serviceOf server with
      | none =>
        have removed := Registry.run_remove_of_killed there alive
        simp [flow, Registry.removeAll, removed]
      | some service =>
        have asked := Registry.run_remove_bind there alive
          fun found => (pure ⟨.flag found, none⟩ : Flow (Yield Answer))
        have swept := Registry.run_remove_bind there alive
          fun _ => (pure ⟨.flag true, none⟩ : Flow (Yield Answer))
        simpa [flow, Registry.removeAll] using asked.trans swept.symm
  | kill id =>
    cases there : host.directory.get? id with
    | none =>
      refine ⟨_, _, .spares there, ?_⟩
      simp [flow, Registry.kill, there]
      rfl
    | some server =>
      refine ⟨_, _, .kills there, ?_⟩
      simp [flow, Registry.kill, there]
      rfl
  | shutdown =>
    obtain ⟨halt, after, sweep, run⟩ := Registry.removeAll_sweep .done host.ids host
    refine ⟨halt, after, .shuts sweep, ?_⟩
    rw [← run]
    simp [flow, Registry.shutdown]
  | call server query =>
    cases alive : host.serviceOf server with
    | none =>
      rcases query with control | _ | _
      · exact ⟨_, _, .refused (.flag false) (.killed control.name) alive, by
          simp [flow, Server.run_control_of_killed, alive]; rfl⟩
      · exact ⟨_, _, .rests alive, by
          simp [flow, Server.state, Host.isKilled, alive]; rfl⟩
      · exact ⟨_, _, .refused (.id none) (.killed "instance_id") alive, by
          simp [flow, Server.queryId, Server.run_ask_of_killed, alive]; exact ⟨rfl, rfl⟩⟩
    | some service =>
      refine ⟨_, _, .calls alive, ?_⟩
      rcases query with control | _ | _
      · simp [flow, Server.control, Server.ask, alive]
        rfl
      · simp [flow, Server.state, Host.isKilled, Server.ask, alive]
        rfl
      · simp [flow, Server.queryId, Server.ask, alive]
        rfl
  | killServer server => exact ⟨_, _, .killsServer, rfl⟩
  | configure server config => exact ⟨_, _, .configures, rfl⟩

/-! ## How an operation goes on -/

/-- The server around a service that answered with its id. -/
def Server.around (service : ServiceId) (origin : String) (answer : Except ServiceError Reply) :
    Server :=
  ⟨s!"{answeredId answer}/{origin}", origin, some service, none⟩

/-- What an operation does from the answer of a call to its next wait. -/
inductive Stage.Section (host : Host) : Stage → CallAnswer → Halt → Host → Prop where
  | unwrapped {service : ServiceId} {origin : String} {config : Option Properties}
      (cause : CallError) :
      Section host (.wrapping service origin config) (.error cause)
        (.ended ⟨.entered (.error (.ofCall cause)), none⟩) host
  | duplicate {service : ServiceId} {origin : String} {config : Option Properties}
      {answer : Except ServiceError Reply} :
      host.directory.contains (Server.around service origin answer).id = true →
      Section host (.wrapping service origin config) (.ok answer)
        (.ended ⟨.entered (.error (.duplicateInstance (Server.around service origin answer).id)),
          none⟩)
        ((host.addServer (.around service origin answer)).2.killServer host.servers.length).2
  | entered {service : ServiceId} {origin : String} {answer : Except ServiceError Reply} :
      host.directory.get? (Server.around service origin answer).id = none →
      Section host (.wrapping service origin none) (.ok answer)
        (.ended ⟨.entered (.ok host.servers.length), some host.servers.length⟩)
        ((host.addServer (.around service origin answer)).2.enter
          (Server.around service origin answer).id host.servers.length)
  | starts {service : ServiceId} {origin : String} {config : Properties}
      {answer : Except ServiceError Reply} :
      host.directory.get? (Server.around service origin answer).id = none →
      Section host (.wrapping service origin (some config)) (.ok answer)
        (.waits service (.starting host.servers.length))
        (((host.addServer (.around service origin answer)).2.enter
          (Server.around service origin answer).id host.servers.length).configure
            host.servers.length config)
  | started {server : ServerId} {reply : Reply} :
      Section host (.starting server) (.ok (.ok reply))
        (.ended ⟨.entered (.ok server), some server⟩) host
  | rollsBack {server : ServerId} {answer : CallAnswer} (cause : HostError) :
      Server.replyOf answer = none →
      Section host (.starting server) answer (.ended ⟨.entered (.error cause), none⟩)
        (Registry.rolledBack server (host.noted server (.control .start) answer))
  | judged {id : String} {server : ServerId} {rest : List String} {result : Answer}
      {answer : CallAnswer} {halt : Halt} {after : Host} :
      Registry.restsIn (Server.toldState (Server.replyOf answer)) = true →
      Sweep result rest ((host.noted server .state answer).leave id) halt after →
      Section host (.judging id server rest result) answer halt after
  | stops {id : String} {server : ServerId} {rest : List String} {result : Answer}
      {answer : CallAnswer} {service : ServiceId} :
      Registry.restsIn (Server.toldState (Server.replyOf answer)) = false →
      host.serviceOf server = some service →
      Section host (.judging id server rest result) answer
        (.waits service (.stopping id server rest result)) (host.noted server .state answer)
  /-- The server was killed while its state was asked for. -/
  | outrun {id : String} {server : ServerId} {rest : List String} {result : Answer}
      {answer : CallAnswer} {halt : Halt} {after : Host} :
      Registry.restsIn (Server.toldState (Server.replyOf answer)) = false →
      host.serviceOf server = none →
      Sweep result rest (Registry.unregistered id server false
        ((host.noted server .state answer).record server (.killed "stop"))) halt after →
      Section host (.judging id server rest result) answer halt after
  | stopped {id : String} {server : ServerId} {rest : List String} {result : Answer}
      {answer : CallAnswer} {halt : Halt} {after : Host} :
      Sweep result rest (Registry.unregistered id server (Server.replyOf answer).isSome
        (host.noted server (.control .stop) answer)) halt after →
      Section host (.stopping id server rest result) answer halt after
  | answered {server : ServerId} {query : Query} {answer : CallAnswer} :
      Section host (.calling server query) answer
        (.ended ⟨.ofReply query (Server.replyOf answer), none⟩) (host.noted server query answer)

@[simp] theorem Host.serviceOf_noted (host : Host) (server other : ServerId) (query : Query)
    (answer : CallAnswer) : (host.noted server query answer).serviceOf other = host.serviceOf other := by
  rcases answer with cause | (cause | reply) <;> simp [Host.noted]

theorem Host.idOf_addServer (host : Host) (server : Server) :
    (host.addServer server).2.idOf host.servers.length = server.id := by
  simp [Host.idOf, Host.server?, Host.addServer]

namespace Registry

variable (host : Host)

theorem run_wrapped_file (service : ServiceId) (origin : String)
    (answer : Except ServiceError Reply) :
    (do file (← Server.wrapped service origin (.ok answer)) : Attempt ServerId).outcome.run host =
      if host.directory.contains (Server.around service origin answer).id then
        (.done (.error (.duplicateInstance (Server.around service origin answer).id)),
          ((host.addServer (.around service origin answer)).2.killServer host.servers.length).2)
      else
        (.done (.ok host.servers.length),
          (host.addServer (.around service origin answer)).2.enter
            (Server.around service origin answer).id host.servers.length) := by
  have filed := run_file (host.addServer (.around service origin answer)).2 host.servers.length
  rw [Host.idOf_addServer, Host.directory_addServer] at filed
  rw [← filed]
  simp [Server.wrapped, Attempt.act]
  rfl

theorem run_startEntered {server : ServerId} {service : ServiceId} (config : Properties)
    (alive : host.serviceOf server = some service) :
    (entering (startEntered server config)).run host =
      ((Halt.waits service (.starting server)).stop, host.configure server config) := by
  have there : (host.configure server config).serviceOf server = some service := by
    rw [Host.serviceOf_configure, alive]
  have waits : (Halt.waits service (.starting server)).stop = .call service (.control .start)
      (Stage.starting server).next := rfl
  simp [entering, startEntered, Attempt.modify, Server.control, Server.run_ask_bind, there, waits]
  funext answer
  simp [Stage.next, entering]

end Registry

/-- A server that did not start is rolled back, for the reason that its start has left. -/
theorem Stage.run_starting_of_failure {server : ServerId} {answer : CallAnswer}
    (fails : Server.replyOf answer = none) (host : Host) :
    ((starting server).next answer).run host =
      (.done ⟨.entered (.error (Registry.causeOf (host.noted server (.control .start) answer) server)),
          none⟩,
        Registry.rolledBack server (host.noted server (.control .start) answer)) := by
  have settled := Server.run_settle host server (.control .start) answer
  rw [fails] at settled
  rw [next, entering, Attempt.outcome_of_bind, bind_assoc, Flow.run_bind_of_done host settled]
  exact Flow.run_bind_of_done _ (Registry.run_rollBack ..) _

theorem Stage.run_next (stage : Stage) (answer : CallAnswer) (host : Host) :
    ∃ halt after, stage.Section host answer halt after ∧
      (stage.next answer).run host = (halt.stop, after) := by
  cases stage with
  | wrapping service origin config =>
    cases answer with
    | error cause => exact ⟨_, _, .unwrapped cause, by cases config <;> rfl⟩
    | ok answer =>
      have filed := Registry.run_wrapped_file host service origin answer
      cases taken : host.directory.get? (Server.around service origin answer).id with
      | some other =>
        have contained : host.directory.contains (Server.around service origin answer).id = true := by
          simp [Table.contains, taken]
        rw [if_pos contained] at filed
        refine ⟨_, _, .duplicate contained, ?_⟩
        cases config with
        | none => exact Flow.run_bind_of_done host filed _
        | some config => exact Registry.run_entering_of_error filed _
      | none =>
        have vacant : ¬host.directory.contains (Server.around service origin answer).id = true := by
          simp [Table.contains, taken]
        rw [if_neg vacant] at filed
        cases config with
        | none => exact ⟨_, _, .entered taken, Flow.run_bind_of_done host filed _⟩
        | some config =>
          refine ⟨_, _, .starts taken, (Registry.run_entering_of_ok filed _).trans ?_⟩
          exact Registry.run_startEntered _ config (by simp [Host.serviceOf_addServer, Server.around])
  | starting server =>
    cases reply : Server.replyOf answer with
    | none => exact ⟨_, _, .rollsBack _ reply, Stage.run_starting_of_failure reply host⟩
    | some told =>
      obtain rfl : answer = .ok (.ok told) := by
        rcases answer with cause | (cause | reply) <;> cases reply
        rfl
      exact ⟨_, _, .started, rfl⟩
  | judging id server rest result =>
    cases rests : Registry.restsIn (Server.toldState (Server.replyOf answer)) with
    | true =>
      obtain ⟨halt, after, sweep, run⟩ :=
        Registry.removeAll_sweep result rest ((host.noted server .state answer).leave id)
      refine ⟨halt, after, .judged rests sweep, ?_⟩
      rw [← run, next, Flow.run_bind_of_done host (Server.run_settle host server .state answer)]
      simp [Registry.withdraw, rests]
    | false =>
      cases alive : host.serviceOf server with
      | none =>
        obtain ⟨halt, after, sweep, run⟩ := Registry.removeAll_sweep result rest
          (Registry.unregistered id server false
            ((host.noted server .state answer).record server (.killed "stop")))
        refine ⟨halt, after, .outrun rests alive sweep, ?_⟩
        rw [← run, next, Flow.run_bind_of_done host (Server.run_settle host server .state answer)]
        -- The stop is refused at once, as the server has let go of its service.
        have refused := Server.run_control_of_killed (host.noted server .state answer) server .stop
          (by rw [Host.serviceOf_noted, alive])
        have withdrawn := (Flow.run_bind_of_done _ refused (Registry.unregister id server)).trans
          (Registry.run_unregister ..)
        rw [Registry.withdraw, rests]
        exact Flow.run_bind_of_done _ withdrawn _
      | some service =>
        refine ⟨_, _, .stops rests alive, ?_⟩
        rw [next, Flow.run_bind_of_done host (Server.run_settle host server .state answer)]
        have there : (host.noted server .state answer).serviceOf server = some service := by
          rw [Host.serviceOf_noted, alive]
        simp [Registry.withdraw, rests, Server.control, Server.run_ask_bind, there]
        rfl
  | stopping id server rest result =>
    obtain ⟨halt, after, sweep, run⟩ := Registry.removeAll_sweep result rest
      (Registry.unregistered id server (Server.replyOf answer).isSome
        (host.noted server (.control .stop) answer))
    refine ⟨halt, after, .stopped sweep, ?_⟩
    rw [← run, next, Flow.run_bind_of_done host (Server.run_settle ..),
      Flow.run_bind_of_done _ (Registry.run_unregister ..)]
  | calling server query =>
    refine ⟨_, _, .answered, ?_⟩
    rw [next, Flow.run_bind_of_done host (Server.run_settle host server query answer)]
    rfl

end ServiceHost
