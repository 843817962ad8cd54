import ServiceHost.Proofs.Host.Registration

/-! What calls leave with the servers that they go through.

A call that fails leaves its error with its server, and nothing else ever does.
-/

set_option autoImplicit false

namespace ServiceHost

namespace Server

/-- What a call comes to for the server that it went through. -/
def result (query : Query) : CallAnswer → Except HostError Reply
  | .ok (.ok reply) => .ok reply
  | .ok (.error cause) => .error (.ofService query.operation cause)
  | .error cause => .error (.ofCall cause)

/-- What a call comes to when the server is killed already. -/
def refusal : Query → Except HostError Reply
  | .state => .ok (.state .stopped)
  | query => .error (.killed query.operation)

theorem replyOf_eq (query : Query) (answer : CallAnswer) :
    replyOf answer = (result query answer).toOption := by
  rcases answer with cause | (cause | reply) <;> rfl

end Server

/-- A call through a server that has been answered. -/
structure Completion where
  /-- The place of the procedure that has made the call. -/
  place : Nat
  server : ServerId
  query : Query
  /-- The number of the call, if it went to the service. -/
  call : Option Nat
  result : Except HostError Reply

/-- The error that a completed call leaves with a server. -/
def Completion.fault? (server : ServerId) (completion : Completion) : Option HostError :=
  match completion.result with
  | .ok _ => none
  | .error cause => if completion.server = server then some cause else none

def faults (server : ServerId) (completions : List Completion) : List HostError :=
  completions.filterMap (Completion.fault? server)

/-- The server that the call of a stage goes through. -/
def Stage.server? : Stage → Option ServerId
  | wrapping .. => none
  | starting server | judging _ server .. | stopping _ server .. | calling server _ => some server

/-- What is completed when a procedure hears of its call. A removal that finds the server killed by
then is refused its stop at once. -/
def Stage.completions (host : Host) (place number : Nat) (answer : CallAnswer) :
    Stage → List Completion
  | wrapping .. => []
  | judging _ server _ _ =>
    ⟨place, server, .state, some number, Server.result .state answer⟩ ::
      if Registry.restsIn (Server.toldState (Server.replyOf answer)) ||
        !host.isKilled server then []
      else [⟨place, server, .control .stop, none, Server.refusal (.control .stop)⟩]
  | starting server =>
    [⟨place, server, .control .start, some number, Server.result (.control .start) answer⟩]
  | stopping _ server _ _ =>
    [⟨place, server, .control .stop, some number, Server.result (.control .stop) answer⟩]
  | calling server query => [⟨place, server, query, some number, Server.result query answer⟩]

namespace Host

variable {host : Host} {server other : ServerId}

theorem lastError_of_servers {after : Host} (same : after.servers = host.servers)
    (server : ServerId) : after.lastError server = host.lastError server := by
  rw [lastError, lastError, server?, server?, same]

theorem lastError_updateServer {change : Server → Server}
    (keeps : ∀ entry, (change entry).lastError = entry.lastError) (server other : ServerId) :
    (host.updateServer server change).lastError other = host.lastError other := by
  rw [lastError, lastError, server?_updateServer]
  split
  · cases host.server? other with
    | none => rfl
    | some entry => exact keeps entry
  · rfl

@[simp] theorem lastError_killServer (host : Host) (server other : ServerId) :
    (host.killServer server).2.lastError other = host.lastError other := by
  unfold killServer
  split
  · rfl
  · have keeps : ∀ entry : Server,
        ({ entry with service := none } : Server).lastError = entry.lastError := fun _ => rfl
    exact lastError_updateServer keeps server other

@[simp] theorem lastError_configure (host : Host) (server other : ServerId) (config : Properties) :
    (host.configure server config).lastError other = host.lastError other := by
  unfold configure
  split <;> rfl

@[simp] theorem lastError_make (host : Host) (blueprint : Blueprint) (other : ServerId) :
    (host.make blueprint).2.lastError other = host.lastError other :=
  lastError_of_servers (host.servers_make blueprint) other

/-- A new server has no error yet. -/
@[simp] theorem lastError_around (host : Host) (service : ServiceId) (origin : String)
    (answer : Except ServiceError Reply) (other : ServerId) :
    (host.addServer (.around service origin answer)).2.lastError other = host.lastError other := by
  rw [lastError, lastError, server?, server?]
  change ((host.servers ++ [_])[other]?).bind _ = _
  by_cases new : other = host.servers.length
  · subst new
    rw [List.getElem?_concat_length, List.getElem?_eq_none (Nat.le_refl _)]
    rfl
  · rw [List.getElem?_append]
    split
    · rfl
    · rename_i beyond
      have past := Nat.lt_of_le_of_ne (Nat.le_of_not_lt beyond) (Ne.symm new)
      rw [List.getElem?_eq_none (Nat.le_of_lt past),
        List.getElem?_eq_none (Nat.sub_pos_of_lt past)]

@[simp] theorem lastError_enter (host : Host) (id : String) (server other : ServerId) :
    (host.enter id server).lastError other = host.lastError other := rfl

@[simp] theorem lastError_leave (host : Host) (id : String) (other : ServerId) :
    (host.leave id).lastError other = host.lastError other := rfl

@[simp] theorem lastError_rolledBack (host : Host) (server other : ServerId) :
    (Registry.rolledBack server host).lastError other = host.lastError other :=
  lastError_killServer ..

@[simp] theorem lastError_unregistered (host : Host) (id : String) (server other : ServerId)
    (stopped : Bool) : (Registry.unregistered id server stopped host).lastError other =
      host.lastError other := by
  unfold Registry.unregistered
  split <;> rfl

theorem lastError_record (bound : server < host.servers.length) (cause : HostError) :
    (host.record server cause).lastError other =
      if server = other then some cause else host.lastError other := by
  rw [lastError, record, server?_updateServer, server?]
  by_cases same : other = server
  · subst same
    simp [bound]
  · rw [if_neg same, if_neg (Ne.symm same)]
    rfl

theorem length_noted (host : Host) (server : ServerId) (query : Query) (answer : CallAnswer) :
    (host.noted server query answer).servers.length = host.servers.length := by
  rcases answer with cause | (cause | reply)
  · exact List.length_modify ..
  · exact List.length_modify ..
  · rfl

theorem lastError_fault (bound : server < host.servers.length) (place : Nat) (call : Option Nat)
    (query : Query) (cause : HostError) (other : ServerId) :
    (host.record server cause).lastError other =
      (faults other [⟨place, server, query, call, .error cause⟩]).getLast?.or
        (host.lastError other) := by
  rw [lastError_record bound]
  by_cases same : server = other <;> simp [faults, Completion.fault?, same]

/-- The error of a call that failed is what a server keeps of the call. -/
theorem lastError_noted (bound : server < host.servers.length) (place : Nat) (call : Option Nat)
    (query : Query) (answer : CallAnswer) (other : ServerId) :
    (host.noted server query answer).lastError other =
      (faults other [⟨place, server, query, call, Server.result query answer⟩]).getLast?.or
        (host.lastError other) := by
  rcases answer with cause | (cause | reply)
  · exact lastError_fault bound ..
  · exact lastError_fault bound ..
  · rfl

end Host

theorem faults_append (server : ServerId) (first second : List Completion) :
    faults server (first ++ second) = faults server first ++ faults server second :=
  List.filterMap_append ..

theorem Sweep.lastError {result : Answer} {ids : List String} {host after : Host} {halt : Halt}
    (sweep : Sweep result ids host halt after) (server : ServerId) :
    after.lastError server = host.lastError server := by
  obtain ⟨directory, rfl⟩ := sweep.frame
  rfl

/-- Up to its first wait, an operation leaves an error only if it is a call that is refused. -/
theorem Operation.Section.lastError {operation : Operation} {host after : Host} {halt : Halt}
    (part : operation.Section host halt after) (other : ServerId)
    (reaches : ∀ server query, operation = .call server query →
      (host.serviceOf server).isSome = true) : after.lastError other = host.lastError other := by
  cases part with
  | rejected | absent | spares | calls | rests => rfl
  | made => exact Host.lastError_make ..
  | removes _ sweep => exact sweep.lastError other
  | shuts sweep => exact sweep.lastError other
  | kills | killsServer => simp
  | refused _ _ killed =>
    have alive := reaches _ _ rfl
    rw [killed] at alive
    cases alive
  | configures => simp

/-- A procedure that hears of its call leaves the errors of what is completed with it. -/
theorem Stage.Section.lastError {stage : Stage} {answer : CallAnswer} {host after : Host}
    {halt : Halt} (part : stage.Section host answer halt after)
    (bound : ∀ server, stage.server? = some server → server < host.servers.length)
    (place number : Nat) (other : ServerId) :
    after.lastError other =
      (faults other (stage.completions host place number answer)).getLast?.or
        (host.lastError other) := by
  cases part with
  | unwrapped => rfl
  | duplicate | entered | starts => simp [completions, faults]
  | started => rfl
  | rollsBack =>
    rw [Host.lastError_rolledBack]
    exact Host.lastError_noted (bound _ rfl) ..
  | judged rests sweep =>
    rw [sweep.lastError, Host.lastError_leave, completions, rests]
    exact Host.lastError_noted (bound _ rfl) ..
  | stops awake alive =>
    rw [completions, awake, Host.isKilled, alive]
    exact Host.lastError_noted (bound _ rfl) ..
  | @outrun id server _ _ _ _ _ awake killed sweep =>
    have noted := bound server rfl
    rw [← Host.length_noted host server .state answer] at noted
    rw [sweep.lastError, Host.lastError_unregistered, Host.lastError_record noted,
      Host.lastError_noted (bound _ rfl) place (some number), completions, awake, Host.isKilled,
      killed]
    by_cases same : server = other <;>
      simp [faults, Completion.fault?, Server.refusal, Query.operation, Control.name, same]
  | stopped sweep =>
    rw [sweep.lastError, Host.lastError_unregistered]
    exact Host.lastError_noted (bound _ rfl) ..
  | answered => exact Host.lastError_noted (bound _ rfl) ..

/-! ## Calls that are refused -/

/-- Whether there is a server that is killed. -/
def Host.hasKilled (host : Host) (server : ServerId) : Bool :=
  (host.server? server).any fun entry => entry.service.isNone

theorem Host.hasKilled_of_bound {host : Host} {server : ServerId}
    (bound : server < host.servers.length) (killed : host.serviceOf server = none) :
    host.hasKilled server = true := by
  have there := List.getElem?_eq_getElem bound
  rw [serviceOf, server?, there] at killed
  rw [hasKilled, server?, there]
  exact Option.isNone_iff_eq_none.mpr killed

theorem Host.hasKilled_of_held {host : Host} {server : ServerId} {service : ServiceId}
    (held : host.serviceOf server = some service) : host.hasKilled server = false := by
  obtain ⟨entry, there, own⟩ := Option.bind_eq_some_iff.mp held
  simp [hasKilled, there, own]

/-- What a call leaves of a host whose server is killed. -/
def Host.refused (host : Host) (server : ServerId) : Query → Host
  | .state => host
  | query => host.record server (.killed query.operation)

theorem Host.lastError_refused {host : Host} {server : ServerId}
    (killed : host.serviceOf server = none) (place : Nat) (query : Query) (other : ServerId) :
    (host.refused server query).lastError other =
      (faults other (if host.hasKilled server then
          [⟨place, server, query, none, Server.refusal query⟩] else [])).getLast?.or
        (host.lastError other) := by
  have recorded : ∀ cause, (host.record server cause).lastError other =
      (faults other (if host.hasKilled server then
          [⟨place, server, query, none, .error cause⟩] else [])).getLast?.or
        (host.lastError other) := by
    intro cause
    by_cases bound : server < host.servers.length
    · rw [if_pos (hasKilled_of_bound bound killed)]
      exact lastError_fault bound ..
    -- There is no such server, so nothing is kept.
    · have absent : host.server? server = none :=
        List.getElem?_eq_none (Nat.le_of_not_lt bound)
      have kept : (host.record server cause).server? other = host.server? other := by
        rw [record, server?_updateServer]
        split
        · rename_i same
          rw [same, absent]
          rfl
        · rfl
      simp [lastError, kept, hasKilled, absent, faults]
  rcases query with control | _ | _
  · exact recorded _
  · simp [refused, Server.refusal, faults, Completion.fault?, apply_ite]
  · exact recorded _

theorem Operation.run_call_of_killed {host : Host} {server : ServerId} (query : Query)
    (killed : host.serviceOf server = none) : (call server query).flow.run host =
      ((Halt.ended ⟨.ofReply query (Server.refusal query).toOption, none⟩).stop,
        host.refused server query) := by
  rcases query with control | _ | _
  · simp [flow, Server.run_control_of_killed, killed]
    exact ⟨rfl, rfl⟩
  · simp [flow, Server.state, Host.isKilled, killed]
    exact ⟨rfl, rfl⟩
  · simp [flow, Server.queryId, Server.run_ask_of_killed, killed]
    exact ⟨rfl, rfl⟩

end ServiceHost
