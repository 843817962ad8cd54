import ServiceHost.Host.Registry

/-! Procedures up to their next call, as equations: each of them says how a procedure stops and
what it has made of the host by then. -/

set_option autoImplicit false

namespace ServiceHost

namespace Flow

variable {α β : Type} (host : Host)

@[simp] theorem run_pure (result : α) : (pure result : Flow α).run host = (.done result, host) :=
  rfl

@[simp] theorem run_read_bind (view : Host → α) (next : α → Flow β) :
    (read view >>= next).run host = (next (view host)).run host := rfl

@[simp] theorem run_act (change : Host → α × Host) :
    (act change).run host = (.done (change host).1, (change host).2) := rfl

@[simp] theorem run_act_bind (change : Host → α × Host) (next : α → Flow β) :
    (act change >>= next).run host = (next (change host).1).run (change host).2 := rfl

@[simp] theorem run_modify (change : Host → Host) :
    (modify change).run host = (.done (), change host) := rfl

@[simp] theorem run_modify_bind (change : Host → Host) (next : Unit → Flow β) :
    (modify change >>= next).run host = (next ()).run (change host) := rfl

@[simp] theorem run_ask_bind (service : ServiceId) (query : Query) (next : CallAnswer → Flow β) :
    (ask service query >>= next).run host = (.call service query next, host) := rfl

/-- What is done with a result does not change how a procedure gets to it. -/
@[simp] theorem run_map (flow : Flow α) (change : α → β) :
    (change <$> flow).run host =
      match flow.run host with
      | (.done result, host) => (.done (change result), host)
      | (.call service query next, host) =>
        (.call service query fun answer => change <$> next answer, host) := by
  rw [← bind_pure_comp]
  exact run_bind flow (fun result => pure (change result)) host

theorem run_bind_of_done {flow : Flow α} {result : α} {after : Host}
    (ends : flow.run host = (.done result, after)) (next : α → Flow β) :
    (flow >>= next).run host = (next result).run after := by
  have equation := run_bind flow next host
  rw [ends] at equation
  exact equation

end Flow

namespace Attempt

variable {α β : Type}

@[simp] theorem outcome_pure (result : α) : outcome (pure result) = pure (.ok result) := rfl

@[simp] theorem outcome_throw (cause : HostError) :
    outcome (throw cause : Attempt α) = pure (.error cause) := rfl

@[simp] theorem outcome_of_bind (flow : Flow α) (next : α → Attempt β) :
    outcome (of flow >>= next) = flow >>= fun result => (next result).outcome := by
  simp [outcome, of]

@[simp] theorem outcome_of_map (flow : Flow α) (change : α → β) :
    outcome (change <$> of flow) = (fun result => .ok (change result)) <$> flow := by
  simp only [outcome, of, ExceptT.run_map, ExceptT.run_lift, Functor.map_map]
  rfl

theorem outcome_bind (first : Attempt α) (next : α → Attempt β) :
    outcome (first >>= next) = first.outcome >>= fun attempted =>
      match attempted with
      | .ok result => (next result).outcome
      | .error cause => pure (.error cause) := by
  simp only [outcome, ExceptT.run_bind]
  congr 1
  funext attempted
  cases attempted <;> rfl

end Attempt

namespace Server

/-- The reply in an answer, if there is one. -/
def replyOf : CallAnswer → Option Reply
  | .ok (.ok reply) => some reply
  | _ => none

end Server

/-- The host with the cause of a failure kept, if an answer was one. -/
def Host.noted (server : ServerId) (query : Query) (answer : CallAnswer) (host : Host) : Host :=
  match answer with
  | .ok (.ok _) => host
  | .ok (.error cause) => host.record server (.ofService query.operation cause)
  | .error cause => host.record server (.ofCall cause)

namespace Server

variable (host : Host) (server : ServerId)

theorem run_settle (query : Query) (answer : CallAnswer) :
    (settle server query answer).run host =
      (.done (replyOf answer), host.noted server query answer) := by
  rcases answer with cause | (cause | reply) <;> rfl

theorem run_ask_of_killed (query : Query) (killed : host.serviceOf server = none) :
    (ask server query).run host =
      (.done none, host.record server (.killed query.operation)) := by
  simp [ask, killed]

theorem run_control_of_killed (asked : Control) (killed : host.serviceOf server = none) :
    (control server asked).run host =
      (.done false, host.record server (.killed asked.name)) := by
  simp [control, Flow.run_map, run_ask_of_killed, killed, Query.operation]

theorem run_ask_bind {α : Type} {service : ServiceId} (query : Query)
    (alive : host.serviceOf server = some service) (next : Option Reply → Flow α) :
    (ask server query >>= next).run host =
      (.call service query fun answer => settle server query answer >>= next, host) := by
  simp [ask, alive]

end Server

namespace Registry

variable (host : Host) (server : ServerId)

theorem run_file :
    (file server).outcome.run host =
      if host.directory.contains (host.idOf server) then
        (.done (.error (.duplicateInstance (host.idOf server))), (host.killServer server).2)
      else (.done (.ok server), host.enter (host.idOf server) server) := by
  split <;> simp [file, Attempt.host, Attempt.act, Attempt.modify, *]

/-- Why a server did not start. -/
def causeOf (host : Host) (server : ServerId) : HostError :=
  (host.lastError server).getD (.execution "start" "start reported failure")

/-- The host without a server that did not start. -/
def rolledBack (server : ServerId) (host : Host) : Host :=
  let id := host.idOf server
  ((host.leave id).killServer server).2.error
    s!"adding {id} failed and was rolled back: {(causeOf host server).message}"

theorem run_rollBack :
    (rollBack server).outcome.run host =
      (.done (.error (causeOf host server)), rolledBack server host) := by
  simp [rollBack, Attempt.host, Attempt.act, Attempt.modify, causeOf, rolledBack]

/-- The host that an id left whose server could not be stopped, if it could not be. -/
def unregistered (instanceId : String) (server : ServerId) (stopped : Bool) (host : Host) : Host :=
  if stopped then host.leave instanceId
  else
    let text := ((host.lastError server).map HostError.message).getD ""
    (host.error s!"stop of {instanceId} failed during removal: {text}").leave instanceId

theorem run_unregister (instanceId : String) (stopped : Bool) :
    (unregister instanceId server stopped).run host =
      (.done (), unregistered instanceId server stopped host) := by
  cases stopped <;> simp [unregister, unregistered]

end Registry
end ServiceHost
