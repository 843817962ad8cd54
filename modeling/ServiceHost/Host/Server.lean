import ServiceHost.Host.Flow

/-! Calls of a service through its server.

Failures do not leave a server as errors: a call that failed has no reply, and the cause
is kept as the last error of the server. -/

set_option autoImplicit false

namespace ServiceHost.Server

/-- The reply in an answer; the cause of a failure is kept. -/
def settle (server : ServerId) (query : Query) : CallAnswer → Flow (Option Reply)
  | .ok (.ok reply) => return some reply
  | .ok (.error cause) => do
    Flow.modify (Host.record server (.ofService query.operation cause))
    return none
  | .error cause => do
    Flow.modify (Host.record server (.ofCall cause))
    return none

/-- Calls the service of a server. A killed server refuses. -/
def ask (server : ServerId) (query : Query) : Flow (Option Reply) := do
  match ← Flow.read (·.serviceOf server) with
  | none =>
    Flow.modify (Host.record server (.killed query.operation))
    return none
  | some service => settle server query (← Flow.ask service query)

def control (server : ServerId) (control : Control) : Flow Bool := do
  return (← ask server (.control control)).isSome

def toldState : Option Reply → Option State
  | some (.state state) => some state
  | _ => none

/-- The state of the service, STOPPED once it was killed. -/
def state (server : ServerId) : Flow (Option State) := do
  if ← Flow.read (·.isKilled server) then return some .stopped
  return toldState (← ask server .state)

def toldId : Option Reply → Option String
  | some (.id text) => some text
  | _ => none

/-- What the service itself says its id is. -/
def queryId (server : ServerId) : Flow (Option String) := do
  return toldId (← ask server .instanceId)

def answeredId : Except ServiceError Reply → String
  | .ok (.id text) => text
  | _ => ""

/-- Puts a server around a service that answered with its id. The instance id has the origin
behind it. -/
def wrapped (service : ServiceId) (origin : String) : CallAnswer → Attempt ServerId
  | .error cause => throw (.ofCall cause)
  | .ok answer =>
    Attempt.act (Host.addServer ⟨s!"{answeredId answer}/{origin}", origin, some service, none⟩)

def wrap (service : ServiceId) (origin : String) : Attempt ServerId := do
  wrapped service origin (← Attempt.of (Flow.ask service .instanceId))

end ServiceHost.Server
