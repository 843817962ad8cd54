import ServiceHost.Host.Server

/-! The registry: servers enter it by name or as they are, and leave it by removal, by a
kill, or because they did not start. -/

set_option autoImplicit false

namespace ServiceHost.Registry

/-- Makes the service of that name from code that its deployed resolver finds. Gives its origin,
too. -/
def resolve (name : String) : Attempt (ServiceId × String) := do
  let host ← Attempt.host
  match host.deployed.get? name with
  | none => throw (.resolution name "no resolver deployed")
  | some resolver =>
    let label := host.resolvers.describe resolver
    match ← Attempt.act (Host.findCode resolver name) with
    | none => throw (.resolution name s!"{label} has no code for it")
    | some code =>
      match host.factories.instantiate name code with
      | .error cause => throw (.resolution name cause.message)
      | .ok blueprint => return (← Attempt.act (Host.make blueprint), label)

/-- Enters a server under its id. When the id is taken, the server is killed. -/
def file (server : ServerId) : Attempt ServerId := do
  let host ← Attempt.host
  let instanceId := host.idOf server
  if host.directory.contains instanceId then
    let _ ← Attempt.act (Host.killServer server)
    throw (.duplicateInstance instanceId)
  Attempt.modify (Host.enter instanceId server)
  return server

def enter (service : ServiceId) (origin : String) : Attempt ServerId := do
  file (← Server.wrap service origin)

/-- Takes a server that did not start out of the directory, and kills it. -/
def rollBack (server : ServerId) : Attempt ServerId := do
  let host ← Attempt.host
  let cause := (host.lastError server).getD (.execution "start" "start reported failure")
  let instanceId := host.idOf server
  Attempt.modify (Host.leave instanceId)
  let _ ← Attempt.act (Host.killServer server)
  Attempt.modify (Host.error s!"adding {instanceId} failed and was rolled back: {cause.message}")
  throw cause

def conclude (server : ServerId) (started : Bool) : Attempt ServerId :=
  if started then return server else rollBack server

/-- Configures and starts a server that is in the directory. When it does not start, it leaves the
directory and is killed. -/
def startEntered (server : ServerId) (config : Properties) : Attempt ServerId := do
  Attempt.modify (Host.configure server config)
  conclude server (← Attempt.of (Server.control server .start))

def load (service : ServiceId) : Attempt ServerId := enter service Host.localOrigin

def loadByName (name : String) : Attempt ServerId := do
  let (service, origin) ← resolve name
  enter service origin

def add (service : ServiceId) (config : Properties) : Attempt ServerId := do
  startEntered (← load service) config

def addByName (name : String) (config : Properties) : Attempt ServerId := do
  startEntered (← loadByName name) config

/-- Makes a service from its factory and no code, and enters, configures and starts it. -/
def addLocal (name : String) (config : Properties) : Attempt ServerId := do
  let host ← Attempt.host
  match host.factories.instantiate name [] with
  | .error cause => throw (.resolution name cause.message)
  | .ok blueprint =>
    let service ← Attempt.act (Host.make blueprint)
    startEntered (← enter service Host.factoryOrigin) config

/-- Whether a removal may go without a stop. -/
def restsIn : Option State → Bool
  | some .stopped | some .paused => true
  | _ => false

/-- Takes an id out of the directory, whether or not its server could be stopped. -/
def unregister (instanceId : String) (server : ServerId) (stopped : Bool) : Flow Unit := do
  if !stopped then
    let cause ← Flow.read (·.lastError server)
    let text := (cause.map HostError.message).getD ""
    Flow.modify (Host.error s!"stop of {instanceId} failed during removal: {text}")
  Flow.modify (Host.leave instanceId)

/-- Stops a server if its state asks for it, and takes its id out of the directory. -/
def withdraw (instanceId : String) (server : ServerId) (state : Option State) : Flow Unit := do
  -- A state that could not be told asks for a stop, too.
  if restsIn state then Flow.modify (Host.leave instanceId)
  else unregister instanceId server (← Server.control server .stop)

/-- Stops a server if its state asks for it, and takes its id out of the directory, whatever the
outcome. Tells whether the id was registered. -/
def remove (instanceId : String) : Flow Bool := do
  match ← Flow.read (·.directory.get? instanceId) with
  | none => return false
  | some server =>
    withdraw instanceId server (← Server.state server)
    return true

def kill (instanceId : String) : Flow Bool :=
  -- No call is made, so nothing comes between the look into the directory and the kill.
  Flow.act fun host =>
    match host.directory.get? instanceId with
    | none => (false, host)
    | some server => (true, ((host.leave instanceId).killServer server).2)

def removeAll : List String → Flow Unit
  | [] => return
  | instanceId :: rest => do
    let _ ← remove instanceId
    removeAll rest

def shutdown : Flow Unit := do
  -- Servers that enter from now on stay.
  removeAll (← Flow.read Host.ids)

end ServiceHost.Registry
