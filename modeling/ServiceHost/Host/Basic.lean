import ServiceHost.Resolver.Store
import ServiceHost.Service.Basic

/-! The data of the host: services, the servers around them, the directory of the
servers by instance id, the deployed resolvers, the factories and the operator's log. -/

set_option autoImplicit false

namespace ServiceHost

abbrev ServiceId := Nat

abbrev ServerId := Nat

/-- What a factory makes. The label is a caller's own mark, of which the host takes no notice. -/
structure Blueprint where
  label : String
  design : Design
  deriving Inhabited

structure Hosted where
  label : String
  service : Service

/-- What wraps one service for as long as it is not killed. -/
structure Server where
  id : String
  origin : String
  service : Option ServiceId
  lastError : Option HostError
  deriving DecidableEq, Repr

inductive Level where
  | info
  | error
  deriving DecidableEq, Repr

structure LogLine where
  level : Level
  text : String
  deriving DecidableEq, Repr

structure Host where
  services : List Hosted
  servers : List Server
  directory : Table ServerId
  deployed : Table ResolverId
  factories : FactoryTable Blueprint
  resolvers : Resolvers
  around : Surroundings
  log : List LogLine
  /-- The number of plugin loaders so far. -/
  loaders : Nat
  /-- The number of services with a stamp so far. -/
  stamped : Nat
  /-- What the wall clock reads, in milliseconds, when the service with that number is made. -/
  wallClock : Nat → Nat

namespace Host

/-- Origin of services that the caller built. -/
def localOrigin : String := "local"

/-- Origin of services that were built from a factory without resolution. -/
def factoryOrigin : String := "factory"

def fresh (around : Surroundings) (wallClock : Nat → Nat) : Host :=
  { services := []
    servers := []
    directory := Table.empty
    deployed := Table.empty
    factories := Table.empty
    resolvers := .empty
    around
    log := []
    loaders := 0
    stamped := 0
    wallClock }

def note (host : Host) (level : Level) (text : String) : Host :=
  { host with log := host.log ++ [⟨level, text⟩] }

def info (text : String) (host : Host) : Host := host.note .info text

def error (text : String) (host : Host) : Host := host.note .error text

/-- How many numbers there are for stamps. They have 64 bits, and begin again after the last. -/
def stampNumbers : Nat := 0x10000000000000000

/-- Makes a service. Those with a run loop get a stamp: the time, and a number of their own. -/
def make (blueprint : Blueprint) (host : Host) : ServiceId × Host :=
  let add := fun (service : Service) (host : Host) =>
    (host.services.length, { host with services := host.services ++ [⟨blueprint.label, service⟩] })
  match blueprint.design with
  | .threaded typeName version loop =>
    let stamp := s!"{host.wallClock host.stamped}.{host.stamped % stampNumbers}"
    add (.threaded (.new typeName version stamp loop)) { host with stamped := host.stamped + 1 }
  | .scripted script state => add (.scripted (.new script state)) host

def service? (host : Host) (id : ServiceId) : Option Service :=
  host.services[id]?.map Hosted.service

def updateService (id : ServiceId) (change : Service → Service) (host : Host) : Host :=
  { host with
    services := host.services.modify id fun hosted =>
      { hosted with service := change hosted.service } }

def server? (host : Host) (id : ServerId) : Option Server := host.servers[id]?

def addServer (server : Server) (host : Host) : ServerId × Host :=
  (host.servers.length, { host with servers := host.servers ++ [server] })

def updateServer (id : ServerId) (change : Server → Server) (host : Host) : Host :=
  { host with servers := host.servers.modify id change }

/-- The service of a server that has not been killed. -/
def serviceOf (host : Host) (id : ServerId) : Option ServiceId :=
  (host.server? id).bind Server.service

def isKilled (host : Host) (id : ServerId) : Bool := (host.serviceOf id).isNone

def lastError (host : Host) (id : ServerId) : Option HostError :=
  (host.server? id).bind Server.lastError

def idOf (host : Host) (id : ServerId) : String := ((host.server? id).map Server.id).getD ""

def record (id : ServerId) (cause : HostError) : Host → Host :=
  updateServer id fun server => { server with lastError := some cause }

/-- Tears the service of a server down and lets go of it; tells whether there was one. -/
def killServer (id : ServerId) (host : Host) : Bool × Host :=
  match host.serviceOf id with
  | none => (false, host)
  | some service =>
    (true,
      (host.updateService service Service.kill).updateServer id fun server =>
        { server with service := none })

def configOf (host : Host) (id : ServerId) : Option Properties :=
  ((host.serviceOf id).bind host.service?).map Service.config

def configure (id : ServerId) (config : Properties) (host : Host) : Host :=
  match host.serviceOf id with
  | some service => host.updateService service (Service.setConfig config)
  | none => host

def register (name : String) (factory : Factory Blueprint) (host : Host) : Host :=
  { host with factories := host.factories.insert name factory }

/-- Deploys a resolver for a name, in the place of an earlier one. -/
def deploy (name : String) (resolver : ResolverId) (host : Host) : Host :=
  { host with deployed := host.deployed.insert name resolver }

def addResolver (resolver : Resolver) (host : Host) : ResolverId × Host :=
  let (id, resolvers) := host.resolvers.add resolver
  (id, { host with resolvers })

def findCode (resolver : ResolverId) (name : String) (host : Host) : Option Blob × Host :=
  let (code, resolvers) := host.resolvers.findCode host.around resolver name
  (code, { host with resolvers })

def enter (id : String) (server : ServerId) (host : Host) : Host :=
  { host with directory := host.directory.insert id server }

def leave (id : String) (host : Host) : Host := { host with directory := host.directory.erase id }

/-- The registered instance ids, in the order of their registration. -/
def ids (host : Host) : List String := host.directory.keys

def listing (host : Host) : String :=
  "\x7b\n" ++ String.join (host.ids.map fun id => s!"   {id}\n") ++ "\x7d"

def report (host : Host) : String :=
  "ServiceRegistry \x7b servers: " ++ Text.reportList host.ids ++ " \x7d"

end Host

def Server.report (server : Server) : String :=
  "ManagedServer \x7b id: " ++ Text.report server.id ++ ", killed: " ++
    toString server.service.isNone ++ " \x7d"

end ServiceHost
