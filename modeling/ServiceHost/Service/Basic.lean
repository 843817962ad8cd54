import ServiceHost.Service.Scripted
import ServiceHost.Service.Threaded

/-! Services of either kind. -/

set_option autoImplicit false

namespace ServiceHost

inductive Design where
  | threaded (typeName version : String) (loop : RunLoop)
  | scripted (script : Query → Script) (state : State)

instance : Inhabited Design := ⟨.threaded "" defaultVersion fun _ => ⟨[], [], false⟩⟩

inductive Service where
  | threaded (service : Threaded)
  | scripted (service : Scripted)

namespace Service

def goOn (now : Nat) (query : Query) (phase : Phase) : Service → Option (Phase × Service)
  | threaded service =>
    (service.goOn now query phase).map fun (after, service) => (after, threaded service)
  | scripted service =>
    (service.goOn now query phase).map fun (after, service) => (after, scripted service)

def config : Service → Properties
  | threaded service => service.config
  | scripted service => service.config

def setConfig (config : Properties) : Service → Service
  | threaded service => threaded { service with config }
  | scripted service => scripted { service with config }

/-- Forced teardown, when the server of the service is killed. -/
def kill : Service → Service
  | threaded service => threaded service.kill
  | scripted service => scripted { service with kills := service.kills + 1 }

def step? (now : Nat) (closed : Bool) : Service → Option Service
  | threaded service => (service.step? now closed).map threaded
  | scripted _ => none

def timer? : Service → Option Nat
  | threaded service => service.timer?
  | scripted _ => none

end Service

end ServiceHost
