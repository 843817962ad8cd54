import ServiceHost.Duration
import ServiceHost.State

/-! Causes of failure, from a service's own refusal to the host's report, and their wording. -/

set_option autoImplicit false

namespace ServiceHost

inductive LifecycleError where
  | alreadyRunning
  | invalidTransition (operation : String) (state : State)
  | stopTimedOut (grace : Duration)
  deriving DecidableEq, Repr

def LifecycleError.message : LifecycleError → String
  | alreadyRunning => "run loop is still alive; start rejected"
  | invalidTransition operation state => s!"cannot {operation} while {state.name}"
  | stopTimedOut grace => s!"run loop did not stop within {grace.text}"

def LifecycleError.kind : LifecycleError → String
  | alreadyRunning => "AlreadyRunning"
  | invalidTransition .. => "InvalidTransition"
  | stopTimedOut _ => "StopTimedOut"

/-- What a service answers to a control call that it could not carry out. -/
inductive ServiceError where
  | lifecycle (cause : LifecycleError)
  | failed (message : String)
  deriving DecidableEq, Repr

def ServiceError.message : ServiceError → String
  | lifecycle cause => cause.message
  | failed message => message

/-- How a call with a deadline can end without an answer of its work. -/
inductive CallError where
  | timedOut (operation : String) (deadline : Duration)
  | panicked (operation : String) (message : String)
  | cancelled (operation : String)
  deriving DecidableEq, Repr

namespace CallError

def message : CallError → String
  | timedOut operation deadline => s!"{operation} did not complete within {deadline.text}"
  | panicked operation text => s!"{operation} panicked: {text}"
  | cancelled operation => s!"{operation} was cancelled"

def kind : CallError → String
  | timedOut .. => "TimedOut"
  | panicked .. => "Panicked"
  | cancelled _ => "Cancelled"

def isTimeout : CallError → Bool
  | timedOut .. => true
  | _ => false

end CallError

/-- Failures that the host reports. Only a second installed registry ends the process. -/
inductive HostError where
  | resolution (name reason : String)
  | timeout (operation : String) (deadline : Duration)
  | execution (operation message : String)
  | stateConflict (operation message : String)
  | singletonViolation
  | duplicateInstance (id : String)
  | killed (operation : String)
  deriving DecidableEq, Repr

namespace HostError

def message : HostError → String
  | resolution name reason => s!"cannot resolve '{name}': {reason}"
  | timeout operation deadline => s!"{operation} did not complete within {deadline.text}"
  | execution operation text => s!"{operation} failed: {text}"
  | stateConflict operation text => s!"{operation} rejected: {text}"
  | singletonViolation => "only one service registry may be installed per process"
  | duplicateInstance id => s!"instance id '{id}' is already registered"
  | killed operation => s!"{operation} on a killed server"

def kind : HostError → String
  | resolution .. => "Resolution"
  | timeout .. => "Timeout"
  | execution .. => "Execution"
  | stateConflict .. => "StateConflict"
  | singletonViolation => "SingletonViolation"
  | duplicateInstance _ => "DuplicateInstance"
  | killed _ => "Killed"

def isTimeout : HostError → Bool
  | timeout .. => true
  | _ => false

def isStateConflict : HostError → Bool
  | stateConflict .. => true
  | _ => false

/-- A refusal for the state the service is in is a conflict; every other failure of the service
is a failed execution. -/
def ofService (operation : String) : ServiceError → HostError
  | .lifecycle .alreadyRunning =>
    .stateConflict operation LifecycleError.alreadyRunning.message
  | .lifecycle (.invalidTransition refused state) =>
    .stateConflict operation (LifecycleError.invalidTransition refused state).message
  | other => .execution operation other.message

def ofCall : CallError → HostError
  | .timedOut operation deadline => .timeout operation deadline
  | .panicked operation text => .execution operation s!"panicked: {text}"
  | .cancelled operation => .execution operation "cancelled by the runtime"

end HostError

end ServiceHost
