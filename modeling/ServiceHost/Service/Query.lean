import ServiceHost.Failure
import ServiceHost.Task.Work

/-! The calls that a service takes, and how far a call can be. -/

set_option autoImplicit false

namespace ServiceHost

inductive Control where
  | start
  | stop
  | pause
  | resume
  deriving DecidableEq, Repr

namespace Control

def name : Control → String
  | start => "start"
  | stop => "stop"
  | pause => "pause"
  | resume => "resume"

/-- The state that a service is in once it has done what was asked. -/
def goal : Control → State
  | start | resume => .running
  | stop => .stopped
  | pause => .paused

end Control

inductive Query where
  | control (control : Control)
  | state
  | instanceId
  deriving DecidableEq, Repr

/-- The operation that failures of a call name. -/
def Query.operation : Query → String
  | .control asked => asked.name
  | .state => "state"
  | .instanceId => "instance_id"

inductive Reply where
  | done
  | state (state : State)
  | id (text : String)
  deriving DecidableEq, Repr

inductive Outcome where
  | become (state : State)
  | refuse (cause : ServiceError)
  | name (id : String)
  /-- Tells the state that holds then. -/
  | tell
  deriving DecidableEq, Repr

inductive Phase where
  | fresh
  /-- Ends at an instant as planned; without a plan, never. -/
  | planned (plan : Option (Nat × Ending Outcome))
  | stopping (generation expires : Nat)
  | ended (ending : Ending (Except ServiceError Reply))

def Phase.timer? : Phase → Option Nat
  | planned plan => plan.map Prod.fst
  | stopping _ expires => some expires
  | _ => none

end ServiceHost
