import ServiceHost.Directive.Argument
import ServiceHost.Host.SelfTest

/-! Start-up: directives, scripts of directives and the self-test, one after the other.
A failure is put on record and the rest goes on. -/

set_option autoImplicit false

namespace ServiceHost.Bootstrap

inductive Failure where
  | script (path : String) (cause : FileError)
  | service (name : String) (cause : HostError)
  deriving DecidableEq, Repr

def Failure.message : Failure → String
  | script path cause => s!"cannot read directive script {path}: {cause.message}"
  | service name cause => s!"cannot add '{name}': {cause.message}"

def Failure.kind : Failure → String
  | script .. => "Script"
  | service .. => "Service"

structure Report where
  /-- The instance ids that were added, in order. -/
  added : List String
  failures : List Failure
  deriving DecidableEq, Repr

namespace Report

def empty : Report := ⟨[], []⟩

def isClean (report : Report) : Bool := report.failures.isEmpty

end Report

/-- Puts a failure on record, in the report and in the log. -/
def fail (report : Report) (failure : Failure) : Flow Report := do
  Flow.modify (Host.error failure.message)
  return { report with failures := report.failures ++ [failure] }

def enter (report : Report) (name : String) (attempt : Attempt ServerId) : Flow Report := do
  match ← attempt.outcome with
  | .ok server =>
    let instanceId ← Flow.read (·.idOf server)
    return { report with added := report.added ++ [instanceId] }
  | .error cause => fail report (.service name cause)

/-- Adds the service that a directive names: by resolution if a resolver is deployed for the name,
else straight from its factory. -/
def apply (directive : Directive) : Attempt ServerId := do
  Attempt.modify (Host.info
    s!"adding {directive.service} with {directive.options.size} option(s)")
  if (← Attempt.host).deployed.contains directive.service then
    Registry.addByName directive.service directive.options
  else
    Registry.addLocal directive.service directive.options

def applyAll (report : Report) : List Directive → Flow Report
  | [] => return report
  | directive :: rest => do
    applyAll (← enter report directive.service (apply directive)) rest

def applyScript (report : Report) (path : String) : Flow Report := do
  match ← Flow.read (·.around.files.readText path) with
  | .ok text => applyAll report (Directive.ofScript text.toList)
  | .error cause => fail report (.script path cause)

def applyArgument (report : Report) : Argument → Flow Report
  | .script path => applyScript report path
  | .selfTest => enter report Builtin.testService Builtin.selfTest
  | .directive directive => enter report directive.service (apply directive)

/-- Goes through the start-up arguments; blank ones say nothing. -/
def run (report : Report) : List String → Flow Report
  | [] => return report
  | text :: rest => do
    match Argument.read? text with
    | none => run report rest
    | some argument => run (← applyArgument report argument) rest

end ServiceHost.Bootstrap
