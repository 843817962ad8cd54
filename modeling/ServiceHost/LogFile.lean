import ServiceHost.Files.Tree

/-! The log file of the host process. It is opened for appending before anything is written. -/

set_option autoImplicit false

namespace ServiceHost

inductive LogError where
  | cannotOpen (path : String) (cause : FileError)
  | alreadyInstalled
  deriving DecidableEq, Repr

def LogError.message : LogError → String
  | cannotOpen path _ => s!"opening log file {path}"
  | alreadyInstalled => "installing tracing subscriber"

/-- Opens the log file and takes over the log of the process, which can be done once. -/
def openLog (files : Files) (installed : Bool) (path : String) : Except LogError Unit × Files :=
  match files.openForAppend path with
  | .error cause => (.error (.cannotOpen path cause), files)
  | .ok opened => (if installed then .error .alreadyInstalled else .ok (), opened)

end ServiceHost
