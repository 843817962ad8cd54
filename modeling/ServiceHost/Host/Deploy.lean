import ServiceHost.Host.Basic
import ServiceHost.Settings

/-! Deployment of the resolvers that a settings file describes. -/

set_option autoImplicit false

namespace ServiceHost

inductive SettingsError where
  | read (path : String) (cause : FileError)
  | parse (path : String)
  | resolver (service : String) (cause : Resolver.BuildError)
  deriving DecidableEq, Repr

namespace SettingsError

def message : SettingsError → String
  | read path cause => s!"cannot read settings {path}: {cause.message}"
  | parse path => s!"invalid settings {path}"
  | resolver service cause => s!"resolver for '{service}': {cause.message}"

def kind : SettingsError → String
  | read .. => "Read"
  | parse _ => "Parse"
  | resolver .. => "Resolver"

def causes : SettingsError → List String
  | read _ cause => [cause.message]
  | parse _ => []
  | resolver _ cause => cause.message :: cause.causes

end SettingsError

namespace Settings

def load (files : Files) (path : String) : Except SettingsError Settings :=
  match files.readText path with
  | .error cause => .error (.read path cause)
  | .ok text =>
    match read text with
    | some settings => .ok settings
    | none => .error (.parse path)

/-- Builds resolvers in order; the first that cannot be built decides the error. -/
def buildAll (files : Files) :
    List Deployment → Resolvers → Except SettingsError (List (String × ResolverId) × Resolvers)
  | [], store => .ok ([], store)
  | deployment :: rest, store =>
    match deployment.resolver.build files store with
    | .error cause => .error (.resolver deployment.service cause)
    | .ok (id, store) =>
      match buildAll files rest store with
      | .error cause => .error cause
      | .ok (others, store) => .ok ((deployment.service, id) :: others, store)

/-- Builds all resolvers, then deploys them in order, and tells how many there are. -/
def apply (settings : Settings) (host : Host) : Except SettingsError Nat × Host :=
  match buildAll host.around.files settings.deployments host.resolvers with
  -- One that cannot be built keeps all others from being deployed.
  | .error cause => (.error cause, host)
  | .ok (built, resolvers) =>
    (.ok built.length,
      built.foldl (fun host (name, id) => host.deploy name id) { host with resolvers })

end Settings

end ServiceHost
