import ServiceHost.Directive.Line
import ServiceHost.Resolver.Description

/-! The settings file of the host. -/

set_option autoImplicit false

namespace ServiceHost

/-- One resolver that is deployed for a service name at start-up. -/
structure Deployment where
  service : String
  resolver : Resolver.Description
  deriving Repr

structure Settings where
  logFile : Option String
  pluginDir : Option String
  directives : List String
  deployments : List Deployment
  deriving Repr

namespace Settings

open Toml (Value)

def default : Settings := ⟨none, none, [], []⟩

def defaultLogFile : String := "ServerManager.log"

def logPath (settings : Settings) : String := settings.logFile.getD defaultLogFile

/-- The directive lines that hold a directive, in order; each line is read on its own. -/
def parsedDirectives (settings : Settings) : List Directive :=
  settings.directives.filterMap fun line => Directive.ofLine line.toList

/-- A table with the keys `service` and `resolver` and no other, or an array that starts with their
values. -/
def deployment? : Value → Option Deployment
  | .table entries => do
    if entries.all fun entry => entry.1 = "service" || entry.1 = "resolver" then
      let service ← (← entries.lookup "service").string?
      let resolver ← Resolver.Description.ofValue (← entries.lookup "resolver")
      some ⟨service, resolver⟩
    else none
  | .array (service :: resolver :: _) => do
    some ⟨← service.string?, ← Resolver.Description.ofValue resolver⟩
  | _ => none

def addEntry (settings : Settings) : String × Value → Option Settings
  | ("log-file", value) => do some { settings with logFile := some (← value.string?) }
  | ("plugin-dir", value) => do some { settings with pluginDir := some (← value.string?) }
  | ("directives", value) => do
    some { settings with directives := ← (← value.array?).mapM Value.string? }
  | ("deploy", value) => do
    some { settings with deployments := ← (← value.array?).mapM deployment? }
  | _ => none

/-- Reads a settings document; a key that is not known makes it unreadable. -/
def read (text : String) : Option Settings := do (← Toml.read text).foldlM addEntry default

end Settings

def Properties.read (text : String) : Option Properties := do
  some (Table.ofList (← Resolver.Description.texts? (.table (← Toml.read text))))

end ServiceHost
