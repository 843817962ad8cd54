import ServiceHost.Console.Session
import ServiceHost.Entry.Arguments
import ServiceHost.Host.Deploy
import ServiceHost.Host.Preload
import ServiceHost.Host.System
import ServiceHost.LogFile

/-! The host process: settings, log, resolvers, plugins, start-up arguments, console, and
the removal of every service at the end. -/

set_option autoImplicit false

namespace ServiceHost

/-- An error that ends the process: its text, and the texts of its causes, outermost first. -/
structure Fault where
  text : String
  causes : List String
  deriving DecidableEq, Repr

namespace Fault

def ofSettings (cause : SettingsError) : Fault := ⟨cause.message, cause.causes⟩

def ofDeployment (cause : SettingsError) : Fault :=
  ⟨"deploying configured resolvers", cause.message :: cause.causes⟩

def ofLog : LogError → Fault
  | .cannotOpen path cause => ⟨(LogError.cannotOpen path cause).message, [cause.message]⟩
  | .alreadyInstalled => ⟨LogError.alreadyInstalled.message, []⟩

def ofInput (cause : FileError) : Fault := ⟨cause.message, []⟩

/-- The report on standard error. Several causes are numbered. -/
def report (fault : Fault) : String :=
  let lines := match fault.causes with
    | [] => []
    | [cause] => ["", "Caused by:", s!"    {cause}"]
    | causes => "" :: "Caused by:" :: causes.zipIdx.map fun (cause, n) => s!"    {n}: {cause}"
  String.join ((s!"Error: {fault.text}" :: lines).map (· ++ "\n"))

end Fault

namespace Startup

/-- The settings and the host that a process begins with. -/
def prepare (files : Files) (wallClock : Nat → Nat) (arguments : Arguments) :
    Except Fault (Settings × Host) × Files :=
  let settings := match arguments.config with
    | some path => Settings.load files path
    | none => .ok .default
  match settings with
  | .error cause => (.error (.ofSettings cause), files)
  | .ok settings =>
    -- The command line outranks the settings.
    match openLog files false (arguments.logFile.getD settings.logPath) with
    | (.error cause, files) => (.error (.ofLog cause), files)
    | (.ok (), files) =>
      let host := (Host.fresh ⟨files, fun _ _ => none⟩ wallClock).info "svchost.starting"
      (.ok (settings, Builtin.register host), files)

/-- Preloads the plugin directory, if there is to be one. -/
def preload (arguments : Arguments) (settings : Settings) : Flow Unit :=
  -- The command line outranks the settings here, too.
  match arguments.plugins.or settings.pluginDir with
  | some dir => do
    let _ ← Plugin.preload dir
  | none => return

/-- Fills a host whose resolvers are deployed: plugins, start-up arguments, directives of the
settings. -/
def fill (arguments : Arguments) (settings : Settings) : Flow Unit := do
  preload arguments settings
  let report ← Bootstrap.run .empty arguments.words
  let report ← Bootstrap.applyAll report settings.parsedDirectives
  let added := report.added.length
  let failed := report.failures.length
  Flow.modify (Host.info s!"svchost.bootstrapped added={added} failed={failed}")
  Flow.modify fun host => host.info host.listing

/-- Brings the host up. -/
def boot (arguments : Arguments) (settings : Settings) : Flow (Except Fault Unit) := do
  match ← Flow.act settings.apply with
  | .error cause => return .error (.ofDeployment cause)
  | .ok deployed =>
    Flow.modify (Host.info s!"svchost.resolvers_deployed deployed={deployed}")
    fill arguments settings
    return .ok ()

def close (exit : Console.Exit) : Flow Unit := do
  Flow.modify (Host.info s!"svchost.console_closed exit={exit.name}")
  Registry.shutdown
  Flow.modify (Host.info "svchost.stopped")

/-- How the console session of a process ended, and its output. -/
abbrev Ending := Except FileError Console.Exit × String

/-- A process with a console up to the end of its session, if it gets to one. -/
def session (arguments : Arguments) (settings : Settings) (input : Blob) :
    Flow (Except Fault Ending) := do
  match ← boot arguments settings with
  | .error fault => return .error fault
  | .ok () => return .ok (← Console.run input)

/-- What is still done after the session. Gives the output, and the fault that ends the process if
one does. -/
def finish : Except Fault Ending → Flow (String × Option Fault)
  | .error fault => return ("", some fault)
  | .ok (.error cause, output) => return (output, some (.ofInput cause))
  | .ok (.ok exit, output) => do
    close exit
    return (output, none)

/-- The whole life of a process with a console, from the settings on. -/
def live (arguments : Arguments) (settings : Settings) (input : Blob) :
    Flow (String × Option Fault) := do
  finish (← session arguments settings input)

structure Remains where
  code : Nat
  files : Files
  output : String
  errors : String
  log : List LogLine

/-- Runs a process with a console over the whole of its input. Of usage and help only the exit code
is told. -/
def run (files : Files) (wallClock : Nat → Nat) (words : List String) (input : Blob) : Remains :=
  match Arguments.read words with
  | .error .help => ⟨0, files, "", "", []⟩
  | .error .usage => ⟨2, files, "", "", []⟩
  | .ok arguments =>
    match prepare files wallClock arguments with
    | (.error fault, files) => ⟨1, files, "", fault.report, []⟩
    | (.ok (settings, host), files) =>
      let begun := System.start host Executor.defaultCapacity
      let (ended, system) := begun.perform (live arguments settings input)
      let log := system.host.log
      match ended with
      | some (output, none) => ⟨0, files, output, "", log⟩
      | some (output, some fault) => ⟨1, files, output, fault.report, log⟩
      | none => ⟨1, files, "", "", log⟩

end Startup

end ServiceHost
