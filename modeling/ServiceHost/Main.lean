import ServiceHost.Entry.Startup

/-! The host process: reads the files below its working directory, then serves the console
on standard input, or runs until it is interrupted. -/

set_option autoImplicit false

namespace ServiceHost.Terminal

def usage : String := String.intercalate "\n"
  ["Usage: svchost [OPTIONS] [ARGS]...",
   "",
   "Arguments:",
   "  [ARGS]...  `@script`, `TEST`, or a directive such as \"Heartbeat -interval-ms:500\"",
   "",
   "Options:",
   "  -c, --config <FILE>    Settings file (TOML)",
   "      --log-file <FILE>  Log file, appended to",
   "      --plugins <DIR>    Plugin archive directory to preload",
   "      --console          Run the interactive console on stdin",
   "  -v, --verbose          Verbose logging",
   "  -h, --help             Print help"]

/-- A file, or a directory with all that is in it. -/
partial def treeOf (entry : IO.FS.DirEntry) : IO (String × FileNode) := do
  if ← entry.path.isDir then
    let inner ← (← entry.path.readDir).toList.mapM treeOf
    return (entry.fileName, .directory inner)
  let content ← IO.FS.readBinFile entry.path
  return (entry.fileName, .file content.toList)

def filesHere : IO Files := do
  let here ← IO.currentDir
  let names := here.components.filter (· ≠ "")
  let inner ← (← here.readDir).toList.mapM treeOf
  return ⟨FileNode.put (.directory inner) names (.directory []), names⟩

/-- What the process has in hand: the system, the log file, how much of the log it holds, and the
clock reading at which the system began. -/
structure Desk where
  system : System (Except Fault Console.Turn)
  log : IO.FS.Handle
  written : Nat
  epoch : Nat

/-- Lets the system come up to the present. -/
def catchUp (desk : Desk) : IO Desk := do
  let present := (← IO.monoMsNow) - desk.epoch
  return { desk with system := Clocked.advance (present - desk.system.now) desk.system }

def writeLog (desk : Desk) : IO Desk := do
  let lines := desk.system.host.log
  for line in lines.drop desk.written do
    let level := if line.level = .info then " INFO" else "ERROR"
    desk.log.putStrLn s!"{level} svchost: {line.text}"
  desk.log.flush
  return { desk with written := lines.length }

/-- Waits for what a procedure yields. -/
partial def waitFor (desk : Desk) (procedure : Nat) : IO (Except Fault Console.Turn × Desk) := do
  let desk ← catchUp desk
  match desk.system.yield? procedure, Clocked.timer? desk.system with
  | some yield, _ => return (yield.value, { desk with system := desk.system.take procedure none })
  | none, some instant =>
    IO.sleep (instant - desk.system.now).toUInt32
    waitFor desk procedure
  | none, none => return (.ok ⟨"", some (.ok .endOfInput)⟩, desk)

def perform (desk : Desk) (flow : Flow (Except Fault Console.Turn)) :
    IO (Except Fault Console.Turn × Desk) := do
  let desk ← catchUp desk
  let procedure := desk.system.procedures.length
  let launched := { desk with system := desk.system.launch (System.valueOf flow) }
  let (outcome, desk) ← waitFor launched procedure
  return (outcome, ← writeLog desk)

/-- Shows the report of a fault, and gives the exit code. -/
def fail (fault : Fault) : IO UInt32 := do
  IO.eprint fault.report
  return 1

/-- The bytes of the next line, its end among them. -/
partial def readBytes (input : IO.FS.Stream) (line : Blob) : IO Blob := do
  match (← input.read 1).toList with
  | [] => return line.reverse
  | 10 :: _ => return (10 :: line).reverse
  | byte :: _ => readBytes input (byte :: line)

def readLine (input : IO.FS.Stream) : IO (Option Blob) := do
  return (Console.linesOf [] (← readBytes input [])).head?

/-- Serves the console line by line, then shuts down. -/
partial def serve (desk : Desk) : IO UInt32 := do
  IO.print Console.prompt
  (← IO.getStdout).flush
  let turn : Flow Console.Turn := match ← readLine (← IO.getStdin) with
    | none => return ⟨"", some (.ok .endOfInput)⟩
    | some line => Console.turn line
  match ← perform desk (do return .ok (← turn)) with
  | (.error fault, _) => fail fault
  | (.ok turn, desk) =>
    IO.print turn.output
    match turn.ended with
    | none => serve desk
    | some (.error cause) => fail (.ofInput cause)
    | some (.ok exit) =>
      let _ ← perform desk (do
        Startup.close exit
        return .ok ⟨"", none⟩)
      return 0

/-- Goes on until the process is interrupted. -/
partial def idle (desk : Desk) : IO UInt32 := do
  IO.sleep 1000
  idle (← writeLog (← catchUp desk))

def start (arguments : Arguments) : IO UInt32 := do
  let epoch ← IO.monoMsNow
  match Startup.prepare (← filesHere) (fun _ => epoch) arguments with
  | (.error fault, _) => fail fault
  | (.ok (settings, host), _) =>
    let path := arguments.logFile.getD settings.logPath
    let log ← IO.FS.Handle.mk path .append
    let desk : Desk := ⟨System.start host Executor.defaultCapacity, log, 0, epoch⟩
    let boot := do return (← Startup.boot arguments settings).map fun _ => ⟨"", none⟩
    match ← perform desk boot with
    | (.error fault, _) => fail fault
    | (.ok _, desk) => if arguments.console then serve desk else idle desk

end ServiceHost.Terminal

def main (words : List String) : IO UInt32 := do
  match ServiceHost.Arguments.read words with
  | .ok arguments => ServiceHost.Terminal.start arguments
  | .error .help =>
    IO.println ServiceHost.Terminal.usage
    return 0
  | .error .usage =>
    IO.eprintln ServiceHost.Terminal.usage
    return 2
