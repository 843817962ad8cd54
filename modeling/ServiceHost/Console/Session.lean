import ServiceHost.Console.Command
import ServiceHost.Host.Bootstrap

/-! The operator console: one command a line, one reply a command. -/

set_option autoImplicit false

namespace ServiceHost.Console

def prompt : String := "svchost> "

def help : String := String.intercalate "\n"
  ["commands:",
   "  list                 show registered instance ids",
   "  state <id>           show the state of one instance",
   "  add <directive>      add a service, e.g. `add Heartbeat -interval-ms:500`",
   "  pause <id>           pause an instance",
   "  resume <id>          resume an instance",
   "  remove <id>          stop (if needed) and remove an instance",
   "  kill <id>            drop an instance without stopping it",
   "  shutdown             remove every instance and leave",
   "  help                 show this text",
   "  quit                 leave the console"]

inductive Exit where
  | quit
  | shutdown
  | endOfInput
  deriving DecidableEq, Repr

def Exit.name : Exit → String
  | quit => "Quit"
  | shutdown => "Shutdown"
  | endOfInput => "EndOfInput"

def noSuch (id : String) : String := s!"no such instance: {id}"

def failed (id : String) (server : ServerId) : Flow String := do
  match ← Flow.read (·.lastError server) with
  | some cause => return s!"{id}: {cause.message}"
  | none => return s!"{id}: call failed"

def stateReply (id : String) : Flow String := do
  match ← Flow.read (·.directory.get? id) with
  | none => return noSuch id
  | some server =>
    match ← Server.state server with
    | some state => return s!"{id}: {state.name}"
    | none => failed id server

def controlReply (id : String) (control : Control) (done : String) : Flow String := do
  match ← Flow.read (·.directory.get? id) with
  | none => return noSuch id
  | some server =>
    if ← Server.control server control then return s!"{id} {done}"
    failed id server

def addReply (text : String) : Flow String := do
  match Directive.ofLine text.toList with
  | none => return "nothing to add"
  | some directive =>
    match ← (Bootstrap.apply directive).outcome with
    | .ok server => return s!"added {← Flow.read (·.idOf server)}"
    | .error cause => return s!"add failed: {cause.message}"

/-- What a line gives: output, and how the session ended if it did. -/
structure Turn where
  output : String
  ended : Option (Except FileError Exit)

def Turn.said (text : String) : Turn := ⟨text ++ "\n", none⟩

def turnOf : Command → Flow Turn
  | .quit => return ⟨"", some (.ok .quit)⟩
  | .shutdown => do
    Registry.shutdown
    return ⟨"all services removed\n", some (.ok .shutdown)⟩
  | .help => return .said help
  | .list => return .said (← Flow.read Host.listing)
  | .state id => return .said (← stateReply id)
  | .add text => return .said (← addReply text)
  | .pause id => return .said (← controlReply id .pause "paused")
  | .resume id => return .said (← controlReply id .resume "resumed")
  | .remove id => do
    if ← Registry.remove id then return .said s!"{id} removed" else return .said (noSuch id)
  | .kill id => do
    if ← Registry.kill id then return .said s!"{id} killed" else return .said (noSuch id)

/-- Serves one line. A line that is no text ends the session. -/
def turn (line : Blob) : Flow Turn :=
  match Text.ofBytes? line with
  | none => return ⟨"", some (.error .notText)⟩
  | some text =>
    match Command.read text with
    | .error problem => return .said problem.message
    | .ok none => return ⟨"", none⟩
    | .ok (some command) => turnOf command

/-- Splits input into lines, each with its end of line taken off. A last line without one counts
unless it is empty. -/
def linesOf (line : Blob) : Blob → List Blob
  | [] => if line.isEmpty then [] else [line.reverse]
  -- The line so far stands in reverse, with a carriage return first if it has one at its end.
  | 10 :: rest =>
    let ended := match line with
      | 13 :: front => front
      | _ => line
    ended.reverse :: linesOf [] rest
  | byte :: rest => linesOf (byte :: line) rest

/-- Serves lines until one ends the session or there are no more. Gives how the session ended, and
the output. -/
def serve (output : String) : List Blob → Flow (Except FileError Exit × String)
  | [] => return (.ok .endOfInput, output ++ prompt)
  | line :: rest => do
    let turn ← turn line
    let output := output ++ prompt ++ turn.output
    match turn.ended with
    | some exit => return (exit, output)
    | none => serve output rest

def run (input : Blob) : Flow (Except FileError Exit × String) := serve "" (linesOf [] input)

end ServiceHost.Console
