import ServiceHost.Text.Blank

/-! Commands of the operator console. -/

set_option autoImplicit false

namespace ServiceHost.Console

inductive Command where
  | list
  | state (id : String)
  | add (directive : String)
  | pause (id : String)
  | resume (id : String)
  | remove (id : String)
  | kill (id : String)
  | shutdown
  | help
  | quit
  deriving DecidableEq, Repr

inductive CommandError where
  | missingArgument (verb : String)
  | unknown (verb : String)
  deriving DecidableEq, Repr

def CommandError.message : CommandError → String
  | missingArgument verb => s!"{verb} needs an argument"
  | unknown verb => s!"unknown command '{verb}', try help"

namespace Command

def name : Command → String
  | list => "list"
  | state _ => "state"
  | add _ => "add"
  | pause _ => "pause"
  | resume _ => "resume"
  | remove _ => "remove"
  | kill _ => "kill"
  | shutdown => "shutdown"
  | help => "help"
  | quit => "quit"

def argument? : Command → Option String
  | state id | pause id | resume id | remove id | kill id => some id
  | add directive => some directive
  | list | shutdown | help | quit => none

/-- A verb as it is looked up, in small letters: either complete, or waiting for an argument. -/
def ofVerb : String → Option (Command ⊕ (String → Command))
  | "list" | "ls" => some (.inl .list)
  | "state" => some (.inr .state)
  | "add" => some (.inr .add)
  | "pause" => some (.inr .pause)
  | "resume" => some (.inr .resume)
  | "remove" | "rm" => some (.inr .remove)
  | "kill" => some (.inr .kill)
  | "shutdown" => some (.inl .shutdown)
  | "help" | "?" => some (.inl .help)
  | "quit" | "exit" => some (.inl .quit)
  | _ => none

/-- Reads one console line: a verb in any ASCII letter case, then its argument up to the end of the
line. A blank line is no command, and a verb that takes no argument ignores what follows. -/
def read (line : String) : Except CommandError (Option Command) :=
  match Text.trim line.toList with
  | [] => .ok none
  | trimmed =>
    let (verb, rest) := (Text.cut Text.isBlank trimmed).getD (trimmed, [])
    let argument := Text.trim rest
    let lowered := String.ofList (Text.lowerAscii verb)
    match ofVerb lowered with
    | some (.inl command) => .ok (some command)
    | some (.inr make) =>
      if argument.isEmpty then .error (.missingArgument (String.ofList verb))
      else .ok (some (make (String.ofList argument)))
    | none => .error (.unknown lowered)

end Command

end ServiceHost.Console
