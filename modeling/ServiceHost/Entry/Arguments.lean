import ServiceHost.Text.Blank

/-! The command line of the host process. -/

set_option autoImplicit false

namespace ServiceHost

structure Arguments where
  config : Option String
  logFile : Option String
  plugins : Option String
  console : Bool
  verbose : Bool
  /-- Scripts, directives and self-tests, in order. -/
  words : List String
  deriving DecidableEq, Repr

namespace Arguments

def none : Arguments := ⟨.none, .none, .none, false, false, []⟩

inductive Unusable where
  | help
  | usage
  deriving DecidableEq, Repr

abbrev Reading := Except Unusable Arguments

inductive Flag where
  | console
  | verbose
  | help
  deriving DecidableEq, Repr

inductive Setting where
  | config
  | logFile
  | plugins
  deriving DecidableEq, Repr

inductive Meaning where
  | flag (flag : Flag)
  | setting (setting : Setting)
  deriving DecidableEq, Repr

def longName : String → Option Meaning
  | "config" => some (.setting .config)
  | "log-file" => some (.setting .logFile)
  | "plugins" => some (.setting .plugins)
  | "console" => some (.flag .console)
  | "verbose" => some (.flag .verbose)
  | "help" => some (.flag .help)
  | _ => .none

def shortName : Char → Option Meaning
  | 'c' => some (.setting .config)
  | 'v' => some (.flag .verbose)
  | 'h' => some (.flag .help)
  | _ => .none

/-- Raises a flag, which may be raised once. -/
def raise (arguments : Arguments) : Flag → Reading
  | .help => .error .help
  | .console =>
    if arguments.console then .error .usage else .ok { arguments with console := true }
  | .verbose =>
    if arguments.verbose then .error .usage else .ok { arguments with verbose := true }

/-- Gives a setting its path, which must not be empty. A setting may be given once. -/
def give (arguments : Arguments) (setting : Setting) (path : List Char) : Reading :=
  let text := String.ofList path
  if path.isEmpty then .error .usage
  else match setting with
    | .config =>
      if arguments.config.isSome then .error .usage
      else .ok { arguments with config := some text }
    | .logFile =>
      if arguments.logFile.isSome then .error .usage
      else .ok { arguments with logFile := some text }
    | .plugins =>
      if arguments.plugins.isSome then .error .usage
      else .ok { arguments with plugins := some text }

/-- What one word gives: arguments, and a setting whose path is still to come. -/
abbrev Taken := Except Unusable (Arguments × Option Setting)

/-- A word behind two dashes: a name, and a value behind an equals sign. Flags take no value. -/
def takeLong (arguments : Arguments) (word : List Char) : Taken :=
  let (name, value) := match Text.cut (· == '=') word with
    | some (name, value) => (name, some value)
    | .none => (word, .none)
  match longName (String.ofList name), value with
  | some (.setting setting), some value => (arguments.give setting value).map (·, .none)
  | some (.setting setting), .none => .ok (arguments, some setting)
  | some (.flag flag), .none => (arguments.raise flag).map (·, .none)
  | _, _ => .error .usage

/-- The letters behind one dash: flags, up to a setting, whose path is the rest of the word, with or
without an equals sign before it. -/
def takeShort (arguments : Arguments) : List Char → Taken
  | [] => .ok (arguments, .none)
  | letter :: rest =>
    match shortName letter with
    | .none => .error .usage
    | some (.flag flag) =>
      match arguments.raise flag with
      | .error cause => .error cause
      | .ok arguments => takeShort arguments rest
    | some (.setting setting) =>
      match rest with
      | [] => .ok (arguments, some setting)
      | '=' :: path => (arguments.give setting path).map (·, .none)
      | path => (arguments.give setting path).map (·, .none)

/-- Reads words in order. Two dashes alone make plain words of all that follow; one dash alone is a
plain word. A setting that waits for its path takes the next word only if that is a plain one. -/
def readFrom (arguments : Arguments) (pending : Option Setting) : List String → Reading
  | [] => if pending.isSome then .error .usage else .ok arguments
  | word :: rest =>
    match word.toList, pending with
    | ['-', '-'], .none => .ok { arguments with words := arguments.words ++ rest }
    | '-' :: _ :: _, some _ => .error .usage
    | '-' :: '-' :: long, .none =>
      match takeLong arguments long with
      | .error cause => .error cause
      | .ok (arguments, pending) => readFrom arguments pending rest
    | '-' :: letter :: letters, .none =>
      match takeShort arguments (letter :: letters) with
      | .error cause => .error cause
      | .ok (arguments, pending) => readFrom arguments pending rest
    | path, some setting =>
      match arguments.give setting path with
      | .error cause => .error cause
      | .ok arguments => readFrom arguments .none rest
    | _, .none => readFrom { arguments with words := arguments.words ++ [word] } .none rest

def read (words : List String) : Reading := readFrom none .none words

end Arguments

end ServiceHost
