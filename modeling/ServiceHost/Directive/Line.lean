import ServiceHost.Directive.Comment
import ServiceHost.Properties

/-! Directive lines: a service name, then options `-key:value` or `/key:value`. -/

set_option autoImplicit false

namespace ServiceHost

structure Directive where
  service : String
  options : Properties
  deriving DecidableEq

namespace Directive

/-- A token is an option if it starts with a dash or a slash and has a colon behind a key that is
not empty; the value is all that follows the first colon. -/
def option? : List Char → Option (String × String)
  | '-' :: body | '/' :: body =>
    match Text.cut (· == ':') body with
    | some (key, value) =>
      if key.isEmpty then none else some (String.ofList key, String.ofList value)
    | none => none
  | _ => none

def ofWords : List (List Char) → Option Directive
  | [] => none
  | service :: tokens =>
    some ⟨String.ofList service, Table.ofList (tokens.filterMap option?)⟩

/-- Reads one line; a line that is blank once its comments are gone holds no directive, and tokens
that are no options are passed over. -/
def ofLine (line : List Char) : Option Directive := ofWords (Text.words (stripComments line))

/-- Reads a script, one directive a line. Comments are removed from the whole text first, so a
block comment may span lines. -/
def ofScript (text : List Char) : List Directive :=
  (Text.lines (stripComments text)).filterMap ofLine

end Directive

end ServiceHost
