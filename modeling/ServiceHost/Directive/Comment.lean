import ServiceHost.Text.Blank

/-! Comments of the directive language.

A semicolon starts a comment anywhere, two slashes only where a token may start;
both run to the end of the line. A slash with a star opens a block comment where
a token may start, and the block closes at the first star with a slash. Line feeds
always survive, and a closed block leaves one space. -/

set_option autoImplicit false

namespace ServiceHost.Directive

inductive Scan where
  | outside (tokenStart : Bool)
  | line
  | block
  deriving DecidableEq, Repr

/-- What is left of a text that is read from inside the given kind of place. -/
def stripFrom : Scan → List Char → List Char
  | _, [] => []
  | .block, '*' :: '/' :: rest => ' ' :: stripFrom (.outside true) rest
  | .block, c :: rest => if c = '\n' then '\n' :: stripFrom .block rest else stripFrom .block rest
  | .line, c :: rest =>
    if c = '\n' then '\n' :: stripFrom (.outside true) rest else stripFrom .line rest
  | .outside true, '/' :: '/' :: rest => stripFrom .line rest
  | .outside true, '/' :: '*' :: rest => stripFrom .block rest
  | .outside _, c :: rest =>
    if c = ';' then stripFrom .line rest else c :: stripFrom (.outside (Text.isBlank c)) rest

def stripComments (text : List Char) : List Char := stripFrom (.outside true) text

end ServiceHost.Directive
