import ServiceHost.Text.Blank

/-! Paths as text, and the steps that they describe.

Slashes separate the steps. Repeated slashes count as one, and a dot is a step of
its own only at the front of a relative path. -/

set_option autoImplicit false

namespace ServiceHost.Path

inductive Step where
  | root
  | here
  | up
  | name (text : List Char)
  deriving DecidableEq, Repr

/-- The step that a piece between slashes stands for, unless it stands for none. -/
def step? (piece : List Char) : Option Step :=
  if piece = [] || piece = ['.'] then none
  else if piece = ['.', '.'] then some .up
  else some (.name piece)

def steps (path : List Char) : List Step :=
  match path with
  | [] => []
  | '/' :: rest => .root :: (Text.splitOn '/' rest).filterMap step?
  | _ =>
    match Text.splitOn '/' path with
    | ['.'] :: rest => .here :: rest.filterMap step?
    | pieces => pieces.filterMap step?

/-- Whether a path only goes down, by at least one name. -/
def isInner (path : List Char) : Bool :=
  match steps path with
  | [] => false
  | found => found.all fun step => match step with
    | .name _ => true
    | _ => false

/-- One path behind another. An absolute path takes the place of what stands before it. -/
def join (base tail : List Char) : List Char :=
  match tail with
  | '/' :: _ => tail
  | _ =>
    if base = [] || base.getLast? = some '/' then base ++ tail else base ++ '/' :: tail

/-- What follows the last dot of a file name, if something stands before that dot. -/
def extension? (name : List Char) : Option (List Char) :=
  if name = ['.', '.'] then none
  else
    let tail := name.reverse.takeWhile (· ≠ '.')
    let front := name.reverse.drop tail.length
    match front with
    | [] => none
    | [_] => none
    | _ => some tail.reverse

/-- Characters of a path that a URL writes as they are. -/
def isPlainInUrl (b : UInt8) : Bool :=
  0x20 < b && b < 0x7F && !("\"<>`#?\x7b\x7d/%\\".toList.any fun c => c.toNat = b.toNat)

def hexUpper (n : Nat) : Char := (Nat.digitChar n).toUpper

def percent (b : UInt8) : List Char :=
  if isPlainInUrl b then [Char.ofNat b.toNat]
  else ['%', hexUpper (b.toNat / 16), hexUpper (b.toNat % 16)]

/-- The URL of the file that the names lead to from the root. -/
def fileUrl (names : List String) : String :=
  let parts := names.map fun name => '/' :: name.toUTF8.toList.flatMap percent
  "file://" ++ if parts.isEmpty then "/" else String.ofList parts.flatten

end ServiceHost.Path
