import ServiceHost.Text.Blank
import ServiceHost.Toml.Number

/-! Keys, values, arrays and inline tables. -/

set_option autoImplicit false

namespace ServiceHost.Toml

def maxDepth : Nat := 80

def skipGaps (text : List Char) : List Char := text.dropWhile isGap

def isBareKey (c : Char) : Bool :=
  ('a' ≤ c && c ≤ 'z') || ('A' ≤ c && c ≤ 'Z') || isDigit c || c = '_' || c = '-'

/-- A comment up to its line end, which is left; none if it holds a control character. -/
def skipComment : List Char → Option (List Char)
  | [] => some []
  | '\n' :: rest => some ('\n' :: rest)
  | '\r' :: '\n' :: rest => some ('\r' :: '\n' :: rest)
  | c :: rest => if isPlain c then skipComment rest else none

/-- Gaps, line ends and comments. -/
def skipLines : Nat → List Char → Option (List Char)
  | 0, text => some text
  | fuel + 1, text =>
    match skipGaps text with
    | '\n' :: rest => skipLines fuel rest
    | '\r' :: '\n' :: rest => skipLines fuel rest
    | '#' :: rest => do skipLines fuel (← skipComment rest)
    | rest => some rest

def skipFiller (text : List Char) : Option (List Char) := skipLines (text.length + 1) text

/-- One part of a key: bare, or a text in one pair of quotes. -/
def keyPart : Reader String
  | '"' :: '"' :: '"' :: _ => none
  | '\'' :: '\'' :: '\'' :: _ => none
  | '"' :: rest => (basic rest).map fun (text, rest) => (String.ofList text, rest)
  | '\'' :: rest => (literal rest).map fun (text, rest) => (String.ofList text, rest)
  | text =>
    let bare := text.takeWhile isBareKey
    if bare.isEmpty then none else some (String.ofList bare, text.dropWhile isBareKey)

def keyParts : Nat → Reader (List String)
  | 0, _ => none
  | fuel + 1, text => do
    let (part, rest) ← keyPart (skipGaps text)
    match skipGaps rest with
    | '.' :: rest =>
      let (parts, rest) ← keyParts fuel rest
      some (part :: parts, rest)
    | rest => some ([part], rest)

/-- A key with its dots, and the gaps around it. -/
def key : Reader (List String) := fun text => keyParts (text.length + 1) text

def endsBare (c : Char) : Bool :=
  isGap c || c = '\n' || c = '\r' || c = '#' || c = ',' || c = ']' || c = '\x7d' || c = '=' ||
  c = '[' || c = '\x7b' || c = '"' || c = '\''

def bareRun (text : List Char) : List Char := text.takeWhile fun c => !endsBare c

/-- A value without quotes. A date may be followed by one space and a time. -/
def bareValue : Reader Value := fun text =>
  let run := bareRun text
  let rest := text.drop run.length
  match date? run, rest with
  | some [], ' ' :: c :: rest' =>
    if isDigit c then
      let time := bareRun (c :: rest')
      (bare? (run ++ ' ' :: time)).map fun value => (value, rest.drop (1 + time.length))
    else (bare? run).map fun value => (value, rest)
  | _, _ => (bare? run).map fun value => (value, rest)

/-- The items of an array, behind the opening bracket or a comma. -/
def arrayItems (value : Reader Value) : Nat → Reader (List Value)
  | 0, _ => none
  | fuel + 1, text => do
    match ← skipFiller text with
    | ']' :: rest => some ([], rest)
    | text =>
      let (item, rest) ← value text
      match ← skipFiller rest with
      | ']' :: rest => some ([item], rest)
      | ',' :: rest =>
        let (items, rest) ← arrayItems value fuel rest
        some (item :: items, rest)
      | _ => none

def binding (value : Reader Value) : Reader (List String × Value) := fun text => do
  let (path, rest) ← key text
  let '=' :: rest := rest | none
  let (item, rest) ← value (skipGaps rest)
  some ((path, item), rest)

/-- The bindings of an inline table, behind the opening brace or a comma. -/
def tableItems (value : Reader Value) : Nat → Reader (List (List String × Value))
  | 0, _ => none
  | fuel + 1, text => do
    match ← skipFiller text with
    | '\x7d' :: rest => some ([], rest)
    | text =>
      let (item, rest) ← binding value text
      match ← skipFiller rest with
      | '\x7d' :: rest => some ([item], rest)
      | ',' :: rest =>
        let (items, rest) ← tableItems value fuel rest
        some (item :: items, rest)
      | _ => none

/-- Where a table came from. It decides who may add to it later. -/
inductive Origin where
  | implied
  | dotted
  | declared
  deriving DecidableEq, Repr

/-- A document while it is read: a finished value, a table that may still grow, or an array of
tables. -/
inductive Node where
  | leaf (value : Value)
  | table (origin : Origin) (entries : List (String × Node))
  | tables (elements : List Node)
  deriving Inhabited

/-- The entry under a key, and how to put another one in its place. -/
def entry? (name : String) : List (String × Node) → Option Node
  | [] => none
  | (k, node) :: rest => if k = name then some node else entry? name rest

def putEntry (name : String) (node : Node) : List (String × Node) → List (String × Node)
  | [] => [(name, node)]
  | (k, other) :: rest =>
    if k = name then (k, node) :: rest else (k, other) :: putEntry name node rest

/-- Adds a value under a dotted key. The tables on the way are new, implied or dotted themselves, or
the last of an array of tables; the table that takes the value is dotted too unless the key has no
dot. -/
def bind (item : Value) :
    List String → Origin → List (String × Node) → Option (List (String × Node))
  | [], _, _ => none
  | [name], _, entries =>
    match entry? name entries with
    | some _ => none
    | none => some (putEntry name (.leaf item) entries)
  | name :: path, _, entries =>
    match entry? name entries with
    | none => do
      let inner ← bind item path .dotted []
      some (putEntry name (.table .dotted inner) entries)
    | some (.table origin inner) =>
      -- A table that a header opened is closed to dotted keys.
      if origin = .declared || (path.length = 1 && origin ≠ .dotted) then none
      else do
        let inner ← bind item path origin inner
        some (putEntry name (.table origin inner) entries)
    | some (.tables elements) =>
      match elements.reverse with
      | .table origin inner :: front =>
        if path.length = 1 then none
        else do
          let inner ← bind item path origin inner
          some (putEntry name (.tables (.table origin inner :: front).reverse) entries)
      | _ => none
    | some (.leaf _) => none

mutual

def Node.value : Node → Value
  | .leaf value => value
  | .table _ entries => .table (entryValues entries)
  | .tables elements => .array (nodeValues elements)

def entryValues : List (String × Node) → List (String × Value)
  | [] => []
  | (name, node) :: rest => (name, node.value) :: entryValues rest

def nodeValues : List Node → List Value
  | [] => []
  | node :: rest => node.value :: nodeValues rest

end

/-- An inline table, closed once it is read. -/
def inlineTable (bindings : List (List String × Value)) : Option Value := do
  let entries ← bindings.foldlM (fun entries (path, item) => bind item path .dotted entries) []
  some (Node.value (.table .dotted entries))

/-- A value nested no deeper than allowed. -/
def valueWithin : Nat → Reader Value
  | depth, text =>
    match text with
    | '"' :: _ | '\'' :: _ =>
      (quoted text).map fun (chars, rest) => (.string (String.ofList chars), rest)
    | '[' :: rest =>
      match depth with
      | 0 => none
      | depth + 1 =>
        (arrayItems (valueWithin depth) (rest.length + 1) rest).map fun (items, rest) =>
          (.array items, rest)
    | '\x7b' :: rest =>
      match depth with
      | 0 => none
      | depth + 1 => do
        let (bindings, rest) ← tableItems (valueWithin depth) (rest.length + 1) rest
        some (← inlineTable bindings, rest)
    | _ => bareValue text

def value : Reader Value := valueWithin maxDepth

end ServiceHost.Toml
