import ServiceHost.Toml.Inline

/-! TOML documents: bindings and table headers, one a line, gathered into one table.

No table is opened twice by a header, and no header opens a table that dotted keys
have made. -/

set_option autoImplicit false

namespace ServiceHost.Toml

inductive Line where
  | binding (path : List String) (value : Value)
  | header (path : List String)
  | arrayHeader (path : List String)

/-- The end of a line: a comment at most, then a line end or the end of the text. -/
def lineEnd (text : List Char) : Option (List Char) := do
  let rest ← match skipGaps text with
    | '#' :: rest => skipComment rest
    | rest => some rest
  match rest with
  | [] => some []
  | '\n' :: rest => some rest
  | '\r' :: '\n' :: rest => some rest
  | _ => none

def line : Reader Line := fun text => do
  let (line, rest) ← match text with
    | '[' :: '[' :: rest => do
      let (path, rest) ← key rest
      let ']' :: ']' :: rest := rest | none
      some (Line.arrayHeader path, rest)
    | '[' :: rest => do
      let (path, rest) ← key rest
      let ']' :: rest := rest | none
      some (Line.header path, rest)
    | _ => do
      let ((path, item), rest) ← binding value text
      some (Line.binding path item, rest)
  some (line, ← lineEnd rest)

/-- The lines of a document, blank ones left out. -/
def lines : Nat → List Char → Option (List Line)
  | 0, _ => none
  | fuel + 1, text => do
    match ← skipFiller text with
    | [] => some []
    | text =>
      let (first, rest) ← line text
      let others ← lines fuel rest
      some (first :: others)

/-- Walks down the named tables, making those that are missing, and changes the table at the end.
An array of tables stands for its last element. -/
def within (change : List (String × Node) → Option (List (String × Node))) :
    List String → List (String × Node) → Option (List (String × Node))
  | [], entries => change entries
  | name :: path, entries =>
    match entry? name entries with
    | none => do
      let inner ← within change path []
      some (putEntry name (.table .implied inner) entries)
    | some (.table origin inner) => do
      let inner ← within change path inner
      some (putEntry name (.table origin inner) entries)
    | some (.tables elements) =>
      -- The elements stay in order; only the last one is rebuilt.
      match elements.reverse with
      | .table origin inner :: front => do
        let inner ← within change path inner
        some (putEntry name (.tables (.table origin inner :: front).reverse) entries)
      | _ => none
    | some (.leaf _) => none

def openTable (name : String) (entries : List (String × Node)) : Option (List (String × Node)) :=
  match entry? name entries with
  | none => some (putEntry name (.table .declared []) entries)
  | some (.table .implied inner) => some (putEntry name (.table .declared inner) entries)
  | some _ => none

/-- Opens one more element of the array of tables that a header names. -/
def openElement (name : String) (entries : List (String × Node)) : Option (List (String × Node)) :=
  match entry? name entries with
  | none => some (putEntry name (.tables [.table .declared []]) entries)
  | some (.tables elements) =>
    some (putEntry name (.tables (elements ++ [.table .declared []])) entries)
  | some _ => none

/-- The document so far, and the table that bindings go to. -/
structure Draft where
  entries : List (String × Node)
  current : List String

def Draft.add (draft : Draft) : Line → Option Draft
  | .binding path item => do
    let entries ← within (bind item path .declared) draft.current draft.entries
    some { draft with entries }
  -- The tables on the way are only implied, so that a later header may still open them.
  | .header path => do
    let entries ← within (openTable (path.getLastD "")) path.dropLast draft.entries
    some ⟨entries, path⟩
  | .arrayHeader path => do
    let entries ← within (openElement (path.getLastD "")) path.dropLast draft.entries
    some ⟨entries, path⟩

/-- Reads a whole document; a byte order mark in front of it is passed over. -/
def read (text : String) : Option (List (String × Value)) := do
  let body := match text.toList with
    | '\ufeff' :: rest => rest
    | rest => rest
  let lines ← lines (body.length + 1) body
  let draft ← lines.foldlM Draft.add ⟨[], []⟩
  some (entryValues draft.entries)

end ServiceHost.Toml
