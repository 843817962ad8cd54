import ServiceHost.Resolver.Store

/-! Resolvers as host settings describe them, and how a description is built.

A description is a table with its kind under `kind` and no key that the kind does not
have, or an array that starts with the kind and goes on with the values of the keys in
order. -/

set_option autoImplicit false

namespace ServiceHost.Resolver

inductive Description where
  | inMemory (entries : List (String × String))
  | fileSystem (root : String)
  | network (address : String) (seconds : Option Nat)
  | composite (members : List Description)
  deriving Repr, Inhabited

namespace Description

open Toml (Value)

/-- A value of a description, and the list of descriptions that it holds, if it holds one. -/
abbrev Part := Value × Option (List Description)

/-- The key under which a moment keeps its text where a table is asked for. -/
def momentKey : String := "$__toml_private_datetime"

/-- A table of texts. A moment counts as one. -/
def texts? : Value → Option (List (String × String))
  | .table entries => entries.mapM fun (key, item) => do some (key, ← item.string?)
  | .moment text => some [(momentKey, text)]
  | _ => none

/-- What is under a key: the reading of the value if the key is there, else the other thing. -/
def under {α : Type} (key : String) (parts : List (String × Part)) (read : Part → Option α)
    (missing : Option α) : Option α :=
  match parts.lookup key with
  | some part => read part
  | none => missing

def onlyKeys (keys : List String) (parts : List (String × Part)) : Option Unit :=
  if parts.all fun part => keys.contains part.1 then some () else none

def ofTable (parts : List (String × Part)) : Option Description := do
  match ← under "kind" parts (·.1.string?) none with
  | "in-memory" =>
    onlyKeys ["kind", "entries"] parts
    some (.inMemory (← under "entries" parts (texts? ·.1) (some [])))
  | "file-system" =>
    onlyKeys ["kind", "root"] parts
    some (.fileSystem (← under "root" parts (·.1.string?) none))
  | "network" =>
    onlyKeys ["kind", "address", "timeout-secs"] parts
    let address ← under "address" parts (·.1.string?) none
    some (.network address (← under "timeout-secs" parts (·.1.nat64?.map some) (some none)))
  | "composite" =>
    onlyKeys ["kind", "members"] parts
    some (.composite (← under "members" parts (·.2) (some [])))
  | _ => none

def ofSequence (kind : String) (parts : List Part) : Option Description := do
  match kind, parts with
  | "in-memory", [] => some (.inMemory [])
  | "in-memory", [entries] => some (.inMemory (← texts? entries.1))
  | "file-system", [root] => some (.fileSystem (← root.1.string?))
  | "network", [address] => some (.network (← address.1.string?) none)
  | "network", [address, seconds] =>
    some (.network (← address.1.string?) (some (← seconds.1.nat64?)))
  | "composite", [] => some (.composite [])
  | "composite", [members] => some (.composite (← members.2))
  | _, _ => none

mutual

def ofValue : Value → Option Description
  | .table entries => ofTable (partsOfEntries entries)
  | .array (.string kind :: rest) => ofSequence kind (partsOfItems rest)
  | _ => none

def ofValues : List Value → Option (List Description)
  | [] => some []
  | value :: rest => do
    let first ← ofValue value
    let others ← ofValues rest
    some (first :: others)

def membersOf : Value → Option (List Description)
  | .array items => ofValues items
  | _ => none

def partsOfEntries : List (String × Value) → List (String × Part)
  | [] => []
  | (key, value) :: rest => (key, value, membersOf value) :: partsOfEntries rest

def partsOfItems : List Value → List Part
  | [] => []
  | value :: rest => (value, membersOf value) :: partsOfItems rest

end

def read (text : String) : Option Description := do ofValue (.table (← Toml.read text))

end Description

inductive BuildError where
  | invalidRoot (root : String)
  | emptyAddress
  | zeroTimeout
  deriving DecidableEq, Repr

def notADirectory (root : String) : String := s!"{root} is not a directory"

namespace BuildError

def message : BuildError → String
  | invalidRoot root => s!"file-system resolver root {root}: {notADirectory root}"
  | emptyAddress => "network resolver needs a non-empty address"
  | zeroTimeout => "network resolver timeout must be positive"

def kind : BuildError → String
  | invalidRoot _ => "InvalidRoot"
  | emptyAddress => "EmptyAddress"
  | zeroTimeout => "ZeroTimeout"

def causes : BuildError → List String
  | invalidRoot root => [notADirectory root]
  | _ => []

end BuildError

/-- Bound on a lookup over the network unless a description sets one. -/
def defaultTimeout : Duration := .ofSeconds 30

mutual

/-- Builds what is described. Members are built in order, and the first that cannot be built
decides the error. -/
def Description.build (files : Files) :
    Description → Resolvers → Except BuildError (ResolverId × Resolvers)
  | .inMemory entries, store =>
    let codes := entries.map fun (name, text) => (name, Text.toBytes text)
    .ok (store.add (.memory (Table.ofList codes)))
  | .fileSystem root, store =>
    if files.isDirectory root then .ok (store.add (.fileSystem root))
    else .error (.invalidRoot root)
  | .network address seconds, store =>
    let trimmed := Text.trim address.toList
    if trimmed.isEmpty then .error .emptyAddress
    else match seconds with
      | some 0 => .error .zeroTimeout
      | some seconds => .ok (store.add (.network (String.ofList trimmed) (.ofSeconds seconds)))
      | none => .ok (store.add (.network (String.ofList trimmed) defaultTimeout))
  | .composite members, store => do
    let (ids, store) ← buildAll files members store
    return store.add (.composite ids)

def buildAll (files : Files) :
    List Description → Resolvers → Except BuildError (List ResolverId × Resolvers)
  | [], store => .ok ([], store)
  | first :: rest, store => do
    let (id, store) ← first.build files store
    let (ids, store) ← buildAll files rest store
    return (id :: ids, store)

end

end ServiceHost.Resolver
