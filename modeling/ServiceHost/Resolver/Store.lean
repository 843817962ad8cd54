import ServiceHost.Duration
import ServiceHost.Plugin.Loader
import ServiceHost.Resolver.CodePath

/-! Resolvers: strategies that turn a service name into code, a resource or a library.

Resolvers live in a store, so that one resolver can be a member of several chains and
is told apart from another one with the same content. A lookup that cannot be answered
finds nothing; a chain then goes on with its next member. -/

set_option autoImplicit false

namespace ServiceHost

abbrev ResolverId := Nat

namespace Resolver

/-- A table of code behind a query language. -/
structure Relational where
  template : String
  /-- The first column of the first row, none also when the query fails. -/
  answer : String → Option Blob
  asked : List String

/-- The query for a name: the first question mark of the template gives way to it. -/
def Relational.render (source : Relational) (name : String) : Option String :=
  (Text.cut (· == '?') source.template.toList).map fun (front, back) =>
    String.ofList (front ++ name.toList ++ back)

end Resolver

inductive Resolver where
  | memory (entries : Table Blob)
  | relational (source : Resolver.Relational)
  | fileSystem (root : String)
  | network (address : String) (timeout : Duration)
  | plugins (preloader : Plugin.Preloader)
  /-- An ordered chain; its first member with an answer wins. -/
  | composite (members : List ResolverId)
  /-- At most one resolver, seen through another one. -/
  | adapter (delegate : Option ResolverId)
  /-- The same resolver under an identity of its own. -/
  | shared (inner : ResolverId)

/-- What resolvers look at: the files, and the answers of code servers by address and name. -/
structure Surroundings where
  files : Files
  remote : String → String → Option Blob

structure Resolvers where
  all : List Resolver

namespace Resolvers

def empty : Resolvers := ⟨[]⟩

def get? (store : Resolvers) (id : ResolverId) : Option Resolver := store.all[id]?

def add (store : Resolvers) (resolver : Resolver) : ResolverId × Resolvers :=
  (store.all.length, ⟨store.all ++ [resolver]⟩)

def replace (store : Resolvers) (id : ResolverId) (resolver : Resolver) : Resolvers :=
  ⟨store.all.set id resolver⟩

/-- Asks the members in order until an answer counts. -/
def firstAnswer {β : Type} (ask : ResolverId → Resolvers → Option β × Resolvers)
    (counts : β → Bool) : List ResolverId → Resolvers → Option β × Resolvers
  | [], store => (none, store)
  | member :: rest, store =>
    match ask member store with
    | (some answer, store) =>
      if counts answer then (some answer, store) else firstAnswer ask counts rest store
    | (none, store) => firstAnswer ask counts rest store

/-- Looks through chains and adapters, no deeper than the number of resolvers. -/
def search {β : Type} (leaf : Resolver → Option β × Resolver) (counts : β → Bool) :
    Nat → ResolverId → Resolvers → Option β × Resolvers
  | 0, _, store => (none, store)
  | depth + 1, id, store =>
    match store.get? id with
    | none => (none, store)
    | some (.composite members) => firstAnswer (search leaf counts depth) counts members store
    | some (.adapter none) => (none, store)
    | some (.adapter (some inner)) => search leaf counts depth inner store
    | some (.shared inner) => search leaf counts depth inner store
    -- A leaf may remember that it was asked.
    | some resolver =>
      let (answer, asked) := leaf resolver
      (answer, store.replace id asked)

def depth (store : Resolvers) : Nat := store.all.length + 1

def leafCode (around : Surroundings) (name : String) : Resolver → Option Blob × Resolver
  | .memory entries => (entries.get? name, .memory entries)
  | .relational source =>
    match source.render name with
    | none => (none, .relational source)
    | some query =>
      (source.answer query, .relational { source with asked := source.asked ++ [query] })
  | .fileSystem root =>
    ((Resolver.codePath root name).bind fun path =>
      (around.files.read path).toOption, .fileSystem root)
  | .network address timeout => (around.remote address name, .network address timeout)
  | .plugins preloader => (preloader.code? name, .plugins preloader)
  | other => (none, other)

def leafResource (around : Surroundings) (name : String) : Resolver → Option String × Resolver
  | .fileSystem root =>
    ((Resolver.innerPath root name).bind fun path =>
      (around.files.resolve path).toOption.map Path.fileUrl, .fileSystem root)
  | other => (none, other)

def leafLibrary (around : Surroundings) (name : String) : Resolver → Option String × Resolver
  | .fileSystem root =>
    ((Resolver.innerPath root (Resolver.libraryName name)).bind fun path =>
      if around.files.present path then some path else none, .fileSystem root)
  | other => (none, other)

/-- The code for a name. In a chain, empty code counts as no answer. -/
def findCode (store : Resolvers) (around : Surroundings) (id : ResolverId) (name : String) :
    Option Blob × Resolvers :=
  search (leafCode around name) (fun code => !code.isEmpty) store.depth id store

def findResource (store : Resolvers) (around : Surroundings) (id : ResolverId) (name : String) :
    Option String × Resolvers :=
  search (leafResource around name) (fun _ => true) store.depth id store

def findLibrary (store : Resolvers) (around : Surroundings) (id : ResolverId) (name : String) :
    Option String × Resolvers :=
  search (leafLibrary around name) (fun _ => true) store.depth id store

def describeWithin (store : Resolvers) : Nat → ResolverId → String
  | 0, _ => ""
  | depth + 1, id =>
    match store.get? id with
    | none => ""
    | some (.memory _) => "in-memory"
    | some (.relational _) => "sql"
    | some (.fileSystem root) => s!"fs:{root}"
    | some (.network address _) => s!"net:{address}"
    | some (.plugins preloader) => preloader.describe
    | some (.composite members) =>
      "composite[" ++ String.intercalate ", " (members.map (describeWithin store depth)) ++ "]"
    | some (.adapter none) => "adapter(unset)"
    | some (.adapter (some inner)) => s!"adapter({describeWithin store depth inner})"
    | some (.shared inner) => describeWithin store depth inner

/-- The short label used in instance ids and reports. -/
def describe (store : Resolvers) (id : ResolverId) : String := describeWithin store store.depth id

def push (store : Resolvers) (chain member : ResolverId) : Resolvers :=
  match store.get? chain with
  | some (.composite members) => store.replace chain (.composite (members ++ [member]))
  | _ => store

/-- Takes every occurrence of a member out of a chain, and tells whether there was one. -/
def withdraw (store : Resolvers) (chain member : ResolverId) : Bool × Resolvers :=
  match store.get? chain with
  | some (.composite members) =>
    (members.contains member, store.replace chain (.composite (members.filter (· ≠ member))))
  | _ => (false, store)

end Resolvers

end ServiceHost
