import ServiceHost.Proofs.Resolver.Chains
import ServiceHost.Proofs.Resolver.CodeFile
import ServiceHost.Proofs.Resolver.Faults

/-! What a resolver built from a description finds, and how it is labelled.

Building puts resolvers into the store, members before the chains over them. What a description
means is told here without the store; what was built means the same in every later store that
keeps what building has added. -/

set_option autoImplicit false

namespace ServiceHost

namespace Table

theorem lookup_map {α β : Type} (f : α → β) (key : String) (entries : List (String × α)) :
    (entries.map fun entry => (entry.1, f entry.2)).lookup key = (entries.lookup key).map f := by
  induction entries with
  | nil => rfl
  | cons entry rest ih =>
    obtain ⟨k, value⟩ := entry
    cases same : key == k <;> simp [List.lookup_cons, same, ih]

end Table

namespace Resolver.Description

section Meaning

variable (around : Surroundings) (name : String)

mutual

/-- The code that a description has for a name: a table its last entry for it, a root its file, an
address the answer of its server, and a chain the first answer of its members that is not empty. -/
def code : Description → Option Blob
  | .inMemory entries => (entries.reverse.lookup name).map Text.toBytes
  | .fileSystem root => codeFile around.files root name
  | .network address _ => around.remote (String.ofList (Text.trim address.toList)) name
  | .composite members => firstCode members

def firstCode : List Description → Option Blob
  | [] => none
  | first :: rest => (first.code.filter fun code => !code.isEmpty).or (firstCode rest)

end

end Meaning

mutual

/-- A text that mirrors the nesting. -/
def label : Description → String
  | .inMemory _ => "in-memory"
  | .fileSystem root => "fs:" ++ root
  | .network address _ => "net:" ++ String.ofList (Text.trim address.toList)
  | .composite members => "composite[" ++ String.intercalate ", " (labels members) ++ "]"

def labels : List Description → List String
  | [] => []
  | first :: rest => first.label :: labels rest

end

end Resolver.Description

namespace Resolvers

open ServiceHost.Resolver (Description buildAll read_codePath)
open ServiceHost.Resolver.Description (Valid FirstFault fault? leavesAll firstCode labels)

/-- The resolver finds what the description has, in any surroundings, without a trace in the store,
and bears the description's label. -/
structure Embodies (store : Resolvers) (id : ResolverId) (description : Description) : Prop where
  code : ∀ around name, store.findCode around id name = (description.code around name, store)
  label : store.describe id = description.label

/-- Another store holds what was added to the first on the way to the second. -/
def Keeps (before after later : Resolvers) : Prop :=
  ∀ id, before.all.length ≤ id → id < after.all.length → later.get? id = after.get? id

/-- The same at every depth that reaches to the bottom. A built resolver has no resolver below it
that was made after it, so its own number is such a depth. -/
structure Stands (before after : Resolvers) (id : ResolverId) (description : Description) :
    Prop where
  grown : before.all <+: after.all
  fresh : before.all.length ≤ id
  held : id < after.all.length
  code : ∀ later, before.Keeps after later → ∀ depth, id < depth → ∀ around name,
    search (leafCode around name) (fun code => !code.isEmpty) depth id later =
      (description.code around name, later)
  label : ∀ later, before.Keeps after later → ∀ depth, id < depth →
    describeWithin later depth id = description.label

/-- Resolvers in a row stand for descriptions in a row. -/
structure StandAll (before after : Resolvers) (ids : List ResolverId)
    (descriptions : List Description) : Prop where
  grown : before.all <+: after.all
  code : ∀ later, before.Keeps after later → ∀ depth, after.all.length ≤ depth →
    ∀ around name,
      firstAnswer (search (leafCode around name) (fun code => !code.isEmpty) depth)
        (fun code => !code.isEmpty) ids later = (firstCode around name descriptions, later)
  label : ∀ later, before.Keeps after later → ∀ depth, after.all.length ≤ depth →
    ids.map (describeWithin later depth) = labels descriptions

theorem Stands.embodies {before after later : Resolvers} {id : ResolverId}
    {description : Description} (stands : before.Stands after id description)
    (keeps : before.Keeps after later) : later.Embodies id description := by
  have known : id < later.depth := by
    have there : (later.get? id).isSome := by
      rw [keeps id stands.fresh stands.held]
      simpa [get?] using stands.held
    exact Nat.lt_succ_of_lt (by simpa [get?] using there)
  exact ⟨fun around name => stands.code later keeps _ known around name,
    stands.label later keeps _ known⟩

theorem replace_self {store : Resolvers} {id : ResolverId} {resolver : Resolver}
    (held : store.get? id = some resolver) : store.replace id resolver = store := by
  refine ext_get? fun other => ?_
  rw [get?_replace]
  split
  case _ same => simp [same, held]
  case _ => rfl

/-- What was added last is found where the store says. -/
theorem Keeps.added {before later : Resolvers} {resolver : Resolver}
    (keeps : before.Keeps (before.add resolver).2 later) :
    later.get? (before.add resolver).1 = some resolver := by
  have there := keeps before.all.length (Nat.le_refl _) (by simp [add])
  exact there.trans (by simp [add, get?])

/-- A leaf stands by itself. -/
theorem stands_leaf (store : Resolvers) {resolver : Resolver} {description : Description}
    (code : ∀ (later : Resolvers) (depth id : Nat) (around : Surroundings) (name : String),
      later.get? id = some resolver →
        search (leafCode around name) (fun code => !code.isEmpty) (depth + 1) id later =
          (description.code around name, later))
    (label : ∀ (later : Resolvers) (depth id : Nat), later.get? id = some resolver →
      describeWithin later (depth + 1) id = description.label) :
    store.Stands (store.add resolver).2 (store.add resolver).1 description where
  grown := List.prefix_append ..
  fresh := Nat.le_refl _
  held := by simp [add]
  code := by
    intro later keeps depth deep around name
    obtain ⟨more, rfl⟩ := Nat.exists_eq_add_of_lt deep
    exact code later _ _ around name keeps.added
  label := by
    intro later keeps depth deep
    obtain ⟨more, rfl⟩ := Nat.exists_eq_add_of_lt deep
    exact label later _ _ keeps.added

variable {before middle after later : Resolvers}

theorem get?_of_prefix (grown : before.all <+: after.all) {id : ResolverId}
    (known : id < before.all.length) : after.get? id = before.get? id := by
  obtain ⟨added, same⟩ := grown
  simp [get?, ← same, List.getElem?_append_left known]

theorem Keeps.front (keeps : before.Keeps after later) (grown : middle.all <+: after.all) :
    before.Keeps middle later := by
  intro id fresh known
  rw [keeps id fresh (Nat.lt_of_lt_of_le known grown.length_le), get?_of_prefix grown known]

theorem Keeps.back (keeps : before.Keeps after later) (grown : before.all <+: middle.all) :
    middle.Keeps after later :=
  fun id fresh known => keeps id (Nat.le_trans grown.length_le fresh) known

theorem StandAll.nil (store : Resolvers) : store.StandAll store [] [] where
  grown := List.prefix_refl _
  code := fun _ _ _ _ _ _ => rfl
  label := fun _ _ _ _ => rfl

theorem Stands.cons {id : ResolverId} {ids : List ResolverId} {first : Description}
    {rest : List Description} (stands : before.Stands middle id first)
    (all : middle.StandAll after ids rest) : before.StandAll after (id :: ids) (first :: rest) where
  grown := stands.grown.trans all.grown
  code := by
    intro later keeps depth deep around name
    have reaches : id < depth :=
      Nat.lt_of_lt_of_le stands.held (Nat.le_trans all.grown.length_le deep)
    have own := stands.code later (keeps.front all.grown) depth reaches around name
    have others := all.code later (keeps.back stands.grown) depth deep around name
    simp only [firstAnswer, firstCode, own]
    cases first.code around name with
    | none => exact others
    | some code => cases empty : code.isEmpty <;> simp [empty, Option.filter_some, others]
  label := by
    intro later keeps depth deep
    have reaches : id < depth :=
      Nat.lt_of_lt_of_le stands.held (Nat.le_trans all.grown.length_le deep)
    simp only [List.map_cons, labels, stands.label later (keeps.front all.grown) depth reaches,
      all.label later (keeps.back stands.grown) depth deep]

/-- A chain over resolvers that stand for the members stands for the chain of them. -/
theorem StandAll.chain {ids : List ResolverId} {members : List Description}
    (all : before.StandAll after ids members) :
    before.Stands (after.add (.composite ids)).2 (after.add (.composite ids)).1
      (.composite members) where
  grown := all.grown.trans (List.prefix_append ..)
  fresh := all.grown.length_le
  held := by simp [add]
  code := by
    intro later keeps depth deep around name
    obtain ⟨more, rfl⟩ := Nat.exists_eq_add_of_lt deep
    have inside := keeps.front (List.prefix_append ..)
    simp only [search, (keeps.back all.grown).added]
    exact all.code later inside _ (Nat.le_add_right ..) around name
  label := by
    intro later keeps depth deep
    obtain ⟨more, rfl⟩ := Nat.exists_eq_add_of_lt (show after.all.length < depth from deep)
    have inside := keeps.front (List.prefix_append ..)
    simp only [describeWithin, (keeps.back all.grown).added, Description.label]
    rw [all.label later inside (after.all.length + more) (Nat.le_add_right ..)]

/-- What building comes to, by the first fault of what is to be built. -/
def Comes {ε α : Type} (outcome : Except ε (α × Resolvers)) (fault : Option ε)
    (stands : α → Resolvers → Prop) : Prop :=
  match fault with
  | some cause => outcome = .error cause
  | none => ∃ made after, outcome = .ok (made, after) ∧ stands made after

section Comes

variable {ε α β : Type} {outcome : Except ε (α × Resolvers)} {fault : Option ε}
  {stands : α → Resolvers → Prop} {goal : β → Resolvers → Prop}
  {next : α × Resolvers → Except ε (β × Resolvers)}

theorem Comes.bind {other : Option ε} (own : Comes outcome fault stands)
    (onward : ∀ made after, stands made after → Comes (next (made, after)) other goal) :
    Comes (outcome >>= next) (fault.or other) goal := by
  cases fault with
  | some cause =>
    cases (own : outcome = .error cause)
    rfl
  | none =>
    obtain ⟨made, after, rfl, held⟩ := own
    exact onward made after held

theorem Comes.map (own : Comes outcome fault stands)
    (onward : ∀ made after, stands made after →
      ∃ other final, next (made, after) = .ok (other, final) ∧ goal other final) :
    Comes (outcome >>= next) fault goal := by
  have bound : Comes (outcome >>= next) (fault.or none) goal := own.bind onward
  rwa [Option.or_none] at bound

theorem Comes.mapError {δ : Type} (own : Comes outcome fault stands) (report : ε → δ) :
    Comes (outcome.mapError report) (fault.map report) stands := by
  cases fault with
  | some cause =>
    cases (own : outcome = .error cause)
    rfl
  | none =>
    obtain ⟨made, after, rfl, held⟩ := own
    exact ⟨made, after, rfl, held⟩

end Comes

variable {files : Files}

theorem buildAll_comes {members : List Description}
    (each : ∀ member ∈ members, ∀ store, Comes (member.build files store)
      (member.leaves.findSome? (fault? files)) fun id after => store.Stands after id member)
    (store : Resolvers) :
    Comes (buildAll files members store) ((leavesAll members).findSome? (fault? files))
      fun ids after => store.StandAll after ids members := by
  induction members generalizing store with
  | nil => exact ⟨[], store, rfl, .nil store⟩
  | cons first rest ih =>
    obtain ⟨own, others⟩ := List.forall_mem_cons.mp each
    rw [leavesAll, List.findSome?_append]
    refine (own store).bind fun id middle stands => ?_
    refine (ih others middle).map fun ids after all => ?_
    exact ⟨id :: ids, after, rfl, stands.cons all⟩

theorem stands_inMemory (store : Resolvers) (entries : List (String × String)) :
    store.Stands (store.add (.memory (Table.ofList (entries.map fun entry =>
        (entry.1, Text.toBytes entry.2))))).2 store.all.length (.inMemory entries) := by
  refine stands_leaf store ?_ ?_
  · intro later depth id around name held
    simp only [search, held, leafCode, replace_self held, Table.get?_ofList, Description.code,
      ← List.map_reverse, Table.lookup_map]
  · intro later depth id held
    simp only [describeWithin, held, Description.label]

theorem stands_fileSystem (store : Resolvers) {root : String}
    (made : files.isDirectory root = true) :
    store.Stands (store.add (.fileSystem root)).2 store.all.length (.fileSystem root) := by
  refine stands_leaf store ?_ ?_
  · intro later depth id around name held
    simp only [search, held, leafCode, replace_self held, Description.code,
      read_codePath around.files (Files.ne_empty_of_isDirectory made)]
  · intro later depth id held
    simp only [describeWithin, held, Description.label]
    rfl

theorem stands_network (store : Resolvers) (address : String) (seconds : Option Nat)
    (timeout : Duration) :
    store.Stands (store.add (.network (String.ofList (Text.trim address.toList)) timeout)).2
      store.all.length (.network address seconds) := by
  refine stands_leaf store ?_ ?_
  · intro later depth id around name held
    simp only [search, held, leafCode, replace_self held, Description.code]
  · intro later depth id held
    simp only [describeWithin, held, Description.label]
    rfl

theorem build_comes (files : Files) (description : Description) (store : Resolvers) :
    Comes (description.build files store) (description.leaves.findSome? (fault? files))
      fun id after => store.Stands after id description := by
  induction description using Description.nesting generalizing store with
  | inMemory entries => exact ⟨_, _, rfl, stands_inMemory store entries⟩
  | fileSystem root =>
    cases made : files.isDirectory root with
    | true =>
      simp only [Description.build, made, if_true, Description.leaves, List.findSome?_singleton,
        fault?]
      exact ⟨_, _, rfl, stands_fileSystem store made⟩
    | false => simp [Description.build, made, Description.leaves, fault?, Comes]
  | network address seconds =>
    have blank : (Text.trim address.toList).isEmpty = address.toList.all Text.isBlank := by
      rw [Bool.eq_iff_iff, List.isEmpty_iff, Text.trim_eq_nil_iff, List.all_eq_true]
    simp only [Description.build, blank, Description.leaves, List.findSome?_singleton, fault?]
    cases address.toList.all Text.isBlank with
    | true => rfl
    | false =>
      simp only [Bool.false_eq_true, if_false]
      split
      case _ => rfl
      case _ seconds positive =>
        rw [if_neg (by simpa using positive)]
        exact ⟨_, _, rfl, stands_network store address _ _⟩
      case _ => exact ⟨_, _, rfl, stands_network store address _ _⟩
  | composite members each =>
    refine (buildAll_comes each store).map fun ids after all => ?_
    exact ⟨_, _, rfl, all.chain⟩

/-- Building succeeds on valid descriptions and on no others, fails by the first leaf that cannot be
built, and what it has built means what the description says from then on. -/
theorem build_as_described (files : Files) (description : Description) (store : Resolvers) :
    ((∃ id after, description.build files store = .ok (id, after)) ↔ Valid files description) ∧
    (∀ cause, description.build files store = .error cause ↔
      FirstFault files description.leaves cause) ∧
    (∀ id after, description.build files store = .ok (id, after) →
      store.all <+: after.all ∧ store.all.length ≤ id ∧ id < after.all.length ∧
        ∀ later, store.Keeps after later → later.Embodies id description) := by
  have comes := build_comes files description store
  simp only [Resolver.Description.valid_iff, Resolver.Description.firstFault_iff]
  cases fault : description.leaves.findSome? (fault? files) with
  | some cause =>
    rw [fault] at comes
    have failed : description.build files store = .error cause := comes
    simp [failed]
  | none =>
    rw [fault] at comes
    obtain ⟨id, after, built, stands⟩ := comes
    refine ⟨by simp [built], by simp [built], ?_⟩
    intro other final same
    cases built.symm.trans same
    exact ⟨stands.grown, stands.fresh, stands.held, fun _ => stands.embodies⟩

/-- In a chain an empty entry does not stand in the way, and an address is asked without the blanks
around it. -/
example : (Description.composite [.inMemory [("Echo", "")], .network " h:1 " none]).code
    ⟨⟨.directory [], []⟩, fun address _ => if address = "h:1" then some [7] else none⟩ "Echo" =
      some [7] := by decide +kernel

end Resolvers

end ServiceHost
