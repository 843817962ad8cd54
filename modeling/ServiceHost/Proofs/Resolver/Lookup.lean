import ServiceHost.Proofs.Resolver.Chains
import ServiceHost.Proofs.Resolver.Nesting

/-! Lookups by a chain: they are lookups over the flat list of the leaves below it.

The answer is that of the first leaf with one, and the leaves up to it are asked in order
and no other. -/

set_option autoImplicit false

namespace ServiceHost

/-- A resolver that was asked a number of times for the code of a name. -/
def Resolver.remembering (name : String) (times : Nat) : Resolver → Resolver
  | .relational source =>
    match source.render name with
    | none => .relational source
    | some query =>
      .relational { source with asked := source.asked ++ List.replicate times query }
  | other => other

theorem Resolver.remembering_zero (name : String) (resolver : Resolver) :
    resolver.remembering name 0 = resolver := by
  unfold remembering
  split
  · split <;> simp
  · rfl

theorem Resolver.remembering_remembering (name : String) (first more : Nat)
    (resolver : Resolver) : (resolver.remembering name first).remembering name more =
      resolver.remembering name (first + more) := by
  cases resolver with
  | relational source =>
    cases rendered : source.render name with
    | none => simp [remembering, rendered]
    | some query =>
      have same : ∀ asked, Relational.render { source with asked := asked } name = some query :=
        fun _ => rendered
      simp [remembering, rendered, same, List.replicate_append_replicate]
  | _ => rfl

namespace Resolvers

variable {store : Resolvers} {β : Type}

/-- The answer of a leaf, if it has one that counts. -/
def found (leaf : Resolver → Option β × Resolver) (counts : β → Bool) (store : Resolvers)
    (id : ResolverId) : Option β :=
  ((store.get? id).bind fun resolver => (leaf resolver).1).filter counts

/-- All up to the first hit, and with it. -/
def upTo (hit : ResolverId → Bool) : List ResolverId → List ResolverId
  | [] => []
  | id :: rest => if hit id then [id] else id :: upTo hit rest

/-- Asks one leaf, and writes down that it was asked. -/
def noting (leaf : Resolver → Option β × Resolver) (id : ResolverId)
    (state : Resolvers × List ResolverId) : Option β × Resolvers × List ResolverId :=
  let (answer, store) := consult leaf id state.1
  (answer, store, state.2 ++ [id])

/-- A lookup together with the leaves that it asks, in order. -/
def traced (leaf : Resolver → Option β × Resolver) (counts : β → Bool) (store : Resolvers)
    (id : ResolverId) : Option β × Resolvers × List ResolverId :=
  walk Prod.fst (noting leaf) counts store.depth id (store, [])

section Leaf

variable {leaf : Resolver → Option β × Resolver} {counts : β → Bool}

theorem through_traced (leaf : Resolver → Option β × Resolver) (counts : β → Bool)
    (store : Resolvers) (id : ResolverId) :
    through Prod.fst (traced leaf counts store id) = search leaf counts store.depth id store := by
  have same : ∀ (id : ResolverId) (state : Resolvers × List ResolverId),
      through Prod.fst (noting leaf id state) = consult leaf id state.1 := fun _ _ => rfl
  rw [search_eq_walk]
  exact through_walk (fun store => store) same store.depth id (store, [])

theorem get?_consult (id other : ResolverId) (store : Resolvers) :
    (consult leaf id store).2.get? other =
      if other = id then (store.get? id).map fun resolver => (leaf resolver).2
      else store.get? other := by
  unfold consult
  cases held : store.get? id with
  | none => by_cases same : other = id <;> simp [same, held]
  | some resolver => simp [get?_replace, held]

theorem sameShape_consult (stays : ∀ resolver, (leaf resolver).2.members? = resolver.members?)
    (id : ResolverId) (store : Resolvers) : SameShape store (consult leaf id store).2 := by
  intro other
  rw [get?_consult]
  by_cases same : other = id
  · cases held : store.get? id <;> simp [same, held, stays]
  · simp [same]

theorem found_consult (again : ∀ resolver, (leaf (leaf resolver).2).1 = (leaf resolver).1)
    (id : ResolverId) (store : Resolvers) :
    found leaf counts (consult leaf id store).2 = found leaf counts store := by
  funext other
  unfold found
  rw [get?_consult]
  by_cases same : other = id
  · cases held : store.get? id <;> simp [same, held, again]
  · simp [same]

/-- Asking the leaves of a flat list one after the other. -/
theorem firstOf_noting (again : ∀ resolver, (leaf (leaf resolver).2).1 = (leaf resolver).1)
    (leaves : List ResolverId) (store : Resolvers) (log : List ResolverId) :
    firstOf (noting leaf) counts leaves (store, log) =
      let asked := upTo (fun id => (found leaf counts store id).isSome) leaves
      (leaves.findSome? (found leaf counts store),
        asked.foldl (fun store id => (consult leaf id store).2) store, log ++ asked) := by
  induction leaves generalizing store log with
  | nil => simp [firstOf, upTo]
  | cons id rest ih =>
    have own : (consult leaf id store).1.filter counts = found leaf counts store id := by
      unfold consult found
      cases store.get? id <;> rfl
    rw [firstOf_cons]
    cases hit : found leaf counts store id with
    | some answer => simp [sift, noting, onward, own, hit, upTo]
    | none => simp [sift, noting, onward, own, hit, upTo, ih, found_consult again]

/-- A lookup by a chain over finitely nested resolvers is flat. -/
theorem traced_chain (stays : ∀ resolver, (leaf resolver).2.members? = resolver.members?)
    (again : ∀ resolver, (leaf (leaf resolver).2).1 = (leaf resolver).1)
    {id : ResolverId} {members leaves : List ResolverId}
    (held : store.get? id = some (.composite members)) (nested : Leaves store members leaves) :
    traced leaf counts store id =
      let asked := upTo (fun id => (found leaf counts store id).isSome) leaves
      (leaves.findSome? (found leaf counts store),
        asked.foldl (fun store id => (consult leaf id store).2) store, asked) := by
  have keeps : ∀ id (state : Resolvers × List ResolverId),
      SameShape state.1 (noting leaf id state).2.1 :=
    fun id state => sameShape_consult stays id state.1
  have flat : traced leaf counts store id = firstOf (noting leaf) counts leaves (store, []) :=
    walk_chain keeps held nested
  rw [flat, firstOf_noting again]
  rfl

/-- What is left in the store once the leaves have been asked, if a leaf keeps what `keeps` says. -/
theorem get?_asked {keeps : Nat → Resolver → Resolver}
    (none_yet : ∀ resolver, keeps 0 resolver = resolver)
    (once : ∀ resolver, (leaf resolver).2 = keeps 1 resolver)
    (more : ∀ times resolver, keeps times (keeps 1 resolver) = keeps (times + 1) resolver)
    (asked : List ResolverId) (store : Resolvers) (other : ResolverId) :
    (asked.foldl (fun store id => (consult leaf id store).2) store).get? other =
      (store.get? other).map (keeps (asked.count other)) := by
  induction asked generalizing store with
  | nil =>
    have nothing : keeps 0 = id := funext none_yet
    simp [nothing]
  | cons id rest ih =>
    rw [List.foldl_cons, ih, get?_consult]
    by_cases same : other = id
    · subst same
      cases store.get? other <;> simp [once, more]
    · simp [same, List.count_cons_of_ne (Ne.symm same)]

end Leaf

/-- A lookup as one over a flat list of leaves: the answer is that of the first leaf with one, the
leaves up to this first one are asked in order, each as often as it stands there, and nobody else. -/
structure Flat (store : Resolvers) (id : ResolverId) (leaves : List ResolverId)
    (leaf : Resolver → Option β × Resolver) (counts : β → Bool) (keeps : Nat → Resolver → Resolver)
    (looked : Option β × Resolvers) : Prop where
  answer : looked.1 = leaves.findSome? (found leaf counts store)
  asked : traced leaf counts store id =
    (looked.1, looked.2, upTo (fun id => (found leaf counts store id).isSome) leaves)
  kept : ∀ other, looked.2.get? other = (store.get? other).map
    (keeps ((upTo (fun id => (found leaf counts store id).isSome) leaves).count other))

theorem search_flat {leaf : Resolver → Option β × Resolver} {counts : β → Bool}
    {keeps : Nat → Resolver → Resolver} (none_yet : ∀ resolver, keeps 0 resolver = resolver)
    (once : ∀ resolver, (leaf resolver).2 = keeps 1 resolver)
    (more : ∀ times resolver, keeps times (keeps 1 resolver) = keeps (times + 1) resolver)
    (stays : ∀ resolver, (leaf resolver).2.members? = resolver.members?)
    (again : ∀ resolver, (leaf (leaf resolver).2).1 = (leaf resolver).1)
    {id : ResolverId} {members leaves : List ResolverId}
    (held : store.get? id = some (.composite members)) (nested : Leaves store members leaves) :
    Flat store id leaves leaf counts keeps (search leaf counts store.depth id store) := by
  have flat : traced leaf counts store id = _ := traced_chain stays again held nested
  have seen := through_traced leaf counts store id
  rw [flat] at seen
  rw [← seen]
  exact ⟨rfl, flat, get?_asked none_yet once more _ store⟩

theorem leafCode_eq (around : Surroundings) (name : String) (resolver : Resolver) :
    (leafCode around name resolver).2 = resolver.remembering name 1 := by
  cases resolver with
  | relational source =>
    cases rendered : source.render name <;> simp [leafCode, Resolver.remembering, rendered]
  | _ => rfl

theorem leafCode_again (around : Surroundings) (name : String) (times : Nat)
    (resolver : Resolver) : (leafCode around name (resolver.remembering name times)).1 =
      (leafCode around name resolver).1 := by
  cases resolver with
  | relational source =>
    cases rendered : source.render name with
    | none => simp [Resolver.remembering, rendered]
    | some query =>
      have same : ∀ asked, Resolver.Relational.render { source with asked := asked } name =
          some query := fun _ => rendered
      simp [leafCode, Resolver.remembering, rendered, same]
  | _ => rfl

theorem members?_remembering (name : String) (times : Nat) (resolver : Resolver) :
    (resolver.remembering name times).members? = resolver.members? := by
  cases resolver with
  | relational source =>
    cases rendered : source.render name <;>
      simp [Resolver.remembering, rendered, Resolver.members?]
  | _ => rfl

theorem leafResource_eq (around : Surroundings) (name : String) (resolver : Resolver) :
    (leafResource around name resolver).2 = resolver := by
  cases resolver <;> rfl

theorem leafLibrary_eq (around : Surroundings) (name : String) (resolver : Resolver) :
    (leafLibrary around name resolver).2 = resolver := by
  cases resolver <;> rfl

/-- A leaf that remembers nothing makes for a flat lookup that leaves no trace. -/
theorem search_flat_of_still {leaf : Resolver → Option β × Resolver} {counts : β → Bool}
    (still : ∀ resolver, (leaf resolver).2 = resolver)
    {id : ResolverId} {members leaves : List ResolverId}
    (held : store.get? id = some (.composite members)) (nested : Leaves store members leaves) :
    Flat store id leaves leaf counts (fun _ resolver => resolver)
      (search leaf counts store.depth id store) :=
  search_flat (fun _ => rfl) still (fun _ _ => rfl) (fun resolver => by rw [still])
    (fun resolver => by rw [still]) held nested

/-- A chain over any finite nesting of chains, adapters and shared resolvers looks up as the flat
list of the leaves below it does, and a member that is removed has never been there. -/
theorem chain_lookup_flat {id : ResolverId} {members leaves : List ResolverId}
    (held : store.get? id = some (.composite members)) (nested : Leaves store members leaves)
    (around : Surroundings) (name : String) :
    Flat store id leaves (leafCode around name) (fun code => !code.isEmpty)
      (Resolver.remembering name) (store.findCode around id name) ∧
    Flat store id leaves (leafResource around name) (fun _ => true) (fun _ resolver => resolver)
      (store.findResource around id name) ∧
    Flat store id leaves (leafLibrary around name) (fun _ => true) (fun _ resolver => resolver)
      (store.findLibrary around id name) ∧
    ∀ (changes : List Change) (member : ResolverId),
      ((store.changed changes).withdraw id member).2 =
        (store.replace id (.composite (members.filter (· ≠ member)))).changed
          (changes.filter (· ≠ .push id member)) := by
  refine ⟨?code, ?resource, ?library, ?removal⟩
  case code =>
    apply search_flat _ _ _ _ _ held nested
    · exact Resolver.remembering_zero name
    · exact leafCode_eq around name
    · intro times resolver
      rw [Resolver.remembering_remembering, Nat.add_comm]
    · intro resolver
      rw [leafCode_eq, members?_remembering]
    · intro resolver
      rw [leafCode_eq, leafCode_again]
  case resource => exact search_flat_of_still (leafResource_eq around name) held nested
  case library => exact search_flat_of_still (leafLibrary_eq around name) held nested
  case removal =>
    intro changes member
    have removed : store.replace id (.composite (members.filter (· ≠ member))) =
        Change.apply store (.withdraw id member) := by
      simp [Change.apply, withdraw, held]
    rw [removed]
    exact withdraw_changed id member changes store

/-- A chain over an adapter, a shared chain and two leaves; one leaf stands in it twice, and one holds
an empty placeholder. -/
def nest : Resolvers where
  all := [.relational ⟨"SELECT ?", fun _ => none, []⟩, .memory (Table.ofList [("Echo", [])]),
    .composite [0, 1], .adapter (some 1), .shared 2, .memory (Table.ofList [("Echo", [7])]),
    .composite [3, 4, 7, 5, 0], .adapter none]

theorem leaves_nest : Leaves nest [3, 4, 7, 5, 0] [1, 0, 1, 5, 0] :=
  have inner : Leaves nest [0, 1] [0, 1] := .leaf rfl rfl (.leaf rfl rfl .nil)
  .nest rfl rfl (.leaf rfl rfl .nil)
    (.nest rfl rfl (.nest rfl rfl inner .nil)
      (.nest rfl rfl .nil (.leaf rfl rfl (.leaf rfl rfl .nil))))

theorem chain_lookup_flat_nest :
    let around : Surroundings := ⟨⟨.directory [], []⟩, fun _ _ => none⟩
    nest.get? 6 = some (.composite [3, 4, 7, 5, 0]) ∧
      Leaves nest [3, 4, 7, 5, 0] [1, 0, 1, 5, 0] ∧
      Flat nest 6 [1, 0, 1, 5, 0] (leafCode around "Echo") (fun code => !code.isEmpty)
        (Resolver.remembering "Echo") (nest.findCode around 6 "Echo") ∧
      (traced (leafCode around "Echo") (fun code => !code.isEmpty) nest 6).2.2 = [1, 0, 1, 5] ∧
      (nest.findCode around 6 "Echo").1 = some [7] :=
  ⟨rfl, leaves_nest, (chain_lookup_flat rfl leaves_nest _ "Echo").1, by decide +kernel,
    by decide +kernel⟩

end Resolvers

end ServiceHost
