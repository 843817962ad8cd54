import Mathlib.Data.List.Perm.Subperm
import ServiceHost.Resolver.Store

/-! Nested resolvers, and the walk of a lookup through them.

A lookup through chains and adapters consults the leaves below them, in order. The walk is
told apart here from what is done at a leaf, so that what holds of the walk holds whatever
a leaf does: answer only, remember the query, or write down that it was asked. -/

set_option autoImplicit false

namespace ServiceHost

/-- What a resolver looks through, unless it is a leaf. -/
def Resolver.members? : Resolver → Option (List ResolverId)
  | .composite members => some members
  | .adapter delegate => some delegate.toList
  | .shared inner => some [inner]
  | _ => none

namespace Resolvers

/-- The leaves below a row of resolvers, depth first and in declared order. There are such leaves
only if the nesting is finite and leads to resolvers of the store alone. -/
inductive Leaves (store : Resolvers) : List ResolverId → List ResolverId → Prop where
  | nil : Leaves store [] []
  | leaf {id : ResolverId} {resolver : Resolver} {rest leaves : List ResolverId} :
      store.get? id = some resolver → resolver.members? = none →
      Leaves store rest leaves → Leaves store (id :: rest) (id :: leaves)
  | nest {id : ResolverId} {resolver : Resolver} {rest members own leaves : List ResolverId} :
      store.get? id = some resolver → resolver.members? = some members →
      Leaves store members own → Leaves store rest leaves →
      Leaves store (id :: rest) (own ++ leaves)

/-- Nothing below a resolver is nested deeper than a number of levels, its own among them. -/
def Within (store : Resolvers) : Nat → ResolverId → Prop
  | 0, _ => False
  | depth + 1, id => ∃ resolver, store.get? id = some resolver ∧
      ∀ members, resolver.members? = some members → ∀ inner ∈ members, Within store depth inner

variable {store : Resolvers}

theorem Within.succ {depth : Nat} {id : ResolverId} (h : Within store depth id) :
    Within store (depth + 1) id := by
  induction depth generalizing id with
  | zero => exact h.elim
  | succ depth ih =>
    obtain ⟨resolver, held, deeper⟩ := h
    exact ⟨resolver, held, fun members some inner member => ih (deeper members some inner member)⟩

theorem Within.mono {depth larger : Nat} {id : ResolverId} (h : Within store depth id)
    (le : depth ≤ larger) : Within store larger id := by
  induction le with
  | refl => exact h
  | step _ ih => exact ih.succ

theorem Leaves.within {ids leaves : List ResolverId} (h : Leaves store ids leaves) :
    ∃ depth, ∀ id ∈ ids, Within store depth id := by
  induction h with
  | nil => exact ⟨0, by simp⟩
  | leaf held own _ ih =>
    obtain ⟨depth, rest⟩ := ih
    refine ⟨depth + 1, List.forall_mem_cons.mpr ⟨⟨_, held, by simp [own]⟩, ?_⟩⟩
    exact fun id member => (rest id member).succ
  | nest held own _ _ inside ih =>
    obtain ⟨inner, inside⟩ := inside
    obtain ⟨depth, rest⟩ := ih
    refine ⟨max inner depth + 1, List.forall_mem_cons.mpr ⟨⟨_, held, ?_⟩, ?_⟩⟩
    · intro members same id member
      cases own.symm.trans same
      exact (inside id member).mono (Nat.le_max_left ..)
    · exact fun id member => (rest id member).mono (by omega)

/-- A resolver that is nested to a depth and no less has as many resolvers, itself among them, one
below the other. -/
theorem exists_tower {depth : Nat} {id : ResolverId} (deep : Within store (depth + 1) id)
    (tight : ¬ Within store depth id) :
    ∃ ids : List ResolverId, ids.length = depth + 1 ∧ ids.Nodup ∧
      ∀ other ∈ ids, other < store.all.length ∧ Within store (depth + 1) other := by
  obtain ⟨resolver, held, deeper⟩ := deep
  have known : id < store.all.length := (List.getElem?_eq_some_iff.mp held).1
  induction depth generalizing id resolver with
  | zero =>
    refine ⟨[id], rfl, by simp, ?_⟩
    simpa using ⟨known, resolver, held, deeper⟩
  | succ depth ih =>
    -- One of those inside reaches as deep, and is a tower of its own.
    obtain ⟨members, own, inner, member, tall⟩ : ∃ members, resolver.members? = some members ∧
        ∃ inner ∈ members, ¬ Within store depth inner := by
      by_contra shallow
      push Not at shallow
      exact tight ⟨resolver, held, shallow⟩
    obtain ⟨below, innerHeld, innerDeeper⟩ := deeper members own inner member
    obtain ⟨ids, length, nodup, all⟩ := ih tall below innerHeld innerDeeper
      (List.getElem?_eq_some_iff.mp innerHeld).1
    refine ⟨id :: ids, by simp [length], ?_, ?_⟩
    · exact List.nodup_cons.mpr ⟨fun again => tight (all id again).2, nodup⟩
    · refine List.forall_mem_cons.mpr ⟨⟨known, resolver, held, deeper⟩, ?_⟩
      exact fun other member => ⟨(all other member).1, (all other member).2.succ⟩

/-- Finite nesting is no deeper than there are resolvers. -/
theorem Within.of_finite {depth : Nat} {id : ResolverId} (h : Within store depth id) :
    Within store store.all.length id := by
  induction depth with
  | zero => exact h.elim
  | succ depth ih =>
    by_cases less : Within store depth id
    · exact ih less
    · obtain ⟨ids, length, nodup, all⟩ := exists_tower h less
      have inside : ids ⊆ List.range store.all.length :=
        fun other member => List.mem_range.mpr (all other member).1
      have few := (List.subperm_of_subset nodup inside).length_le
      rw [List.length_range] at few
      exact h.mono (by omega)

/-- Two stores in which every resolver looks through the same others. -/
def SameShape (store other : Resolvers) : Prop :=
  ∀ id, (store.get? id).map Resolver.members? = (other.get? id).map Resolver.members?

theorem SameShape.trans {first second third : Resolvers} (h : SameShape first second)
    (next : SameShape second third) : SameShape first third :=
  fun id => (h id).trans (next id)

theorem SameShape.exists_held {other : Resolvers} (same : SameShape store other) {id : ResolverId}
    {resolver : Resolver} (held : store.get? id = some resolver) :
    ∃ now, other.get? id = some now ∧ now.members? = resolver.members? := by
  have shape := same id
  rw [held, Option.map_some] at shape
  exact Option.map_eq_some_iff.mp shape.symm

section Walk

variable {σ τ β : Type} {counts : β → Bool}

/-- An answer that does not count is none. -/
def sift (counts : β → Bool) (asked : Option β × σ) : Option β × σ :=
  (asked.1.filter counts, asked.2)

/-- Goes on where there is no answer yet. -/
def onward (asked : Option β × σ) (next : σ → Option β × σ) : Option β × σ :=
  match asked.1 with
  | some answer => (some answer, asked.2)
  | none => next asked.2

/-- The first answer that counts of the resolvers, asked in order, over any state. -/
def firstOf (ask : ResolverId → σ → Option β × σ) (counts : β → Bool) :
    List ResolverId → σ → Option β × σ
  | [], s => (none, s)
  | id :: rest, s => onward (sift counts (ask id s)) (firstOf ask counts rest)

/-- The walk of a lookup: `view` shows the resolvers, and `consult` is what happens at a leaf. -/
def walk (view : σ → Resolvers) (consult : ResolverId → σ → Option β × σ) (counts : β → Bool) :
    Nat → ResolverId → σ → Option β × σ
  | 0, _, s => (none, s)
  | depth + 1, id, s =>
    match (view s).get? id with
    | none => (none, s)
    | some (.composite members) => firstOf (walk view consult counts depth) counts members s
    | some (.adapter none) => (none, s)
    | some (.adapter (some inner)) => walk view consult counts depth inner s
    | some (.shared inner) => walk view consult counts depth inner s
    | some _ => consult id s

/-- Asks one leaf, which may remember it. -/
def consult (leaf : Resolver → Option β × Resolver) (id : ResolverId) (store : Resolvers) :
    Option β × Resolvers :=
  match store.get? id with
  | none => (none, store)
  | some resolver => ((leaf resolver).1, store.replace id (leaf resolver).2)

theorem firstAnswer_eq (ask : ResolverId → Resolvers → Option β × Resolvers) (counts : β → Bool)
    (ids : List ResolverId) (store : Resolvers) :
    firstAnswer ask counts ids store = firstOf ask counts ids store := by
  induction ids generalizing store with
  | nil => rfl
  | cons id rest ih =>
    unfold firstAnswer firstOf
    rcases asked : ask id store with ⟨_ | answer, after⟩
    · exact ih after
    · cases good : counts answer with
      | true => simp [sift, onward, Option.filter_some, good]
      | false => simp [sift, onward, Option.filter_some, good, ih]

/-- A lookup is the walk that asks at the leaves. -/
theorem search_eq_walk (leaf : Resolver → Option β × Resolver) (counts : β → Bool) (depth : Nat)
    (id : ResolverId) (store : Resolvers) :
    search leaf counts depth id store = walk (fun s => s) (consult leaf) counts depth id store := by
  induction depth generalizing id store with
  | zero => rfl
  | succ depth ih =>
    have same : search leaf counts depth = walk (fun s => s) (consult leaf) counts depth :=
      funext fun id => funext fun store => ih id store
    unfold search walk
    rw [same]
    cases held : store.get? id with
    | none => rfl
    | some resolver =>
      cases resolver with
      | composite members => exact firstAnswer_eq _ _ _ _
      | adapter delegate => cases delegate <;> rfl
      | _ => simp [consult, held]

theorem firstOf_cons (ask : ResolverId → σ → Option β × σ) (id : ResolverId)
    (rest : List ResolverId) (s : σ) : firstOf ask counts (id :: rest) s =
      onward (sift counts (ask id s)) (firstOf ask counts rest) := rfl

theorem onward_assoc (asked : Option β × σ) (next last : σ → Option β × σ) :
    onward (onward asked next) last = onward asked fun s => onward (next s) last := by
  rcases asked with ⟨_ | answer, s⟩ <;> rfl

theorem firstOf_append (ask : ResolverId → σ → Option β × σ) (front back : List ResolverId)
    (s : σ) : firstOf ask counts (front ++ back) s =
      onward (firstOf ask counts front s) (firstOf ask counts back) := by
  induction front generalizing s with
  | nil => rfl
  | cons id rest ih =>
    simp only [List.cons_append, firstOf, onward_assoc]
    congr 1
    funext s
    exact ih s

theorem firstOf_singleton (ask : ResolverId → σ → Option β × σ) (id : ResolverId) (s : σ) :
    firstOf ask counts [id] s = sift counts (ask id s) := by
  rcases asked : sift counts (ask id s) with ⟨_ | answer, after⟩ <;> simp [firstOf, asked, onward]

theorem sift_sift (asked : Option β × σ) : sift counts (sift counts asked) = sift counts asked := by
  simp [sift, Option.filter_filter]

theorem sift_firstOf (ask : ResolverId → σ → Option β × σ) (ids : List ResolverId) (s : σ) :
    sift counts (firstOf ask counts ids s) = firstOf ask counts ids s := by
  induction ids generalizing s with
  | nil => rfl
  | cons id rest ih =>
    have once : sift counts (sift counts (ask id s)) = sift counts (ask id s) := sift_sift _
    rw [firstOf_cons]
    rcases asked : sift counts (ask id s) with ⟨_ | answer, after⟩
    · exact ih after
    · rw [asked] at once
      exact once

section Flat

variable {view : σ → Resolvers} {consult : ResolverId → σ → Option β × σ}

theorem walk_of_leaf {depth : Nat} {id : ResolverId} {s : σ} {resolver : Resolver}
    (held : (view s).get? id = some resolver) (own : resolver.members? = none) :
    walk view consult counts (depth + 1) id s = consult id s := by
  cases resolver <;> simp_all [walk, Resolver.members?]

/-- Whatever looks through others finds, as far as it counts, what these find in order. -/
theorem sift_walk {depth : Nat} {id : ResolverId} {s : σ} {resolver : Resolver}
    {members : List ResolverId} (held : (view s).get? id = some resolver)
    (own : resolver.members? = some members) :
    sift counts (walk view consult counts (depth + 1) id s) =
      firstOf (walk view consult counts depth) counts members s := by
  cases resolver with
  | composite all =>
    cases own
    simp only [walk, held]
    exact sift_firstOf _ _ _
  | adapter delegate =>
    cases own
    cases delegate with
    | none => simp [walk, held, sift, firstOf]
    | some inner => simp [walk, held, firstOf_singleton]
  | shared inner =>
    cases own
    simp [walk, held, firstOf_singleton]
  | _ => cases own

variable (keeps : ∀ id s, SameShape (view s) (view (consult id s).2))
include keeps

theorem sameShape_firstOf (ids : List ResolverId) (s : σ) :
    SameShape (view s) (view (firstOf consult counts ids s).2) := by
  induction ids generalizing s with
  | nil => exact fun _ => rfl
  | cons id rest ih =>
    have first := keeps id s
    rw [firstOf_cons]
    rcases asked : consult id s with ⟨answer, after⟩
    rw [asked] at first
    unfold sift onward
    cases answer.filter counts with
    | some answer => exact first
    | none => exact first.trans (ih after)

/-- The walk through a row of finitely nested resolvers asks the leaves below them in order, and
does nothing else. The induction is on the nesting; the leaves already asked have changed the state,
but not what any resolver looks through. -/
theorem firstOf_walk {ids leaves : List ResolverId} (nested : Leaves store ids leaves)
    {depth : Nat} (within : ∀ id ∈ ids, Within store depth id) {s : σ}
    (same : SameShape store (view s)) :
    firstOf (walk view consult counts depth) counts ids s = firstOf consult counts leaves s := by
  induction nested generalizing depth s with
  | nil => rfl
  | @leaf id resolver rest leaves held own _ ih =>
    obtain ⟨first, within⟩ := List.forall_mem_cons.mp within
    obtain ⟨now, held, shape⟩ := same.exists_held held
    cases depth with
    | zero => exact first.elim
    | succ depth =>
      have next := keeps id s
      rw [firstOf_cons, firstOf_cons, walk_of_leaf held (shape.trans own)]
      rcases asked : consult id s with ⟨answer, after⟩
      rw [asked] at next
      unfold sift onward
      cases answer.filter counts with
      | some answer => rfl
      | none => exact ih within (same.trans next)
  | @nest id resolver rest members own leaves held looks _ _ inside ih =>
    obtain ⟨first, within⟩ := List.forall_mem_cons.mp within
    cases depth with
    | zero => exact first.elim
    | succ depth =>
      obtain ⟨found, foundHeld, deeper⟩ := first
      cases held.symm.trans foundHeld
      obtain ⟨now, held, shape⟩ := same.exists_held held
      have next : SameShape (view s) (view (firstOf consult counts own s).2) :=
        sameShape_firstOf keeps own s
      rw [firstOf_append, firstOf_cons]
      rw [sift_walk held (shape.trans looks), inside (deeper members looks) same]
      rcases asked : firstOf consult counts own s with ⟨_ | answer, after⟩
      · rw [asked] at next
        exact ih within (same.trans next)
      · rfl

/-- A lookup by a chain is the lookup over the flat list of the leaves below it. -/
theorem walk_chain {id : ResolverId} {members leaves : List ResolverId} {s : σ}
    (held : (view s).get? id = some (.composite members))
    (nested : Leaves (view s) members leaves) :
    walk view consult counts (view s).depth id s = firstOf consult counts leaves s := by
  have within : ∀ id ∈ members, Within (view s) (view s).all.length id := by
    obtain ⟨depth, all⟩ := nested.within
    exact fun id member => (all id member).of_finite
  have flat : firstOf (walk view consult counts (view s).all.length) counts members s =
      firstOf consult counts leaves s := firstOf_walk keeps nested within fun _ => rfl
  rw [← flat, depth]
  simp only [walk, held]

end Flat

/-- What was asked, seen through a part of the state. -/
def through (part : τ → σ) (asked : Option β × τ) : Option β × σ := (asked.1, part asked.2)

section Through

variable {part : τ → σ} {ask : ResolverId → σ → Option β × σ}
  {askAll : ResolverId → τ → Option β × τ}

theorem through_firstOf (same : ∀ id t, through part (askAll id t) = ask id (part t))
    (ids : List ResolverId) (t : τ) :
    through part (firstOf askAll counts ids t) = firstOf ask counts ids (part t) := by
  induction ids generalizing t with
  | nil => rfl
  | cons id rest ih =>
    rw [firstOf_cons, firstOf_cons, ← same id t]
    rcases askAll id t with ⟨answer, after⟩
    unfold sift onward through
    cases answer.filter counts with
    | some answer => rfl
    | none => exact ih after

/-- A walk over a larger state is the walk over its part, if this is so at each leaf. -/
theorem through_walk (view : σ → Resolvers)
    (same : ∀ id t, through part (askAll id t) = ask id (part t)) (depth : Nat) (id : ResolverId)
    (t : τ) : through part (walk (fun t => view (part t)) askAll counts depth id t) =
      walk view ask counts depth id (part t) := by
  induction depth generalizing id t with
  | zero => rfl
  | succ depth ih =>
    unfold walk
    cases held : (view (part t)).get? id with
    | none => rfl
    | some resolver =>
      cases resolver with
      | composite members => exact through_firstOf (fun id t => ih id t) members t
      | adapter delegate =>
        cases delegate with
        | none => rfl
        | some inner => exact ih inner t
      | shared inner => exact ih inner t
      | _ => exact same id t

end Through

end Walk

end Resolvers

end ServiceHost
