import ServiceHost.Resolver.Store

/-! Chains that change: what pushes and removals leave of the members, in any order. -/

set_option autoImplicit false

namespace ServiceHost

namespace Resolvers

theorem get?_replace (store : Resolvers) (id other : ResolverId) (resolver : Resolver) :
    (store.replace id resolver).get? other =
      if other = id then (store.get? id).map fun _ => resolver else store.get? other := by
  unfold replace get?
  by_cases same : other = id
  · subst same
    by_cases known : other < store.all.length
    · simp [known]
    · simp [known]
  · simp [same, List.getElem?_set_ne (Ne.symm same)]

/-- A change of a chain in the store. -/
inductive Change where
  | push (chain member : ResolverId)
  | withdraw (chain member : ResolverId)
  deriving DecidableEq

def Change.apply (store : Resolvers) : Change → Resolvers
  | .push chain member => store.push chain member
  | .withdraw chain member => (store.withdraw chain member).2

def changed (store : Resolvers) (changes : List Change) : Resolvers :=
  changes.foldl Change.apply store

/-- The members of a resolver after the change, if it is a chain. -/
def Change.members (id : ResolverId) (members : List ResolverId) : Change → List ResolverId
  | .push chain member => if id = chain then members ++ [member] else members
  | .withdraw chain member => if id = chain then members.filter (· ≠ member) else members

def Resolver.withMembers (change : List ResolverId → List ResolverId) : Resolver → Resolver
  | .composite members => .composite (change members)
  | other => other

theorem Resolver.withMembers_withMembers (first next : List ResolverId → List ResolverId)
    (resolver : Resolver) : Resolver.withMembers next (Resolver.withMembers first resolver) =
      Resolver.withMembers (fun members => next (first members)) resolver := by
  cases resolver <;> rfl

theorem Resolver.withMembers_self (resolver : Resolver) :
    Resolver.withMembers (fun members => members) resolver = resolver := by
  cases resolver <;> rfl

theorem get?_apply (change : Change) (store : Resolvers) (id : ResolverId) :
    (change.apply store).get? id =
      (store.get? id).map (Resolver.withMembers fun members => change.members id members) := by
  cases change with
  | push chain member =>
    by_cases same : id = chain
    · subst same
      cases held : store.get? id with
      | none => simp [Change.apply, push, held]
      | some resolver =>
        cases resolver <;>
          simp [Change.apply, push, held, get?_replace, Change.members, Resolver.withMembers]
    · have plain : (store.push chain member).get? id = store.get? id := by
        unfold push
        split <;> simp [get?_replace, same]
      cases held : store.get? id <;>
        simp [Change.apply, plain, held, Change.members, same, Resolver.withMembers_self]
  | withdraw chain member =>
    by_cases same : id = chain
    · subst same
      cases held : store.get? id with
      | none => simp [Change.apply, withdraw, held]
      | some resolver =>
        cases resolver <;>
          simp [Change.apply, withdraw, held, get?_replace, Change.members, Resolver.withMembers]
    · have plain : (store.withdraw chain member).2.get? id = store.get? id := by
        unfold withdraw
        split <;> simp [get?_replace, same]
      cases held : store.get? id <;>
        simp [Change.apply, plain, held, Change.members, same, Resolver.withMembers_self]

theorem ext_get? {first second : Resolvers} (h : ∀ id, first.get? id = second.get? id) :
    first = second := by
  obtain ⟨all⟩ := first
  obtain ⟨others⟩ := second
  exact congrArg _ (List.ext_getElem? h)

/-- A change other than a push of the member may as well come after its removal. -/
theorem withdraw_apply {chain member : ResolverId} {change : Change}
    (apart : change ≠ .push chain member) (store : Resolvers) :
    Change.apply (change.apply store) (.withdraw chain member) =
      change.apply (Change.apply store (.withdraw chain member)) := by
  apply ext_get?
  intro id
  simp only [get?_apply, Option.map_map]
  congr 1
  funext resolver
  simp only [Function.comp_apply, Resolver.withMembers_withMembers]
  congr 1
  funext members
  cases change with
  | push other pushed =>
    by_cases here : id = chain
    · by_cases there : id = other
      · subst here there
        have kept : pushed ≠ member := fun same => apart (by rw [same])
        simp [Change.members, List.filter_append, kept]
      · simp only [Change.members, if_neg there]
    · simp only [Change.members, if_neg here]
  | withdraw other gone =>
    simp only [Change.members]
    split <;> split <;> simp [List.filter_filter, Bool.and_comm]

theorem withdraw_push (chain member : ResolverId) (store : Resolvers) :
    Change.apply (Change.apply store (.push chain member)) (.withdraw chain member) =
      Change.apply store (.withdraw chain member) := by
  apply ext_get?
  intro id
  simp only [get?_apply, Option.map_map]
  congr 1
  funext resolver
  simp only [Function.comp_apply, Resolver.withMembers_withMembers]
  congr 1
  funext members
  by_cases here : id = chain <;> simp [Change.members, here, List.filter_append]

/-- What is removed at last has never been pushed. -/
theorem withdraw_changed (chain member : ResolverId) (changes : List Change) (store : Resolvers) :
    Change.apply (store.changed changes) (.withdraw chain member) =
      (Change.apply store (.withdraw chain member)).changed
        (changes.filter (· ≠ .push chain member)) := by
  induction changes generalizing store with
  | nil => rfl
  | cons change rest ih =>
    have step : store.changed (change :: rest) = (change.apply store).changed rest := rfl
    rw [step, ih]
    by_cases pushed : change = .push chain member
    · simp [pushed, withdraw_push]
    · simp [pushed, changed, withdraw_apply pushed]

end Resolvers

end ServiceHost
