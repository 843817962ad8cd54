import Mathlib.Algebra.Order.BigOperators.Group.List
import Mathlib.Algebra.Order.Ring.Nat

/-! Lists of which one entry changes, or comes at the end. -/

set_option autoImplicit false

namespace ServiceHost

variable {α : Type} {items : List α} {place : Nat} {item : α} {change : α → α}

theorem modify_congr (other : α → α) (here : items[place]? = some item)
    (same : change item = other item) : items.modify place change = items.modify place other := by
  refine List.ext_getElem? fun index => ?_
  rw [List.getElem?_modify, List.getElem?_modify]
  by_cases own : place = index
  · subst own
    simp [here, same]
  · simp [own]

theorem getElem?_concat_cases {last : α} (found : (items ++ [last])[place]? = some item) :
    items[place]? = some item ∨ place = items.length ∧ item = last := by
  rw [List.getElem?_append] at found
  split at found
  · exact .inl found
  · obtain ⟨bound, same⟩ := List.getElem?_eq_some_iff.mp found
    simp only [List.length_singleton] at bound
    exact .inr ⟨by omega, by simpa using same.symm⟩

/-- The weight of a list changes by what the weight of the entry does. -/
theorem sum_modify_add (weight : α → Nat) (here : items[place]? = some item) :
    ((items.modify place change).map weight).sum + weight item =
      (items.map weight).sum + weight (change item) := by
  induction items generalizing place with
  | nil => cases here
  | cons first rest ih =>
    cases place with
    | zero =>
      cases here
      simp only [List.modify_zero_cons, List.map_cons, List.sum_cons]
      omega
    | succ place =>
      have rest_eq := ih here
      simp only [List.modify_succ_cons, List.map_cons, List.sum_cons]
      omega

theorem sum_modify_le {weight : α → Nat} {bound : Nat} (light : ∀ item, weight item ≤ bound) :
    ((items.modify place change).map weight).sum ≤ (items.map weight).sum + bound := by
  cases here : items[place]? with
  | none => simp [List.modify_eq_self (List.getElem?_eq_none_iff.mp here)]
  | some item =>
    have sums := @sum_modify_add _ _ _ _ change weight here
    have := light (change item)
    omega

theorem sum_modify_lt {weight : α → Nat} (here : items[place]? = some item)
    (less : weight (change item) < weight item) :
    ((items.modify place change).map weight).sum < (items.map weight).sum := by
  have sums := @sum_modify_add _ _ _ _ change weight here
  omega

end ServiceHost
