import Mathlib.Data.List.Basic
import ServiceHost.Resolver.Description

/-! The leaves of a description, and what keeps one from being built.

A description nests chains to any depth. Its leaves, depth first and in declared order, are all
that can stop it from being built, and the first that does decides the error. -/

set_option autoImplicit false

namespace ServiceHost.Resolver

namespace Description

/-- Induction on the nesting: a chain comes after each of its members. -/
@[elab_as_elim]
theorem nesting {motive : Description → Prop}
    (inMemory : ∀ entries, motive (.inMemory entries))
    (fileSystem : ∀ root, motive (.fileSystem root))
    (network : ∀ address seconds, motive (.network address seconds))
    (composite : ∀ members, (∀ member ∈ members, motive member) → motive (.composite members))
    (description : Description) : motive description :=
  @Description.rec motive (fun members => ∀ member ∈ members, motive member)
    inMemory fileSystem network composite (by simp)
    (fun _ _ first rest => List.forall_mem_cons.mpr ⟨first, rest⟩) description

mutual

/-- What a description is made of besides chains, depth first and in declared order. -/
def leaves : Description → List Description
  | .composite members => leavesAll members
  | leaf => [leaf]

def leavesAll : List Description → List Description
  | [] => []
  | first :: rest => first.leaves ++ leavesAll rest

end

/-- What keeps a leaf from being built. Of a leaf over the network, the address comes before the
timeout. -/
inductive Offends (files : Files) : Description → BuildError → Prop where
  | root {root : String} : files.isDirectory root = false →
      Offends files (.fileSystem root) (.invalidRoot root)
  | address {address : String} {seconds : Option Nat} :
      (∀ c ∈ address.toList, Text.isBlank c = true) →
      Offends files (.network address seconds) .emptyAddress
  | timeout {address : String} : (∃ c ∈ address.toList, Text.isBlank c = false) →
      Offends files (.network address (some 0)) .zeroTimeout

/-- The first leaf of a row that cannot be built, by what keeps it from being built. -/
def FirstFault (files : Files) (leaves : List Description) (cause : BuildError) : Prop :=
  ∃ front leaf back, leaves = front ++ leaf :: back ∧
    (∀ sound ∈ front, ∀ other, ¬ Offends files sound other) ∧ Offends files leaf cause

/-- Every file-system root is a directory, and every leaf over the network has an address that is
not blank and no timeout of zero. -/
structure Valid (files : Files) (description : Description) : Prop where
  roots : ∀ root, .fileSystem root ∈ description.leaves → files.isDirectory root = true
  addresses : ∀ address seconds, .network address seconds ∈ description.leaves →
    ∃ c ∈ address.toList, Text.isBlank c = false
  timeouts : ∀ address seconds, .network address seconds ∈ description.leaves → seconds ≠ some 0

variable {files : Files}

/-- What keeps a leaf from being built, if anything does. -/
def fault? (files : Files) : Description → Option BuildError
  | .fileSystem root => if files.isDirectory root then none else some (.invalidRoot root)
  | .network address seconds =>
    if address.toList.all Text.isBlank then some .emptyAddress
    else if seconds = some 0 then some .zeroTimeout
    else none
  | _ => none

theorem fault?_eq_some_iff {leaf : Description} {cause : BuildError} :
    fault? files leaf = some cause ↔ Offends files leaf cause := by
  constructor
  · intro found
    cases leaf with
    | fileSystem root =>
      simp only [fault?, Option.ite_none_left_eq_some, Bool.not_eq_true] at found
      obtain ⟨missing, same⟩ := found
      cases same
      exact .root missing
    | network address seconds =>
      simp only [fault?] at found
      split at found
      case _ blank =>
        cases found
        exact .address (List.all_eq_true.mp blank)
      case _ solid =>
        simp only [Option.ite_none_right_eq_some] at found
        obtain ⟨rfl, same⟩ := found
        cases same
        exact .timeout (by simpa using solid)
    | _ => cases found
  · intro offends
    cases offends with
    | root missing => simp [fault?, missing]
    | address blank => simp [fault?, List.all_eq_true.mpr blank]
    | @timeout address solid =>
      have mixed : address.toList.all Text.isBlank = false :=
        List.all_eq_false.mpr (by simpa using solid)
      simp [fault?, mixed]

theorem fault?_eq_none_iff {leaf : Description} :
    fault? files leaf = none ↔ ∀ cause, ¬ Offends files leaf cause := by
  simp only [Option.eq_none_iff_forall_ne_some, ne_eq, fault?_eq_some_iff]

theorem firstFault_iff {leaves : List Description} {cause : BuildError} :
    FirstFault files leaves cause ↔ leaves.findSome? (fault? files) = some cause := by
  rw [List.findSome?_eq_some_iff]
  simp only [FirstFault, fault?_eq_some_iff, fault?_eq_none_iff]
  constructor
  · rintro ⟨front, leaf, back, split, sound, offends⟩
    exact ⟨front, leaf, back, split, offends, sound⟩
  · rintro ⟨front, leaf, back, split, offends, sound⟩
    exact ⟨front, leaf, back, split, sound, offends⟩

/-- A description is valid if and only if no leaf stops it. -/
theorem valid_iff {description : Description} :
    Valid files description ↔ description.leaves.findSome? (fault? files) = none := by
  simp only [List.findSome?_eq_none_iff, fault?_eq_none_iff]
  constructor
  · intro valid leaf member cause offends
    cases offends with
    | root missing => simp [valid.roots _ member] at missing
    | address blank =>
      obtain ⟨c, inside, solid⟩ := valid.addresses _ _ member
      simp [blank c inside] at solid
    | timeout => exact valid.timeouts _ _ member rfl
  · intro sound
    have addresses : ∀ address seconds, .network address seconds ∈ description.leaves →
        ∃ c ∈ address.toList, Text.isBlank c = false := by
      intro address seconds member
      by_contra blank
      exact sound _ member _ (.address (by simpa using blank))
    refine ⟨?_, addresses, ?_⟩
    · intro root member
      by_contra missing
      exact sound _ member _ (.root (by simpa using missing))
    · rintro address _ member rfl
      exact sound _ member _ (.timeout (addresses _ _ member))

end Description

end ServiceHost.Resolver
