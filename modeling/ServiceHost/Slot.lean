import ServiceHost.Failure

/-! A place that is filled at most once. -/

set_option autoImplicit false

namespace ServiceHost

/-- What was installed, if anything was. -/
structure Slot (α : Type) where
  held : Option α

namespace Slot

variable {α : Type}

def empty : Slot α := ⟨none⟩

/-- Fills the place. What was installed first stays. -/
def install (slot : Slot α) (candidate : α) : Except HostError Unit × Slot α :=
  match slot.held with
  | none => (.ok (), ⟨some candidate⟩)
  | some _ => (.error .singletonViolation, slot)

end Slot

end ServiceHost
