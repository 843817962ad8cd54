import ServiceHost.Table
import ServiceHost.Text.Quoted
import ServiceHost.Text.Utf8

/-! Named constructors, the only way from a name to a live object. -/

set_option autoImplicit false

namespace ServiceHost

/-- Builds an object from code, or says why it cannot. -/
abbrev Factory (α : Type) := Blob → Except String α

inductive InstantiateError where
  | notRegistered (name : String)
  | failed (name reason : String)
  deriving DecidableEq, Repr

def InstantiateError.message : InstantiateError → String
  | notRegistered name => s!"no factory registered for '{name}'"
  | failed name reason => s!"factory for '{name}' failed: {reason}"

def InstantiateError.kind : InstantiateError → String
  | notRegistered _ => "NotRegistered"
  | failed .. => "Failed"

/-- Factories by name, in the order of their registration. -/
abbrev FactoryTable (α : Type) := Table (Factory α)

namespace FactoryTable

variable {α : Type}

def instantiate (table : FactoryTable α) (name : String) (code : Blob) :
    Except InstantiateError α :=
  match table.get? name with
  | none => .error (.notRegistered name)
  | some factory =>
    match factory code with
    | .ok value => .ok value
    | .error reason => .error (.failed name reason)

def report (table : FactoryTable α) : String :=
  "FactoryTable \x7b names: " ++ Text.reportList table.keys ++ " \x7d"

end FactoryTable

end ServiceHost
