/-! Values of a TOML document. -/

set_option autoImplicit false

namespace ServiceHost.Toml

/-- Floats and moments keep their text: no setting of the host has either. -/
inductive Value where
  | string (text : String)
  | integer (value : Int)
  | float (text : String)
  | boolean (value : Bool)
  | moment (text : String)
  | array (items : List Value)
  | table (entries : List (String × Value))
  deriving Repr, Inhabited

namespace Value

def string? : Value → Option String
  | string text => some text
  | _ => none

/-- A natural number of 64 bits. -/
def nat64? : Value → Option Nat
  | integer value => if 0 ≤ value ∧ value < 0x10000000000000000 then some value.toNat else none
  | _ => none

def array? : Value → Option (List Value)
  | array items => some items
  | _ => none

def table? : Value → Option (List (String × Value))
  | table entries => some entries
  | _ => none

end Value

/-- What is left after something was read from the front of a text. -/
abbrev Reader (α : Type) := List Char → Option (α × List Char)

end ServiceHost.Toml
