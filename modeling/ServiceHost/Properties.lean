import ServiceHost.Table
import ServiceHost.Text.Quoted

/-! The flat configuration handed to a service: text under text keys, in insertion order. -/

set_option autoImplicit false

namespace ServiceHost

abbrev Properties := Table String

namespace Properties

/-- The compact JSON object with the entries in order. -/
def json (properties : Properties) : String :=
  let members := properties.entries.map fun (key, value) =>
    Text.jsonString key ++ ":" ++ Text.jsonString value
  "\x7b" ++ String.intercalate "," members ++ "\x7d"

end Properties

end ServiceHost
