import ServiceHost.Directive.Line

/-! Start-up arguments: `@path` names a script, `TEST` asks for the self-test, and anything else
that is not blank is one directive line. -/

set_option autoImplicit false

namespace ServiceHost

inductive Argument where
  | script (path : String)
  | selfTest
  | directive (directive : Directive)
  deriving DecidableEq

def Argument.read? (text : String) : Option Argument :=
  match Text.trim text.toList with
  | '@' :: path => some (.script (String.ofList path))
  | trimmed =>
    if trimmed = "TEST".toList then some .selfTest
    else (Directive.ofLine trimmed).map .directive

end ServiceHost
