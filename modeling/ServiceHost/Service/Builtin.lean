import ServiceHost.Lifecycle.Program
import ServiceHost.Text.Blank

/-! The run loops that the host brings along. -/

set_option autoImplicit false

namespace ServiceHost.Builtin

def testService : String := "TestService"

def heartbeat : String := "Heartbeat"

/-- Idles until it is stopped, in ticks of half a second. -/
def idling : RunLoop := fun _ => ⟨[], [.gate false, .rest 500], false⟩

def defaultInterval : Nat := 1000

/-- Reads a number of 64 bits. A plus sign may stand before the digits. -/
def natural64? (text : List Char) : Option Nat :=
  let digits := match text with
    | '+' :: rest => rest
    | _ => text
  if digits.isEmpty || !digits.all Char.isDigit then none
  else
    let value := digits.foldl (fun value digit => 10 * value + (digit.toNat - '0'.toNat)) 0
    if value < 0x10000000000000000 then some value else none

/-- The milliseconds between two beats. A setting that is missing, unreadable or zero gives the
default. -/
def interval (config : Properties) : Nat :=
  match (config.get? "interval-ms").bind fun raw => natural64? (Text.trim raw.toList) with
  | some millis => if millis = 0 then defaultInterval else millis
  | none => defaultInterval

/-- Counts a beat after every interval. -/
def beating : RunLoop := fun config => ⟨[], [.gate false, .rest (interval config), .count], false⟩

end ServiceHost.Builtin
