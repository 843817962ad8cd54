/-! How a run waits while its service is paused. -/

set_option autoImplicit false

namespace ServiceHost

/-- What a run sees of the service above it. -/
structure Signals where
  paused : Bool
  /-- How often the pause flag has been written. -/
  writes : Nat
  /-- A stop of this run was requested. -/
  stop : Bool
  /-- Nobody holds the service any more, so the flag will not be written again. -/
  closed : Bool
  deriving DecidableEq, Repr

inductive Passage where
  | go
  | halt
  /-- Waits for a request to stop, or for another write than those already seen. -/
  | park (seen : Nat)
  deriving DecidableEq, Repr

/-- What a run at the gate does that has just looked. -/
def Signals.look (signals : Signals) : Passage :=
  if signals.stop then .halt
  else if signals.paused then .park signals.writes
  else .go

/-- What wakes a run that is parked at the gate. A write makes it look again. When nobody can
write any more it goes on, paused or not. -/
def Signals.wake (signals : Signals) (seen : Nat) : Option Passage :=
  if signals.stop then some .halt
  else if signals.writes ≠ seen then some signals.look
  else if signals.closed then some .go
  else none

end ServiceHost
