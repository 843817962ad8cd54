import ServiceHost.Text.Blank

/-! The seven states of a hosted service and the moves between them. -/

set_option autoImplicit false

namespace ServiceHost

inductive State where
  | stopped
  | starting
  | running
  | pausing
  | paused
  | resuming
  | stopping
  deriving DecidableEq, Repr, Inhabited

namespace State

def all : List State := [stopped, starting, running, pausing, paused, resuming, stopping]

def name : State → String
  | stopped => "STOPPED"
  | starting => "STARTING"
  | running => "RUNNING"
  | pausing => "PAUSING"
  | paused => "PAUSED"
  | resuming => "RESUMING"
  | stopping => "STOPPING"

def initial : State := stopped

/-- The moves of the cooperative machine; staying is always one. The reset by a kill is not
bound to them. -/
def allows : State → State → Bool
  | stopped, starting => true
  | starting, running => true
  | running, pausing => true
  | pausing, paused => true
  | paused, resuming => true
  | resuming, running => true
  | stopping, stopped => true
  | starting, stopping => true
  | running, stopping => true
  | pausing, stopping => true
  | paused, stopping => true
  | resuming, stopping => true
  | source, target => source == target

@[simp] theorem allows_self (state : State) : state.allows state = true := by
  cases state <;> rfl

/-- Reads a name in any ASCII letter case, with blanks around it. -/
def read? (text : String) : Option State :=
  let wanted := Text.lowerAscii (Text.trim text.toList)
  all.find? fun state => Text.lowerAscii state.name.toList == wanted

def unknown (text : String) : String := s!"unknown service state '{text}'"

end State

end ServiceHost
