import ServiceHost.Service.Threaded

/-! One service under a clock, called directly by any number of callers. -/

set_option autoImplicit false

namespace ServiceHost

structure Alone where
  now : Nat
  service : Threaded
  calls : List (Query × Phase)

namespace Alone

def sole (service : Threaded) : Alone := ⟨0, service, []⟩

/-- Takes a call, which begins at once. -/
def call (alone : Alone) (query : Query) : Alone :=
  let (phase, service) := alone.service.begin alone.now query
  { alone with service, calls := alone.calls ++ [(query, phase)] }

def answer? (alone : Alone) (call : Nat) : Option (Ending (Except ServiceError Reply)) :=
  match alone.calls[call]? with
  | some (_, .ended ending) => some ending
  | _ => none

/-- Runs go on before the calls that wait for their ends. -/
def step? (alone : Alone) : Option Alone :=
  match alone.service.step? alone.now false with
  | some service => some { alone with service }
  | none =>
    alone.calls.zipIdx.findSome? fun ((query, phase), place) =>
      (alone.service.goOn alone.now query phase).map fun (after, service) =>
        { alone with service, calls := alone.calls.set place (query, after) }

def timer? (alone : Alone) : Option Nat :=
  earlier alone.service.timer? (earliest (alone.calls.map fun call => call.2.timer?))

instance : Clocked Alone where
  now := Alone.now
  setNow instant alone := { alone with now := instant }
  step? := step?
  timer? := timer?

end Alone

end ServiceHost
