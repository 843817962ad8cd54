import ServiceHost.Properties
import ServiceHost.Service.Query

/-! Services that behave as a script says.

A script gives every call what it does, whatever calls came before, so it can stand for
any service that is slow, refuses, panics or never answers. -/

set_option autoImplicit false

namespace ServiceHost

/-- What the first calls do, one by one, and what all later ones do. -/
structure Script where
  first : List (Work Outcome)
  rest : Work Outcome

def Script.entry (script : Script) (call : Nat) : Work Outcome := script.first.getD call script.rest

structure Scripted where
  script : Query → Script
  asked : List Query
  state : State
  config : Properties
  /-- Which control calls began and which changed the state, in order. -/
  trace : List (Control × Bool)
  /-- How often the service was killed, of which it takes no notice. -/
  kills : Nat

namespace Scripted

def new (script : Query → Script) (state : State) : Scripted :=
  ⟨script, [], state, Table.empty, [], 0⟩

def noted (service : Scripted) (query : Query) (done : Bool) : List (Control × Bool) :=
  match query with
  | .control control => service.trace ++ [(control, done)]
  | _ => service.trace

/-- Begins a call: takes its place in the script. -/
def begin (service : Scripted) (now : Nat) (query : Query) : Phase × Scripted :=
  let work := (service.script query).entry (service.asked.count query)
  (.planned (work.endFrom now),
    { service with asked := service.asked ++ [query], trace := service.noted query false })

def finish (service : Scripted) (query : Query) :
    Ending Outcome → Ending (Except ServiceError Reply) × Scripted
  | .panicked payload => (.panicked payload, service)
  | .value (.become state) =>
    (.value (.ok .done), { service with state, trace := service.noted query true })
  | .value (.refuse cause) => (.value (.error cause), service)
  | .value (.name id) => (.value (.ok (.id id)), service)
  | .value .tell => (.value (.ok (.state service.state)), service)

def goOn (service : Scripted) (now : Nat) (query : Query) : Phase → Option (Phase × Scripted)
  | .fresh => some (service.begin now query)
  | .planned (some (instant, ending)) =>
    if instant ≤ now then
      let (ending, service) := service.finish query ending
      some (.ended ending, service)
    else none
  | _ => none

end Scripted

end ServiceHost
