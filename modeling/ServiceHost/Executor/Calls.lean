import ServiceHost.Executor.Queue

/-! Calls of plain work under a clock. -/

set_option autoImplicit false

namespace ServiceHost

inductive Progress (ρ : Type) where
  | fresh (work : Work ρ)
  /-- Its task will be dropped before it first runs. -/
  | doomed
  | under (plan : Option (Nat × Ending ρ))

structure Calls (ρ : Type) where
  now : Nat
  executor : Executor (Progress ρ) ρ

namespace Calls

variable {ρ : Type}

def start (capacity : Nat) : Calls ρ := ⟨0, .start capacity⟩

def submit (calls : Calls ρ) (operation : String) (deadline : Nat) (progress : Progress ρ) :
    Calls ρ :=
  { calls with executor := calls.executor.submit calls.now operation deadline progress }

def move (now : Nat) (executor : Executor (Progress ρ) ρ) (call : Running (Progress ρ)) :
    Option (Executor (Progress ρ) ρ) :=
  match call.work with
  | .fresh work => some (executor.continueWith call.request.id (.under (work.endFrom now)))
  | .doomed => some (executor.cancel call.request.id)
  | .under (some (instant, ending)) =>
    if instant ≤ now then some (executor.finish call.request.id ending) else none
  | .under none => none

/-- Deadlines come before work that ends at the same instant. -/
def step? (calls : Calls ρ) : Option (Calls ρ) :=
  -- A call with no time at all is answered before its work begins.
  if calls.executor.overdue calls.now then
    some { calls with executor := calls.executor.expire calls.now }
  else
    (calls.executor.running.findSome? (move calls.now calls.executor)).map fun executor =>
      { calls with executor }

def timer? (calls : Calls ρ) : Option Nat :=
  earlier calls.executor.deadline?
    (earliest (calls.executor.running.map fun call =>
      match call.work with
      | .under plan => plan.map Prod.fst
      | _ => none))

instance : Clocked (Calls ρ) where
  now := Calls.now
  setNow instant calls := { calls with now := instant }
  step? := step?
  timer? := timer?

end Calls

end ServiceHost
