import ServiceHost.Clock
import ServiceHost.Failure
import ServiceHost.Task.Work

/-! Calls with a deadline that share a number of permits.

A permit goes to the oldest call that waits for one. A call that misses its deadline is
answered and left alone: without a permit it leaves the queue and its work never
begins, with one its work runs on and keeps the permit until it ends. -/

set_option autoImplicit false

namespace ServiceHost

structure Request where
  id : Nat
  operation : String
  /-- In milliseconds, as the caller gave it. -/
  deadline : Nat
  /-- The instant of the deadline. -/
  expires : Nat
  deriving DecidableEq, Repr

def Request.timeout (request : Request) : CallError :=
  .timedOut request.operation (.ofMillis request.deadline)

/-- Work that holds a permit. The caller has given up on it unless it is awaited. -/
structure Running (ω : Type) where
  request : Request
  awaited : Bool
  work : ω

structure Executor (ω ρ : Type) where
  capacity : Nat
  /-- The number of calls so far. -/
  issued : Nat
  /-- Calls without a permit, oldest first. -/
  queue : List (Request × ω)
  running : List (Running ω)
  /-- The answers given so far, by the number of the call. -/
  answers : List (Nat × Except CallError ρ)

namespace Executor

variable {ω ρ : Type}

def defaultCapacity : Nat := 256

def needsPermit : String := "bounded executor needs at least one permit"

def start (capacity : Nat) : Executor ω ρ := ⟨capacity, 0, [], [], []⟩

def inFlight (executor : Executor ω ρ) : Nat := executor.running.length

/-- Gives free permits to the oldest calls of a queue. -/
def grant (capacity : Nat) :
    List (Request × ω) → List (Running ω) → List (Request × ω) × List (Running ω)
  | [], running => ([], running)
  | (request, work) :: rest, running =>
    if running.length < capacity then grant capacity rest (running ++ [⟨request, true, work⟩])
    -- Nobody overtakes: all calls behind this one wait, too.
    else ((request, work) :: rest, running)

def grantFree (executor : Executor ω ρ) : Executor ω ρ :=
  let (queue, running) := grant executor.capacity executor.queue executor.running
  { executor with queue, running }

/-- Puts a call at the end of the queue; it goes on at once if a permit is free. -/
def submit (executor : Executor ω ρ) (now : Nat) (operation : String) (deadline : Nat) (work : ω) :
    Executor ω ρ :=
  let request : Request := ⟨executor.issued, operation, deadline, now + deadline⟩
  { executor with
    issued := executor.issued + 1
    queue := executor.queue ++ [(request, work)] }.grantFree

/-- Whether some caller waits beyond its deadline. -/
def overdue (executor : Executor ω ρ) (now : Nat) : Bool :=
  executor.queue.any (fun call => call.1.expires ≤ now) ||
    executor.running.any fun call => call.awaited && call.request.expires ≤ now

/-- Answers every caller whose deadline has come. -/
def expire (executor : Executor ω ρ) (now : Nat) : Executor ω ρ :=
  let late := executor.queue.filter fun call => call.1.expires ≤ now
  let detached := executor.running.filter fun call => call.awaited && call.request.expires ≤ now
  { executor with
    queue := executor.queue.filter fun call => !(call.1.expires ≤ now)
    -- Work with a permit runs on, for nobody.
    running := executor.running.map fun call =>
      { call with awaited := call.awaited && !(call.request.expires ≤ now) }
    answers := executor.answers ++
      (late.map (·.1) ++ detached.map (·.request)).map fun request =>
        (request.id, .error request.timeout) }

/-- Takes back the permit of a call, answers it if its caller still waits, and passes the permit
on. -/
def conclude (executor : Executor ω ρ) (id : Nat) (answer : Request → Except CallError ρ) :
    Executor ω ρ :=
  let ended := executor.running.filter fun call => call.request.id == id
  { executor with
    running := executor.running.filter fun call => !(call.request.id == id)
    answers := executor.answers ++
      (ended.filter Running.awaited).map fun call : Running ω =>
        (call.request.id, answer call.request) }.grantFree

def finish (executor : Executor ω ρ) (id : Nat) (ending : Ending ρ) : Executor ω ρ :=
  executor.conclude id fun request =>
    match ending with
    | .value result => .ok result
    | .panicked payload => .error (.panicked request.operation payload.message)

/-- The task of a call was dropped by its runtime. -/
def cancel (executor : Executor ω ρ) (id : Nat) : Executor ω ρ :=
  executor.conclude id fun request => .error (.cancelled request.operation)

def continueWith (executor : Executor ω ρ) (id : Nat) (work : ω) : Executor ω ρ :=
  { executor with
    running := executor.running.map fun call =>
      if call.request.id == id then { call with work } else call }

def answer? (executor : Executor ω ρ) (id : Nat) : Option (Except CallError ρ) :=
  executor.answers.lookup id

def forget (executor : Executor ω ρ) (id : Nat) : Executor ω ρ :=
  { executor with answers := executor.answers.filter fun entry => entry.1 ≠ id }

def deadline? (executor : Executor ω ρ) : Option Nat :=
  earlier (earliest (executor.queue.map fun call => some call.1.expires))
    (earliest (executor.running.map fun call =>
      if call.awaited then some call.request.expires else none))

end Executor

end ServiceHost
