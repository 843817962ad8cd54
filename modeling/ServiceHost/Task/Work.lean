/-! What a task does and how it ends.

A task sleeps, and then either never ends, panics, or has a value. A panic carries a
payload of which only a text can be shown. -/

set_option autoImplicit false

namespace ServiceHost

inductive Payload where
  | text (message : String)
  | other
  deriving DecidableEq, Repr

def Payload.message : Payload → String
  | text message => message
  | other => "non-string panic payload"

inductive Ending (α : Type) where
  | value (result : α)
  | panicked (payload : Payload)
  deriving DecidableEq, Repr

/-- Sleeps for `rest` milliseconds, then ends, unless it has no ending. -/
structure Work (α : Type) where
  rest : Nat
  ending : Option (Ending α)

/-- When and how work ends that begins at `now`. -/
def Work.endFrom {α : Type} (work : Work α) (now : Nat) : Option (Nat × Ending α) :=
  work.ending.map fun ending => (now + work.rest, ending)

inductive JoinError where
  | panicked (payload : Payload)
  | cancelled
  deriving DecidableEq, Repr

def JoinError.panicMessage : JoinError → Option String
  | panicked payload => some payload.message
  | cancelled => none

/-- What waiting for a task gives: nothing while it runs on. A task that is aborted before it first
runs is cancelled, whatever its work. -/
def Work.joined {α : Type} (work : Work α) (aborted : Bool) : Option (Except JoinError α) :=
  if aborted then some (.error .cancelled)
  else work.ending.map fun
    | .value result => .ok result
    | .panicked payload => .error (.panicked payload)

/-- What a spawned task is for, as logs show it. -/
inductive TaskClass where
  | control
  | runLoop
  | blocking
  deriving DecidableEq, Repr

def TaskClass.name : TaskClass → String
  | control => "control"
  | runLoop => "run_loop"
  | blocking => "io_blocking"

end ServiceHost
