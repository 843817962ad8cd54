import ServiceHost.Host.Basic

/-! Procedures that look at the host, change it, and call services.

A procedure gives up control only while it waits for the answer of a call; between two
calls nothing else happens. -/

set_option autoImplicit false

namespace ServiceHost

/-- The answer of a call with a deadline: what the service answered, or why it did not. -/
abbrev CallAnswer := Except CallError (Except ServiceError Reply)

inductive Flow (α : Type) where
  | done (result : α)
  | look (next : Host → Flow α)
  | put (host : Host) (next : Flow α)
  | call (service : ServiceId) (query : Query) (next : CallAnswer → Flow α)

namespace Flow

variable {α β γ : Type}

def bind : Flow α → (α → Flow β) → Flow β
  | done result, after => after result
  | look next, after => look fun host => (next host).bind after
  | put host next, after => put host (next.bind after)
  | call service query next, after => call service query fun answer => (next answer).bind after

instance : Monad Flow where
  pure := done
  bind := bind

theorem bind_done (flow : Flow α) : flow.bind done = flow := by
  induction flow with
  | done => rfl
  | look next ih => exact congrArg look (funext ih)
  | put host next ih => exact congrArg (put host) ih
  | call service query next ih => exact congrArg (call service query) (funext ih)

theorem bind_assoc (flow : Flow α) (first : α → Flow β) (second : β → Flow γ) :
    (flow.bind first).bind second = flow.bind fun result => (first result).bind second := by
  induction flow with
  | done => rfl
  | look next ih => exact congrArg look (funext ih)
  | put host next ih => exact congrArg (put host) ih
  | call service query next ih => exact congrArg (call service query) (funext ih)

instance : LawfulMonad Flow := .mk' Flow bind_done (fun _ _ => rfl) bind_assoc

def read (view : Host → α) : Flow α := look fun host => done (view host)

/-- Changes the host and gives what the change gives. -/
def act (change : Host → α × Host) : Flow α :=
  look fun host => put (change host).2 (done (change host).1)

def modify (change : Host → Host) : Flow Unit := look fun host => put (change host) (done ())

def ask (service : ServiceId) (query : Query) : Flow CallAnswer := call service query done

/-- A procedure up to its next call. -/
inductive Stop (α : Type) where
  | done (result : α)
  | call (service : ServiceId) (query : Query) (next : CallAnswer → Flow α)

def run : Flow α → Host → Stop α × Host
  | done result, host => (.done result, host)
  | look next, host => (next host).run host
  | put host next, _ => next.run host
  | call service query next, host => (.call service query next, host)

/-- A procedure behind another one runs on from where that one stopped. -/
theorem run_bind (flow : Flow α) (after : α → Flow β) (host : Host) :
    (flow.bind after).run host =
      match flow.run host with
      | (.done result, host) => (after result).run host
      | (.call service query next, host) =>
        (.call service query fun answer => (next answer).bind after, host) := by
  induction flow generalizing host with
  | done => rfl
  | look next ih => exact ih host host
  | put other next ih => exact ih other
  | call => rfl

end Flow

/-- A procedure that can fail. What was done before the failure stays done. -/
abbrev Attempt (α : Type) := ExceptT HostError Flow α

namespace Attempt

def of {α : Type} (flow : Flow α) : Attempt α := ExceptT.lift flow

def host : Attempt Host := of (Flow.read id)

def act {α : Type} (change : Host → α × Host) : Attempt α := of (Flow.act change)

def modify (change : Host → Host) : Attempt Unit := of (Flow.modify change)

def outcome {α : Type} (attempt : Attempt α) : Flow (Except HostError α) := ExceptT.run attempt

end Attempt

end ServiceHost
