import ServiceHost.Executor.Queue
import ServiceHost.Host.Flow

/-! The host under a clock: procedures that go on at the same time, the calls they wait
for, and the runs of the services. -/

set_option autoImplicit false

namespace ServiceHost

/-- The deadline of every call of a service, in milliseconds. -/
def callDeadline : Nat := 15000

structure Body where
  service : ServiceId
  query : Query
  phase : Phase

/-- What a procedure yields: a value, and the server that its caller gets hold of. -/
structure Yield (ρ : Type) where
  value : ρ
  server : Option ServerId

inductive Progression (ρ : Type) where
  | waiting (call : Nat) (next : CallAnswer → Flow (Yield ρ))
  | yielded (yield : Yield ρ)
  /-- The caller took what it yielded. -/
  | taken

structure System (ρ : Type) where
  now : Nat
  host : Host
  executor : Executor Body (Except ServiceError Reply)
  procedures : List (Progression ρ)
  /-- The servers that callers keep, by a name of theirs. -/
  kept : Table ServerId

namespace System

variable {ρ : Type}

def start (host : Host) (capacity : Nat) : System ρ := ⟨0, host, .start capacity, [], Table.empty⟩

/-- Runs a procedure up to its next call, and puts the call into the queue. -/
def runFlow (system : System ρ) (flow : Flow (Yield ρ)) : Progression ρ × System ρ :=
  match flow.run system.host with
  | (.done yield, host) => (.yielded yield, { system with host })
  | (.call service query next, host) =>
    -- The call will get the next number, by which its answer is found.
    (.waiting system.executor.issued next,
      { system with
        host
        executor := system.executor.submit system.now query.operation callDeadline
          ⟨service, query, .fresh⟩ })

def launch (system : System ρ) (flow : Flow (Yield ρ)) : System ρ :=
  let (progression, system) := system.runFlow flow
  { system with procedures := system.procedures ++ [progression] }

def yield? (system : System ρ) (procedure : Nat) : Option (Yield ρ) :=
  match system.procedures[procedure]? with
  | some (.yielded yield) => some yield
  | _ => none

/-- Takes what a procedure yielded away. A server goes under a name, or is let go. -/
def take (system : System ρ) (procedure : Nat) (name : Option String) : System ρ :=
  let server := (system.yield? procedure).bind Yield.server
  { system with
    procedures := system.procedures.set procedure .taken
    kept := match name, server with
      | some name, some server => system.kept.insert name server
      | _, _ => system.kept }

/-- A procedure whose caller only wants the value. -/
def valueOf (flow : Flow ρ) : Flow (Yield ρ) := do return ⟨← flow, none⟩

/-- The servers that someone holds. -/
def heldServers (system : System ρ) : List ServerId :=
  -- What a procedure yielded is held until its caller takes it.
  system.host.directory.entries.map Prod.snd ++ system.kept.entries.map Prod.snd ++
    system.procedures.filterMap fun
      | .yielded yield => yield.server
      | _ => none

/-- Whether nobody holds a service any more: no server that someone holds, and no call. -/
def closed (system : System ρ) (service : ServiceId) : Bool :=
  -- Calls hold the service itself, so that they outlive a kill of the server around it.
  !(system.heldServers.any fun server => system.host.serviceOf server == some service) &&
    !(system.executor.queue.any fun call => call.2.service == service) &&
    !(system.executor.running.any fun call => call.work.service == service)

def expire? (system : System ρ) : Option (System ρ) :=
  if system.executor.overdue system.now then
    some { system with executor := system.executor.expire system.now }
  else none

def resumeAt? (system : System ρ) (place : Nat) : Progression ρ → Option (System ρ)
  | .waiting call next =>
    (system.executor.answer? call).map fun answer =>
      let answered := { system with executor := system.executor.forget call }
      let (progression, system) := answered.runFlow (next answer)
      { system with procedures := system.procedures.set place progression }
  | _ => none

def resume? (system : System ρ) : Option (System ρ) :=
  system.procedures.zipIdx.findSome? fun (progression, place) => system.resumeAt? place progression

def serveCall? (system : System ρ) (call : Running Body) : Option (System ρ) := do
  let body := call.work
  let service ← system.host.service? body.service
  let (phase, service) ← service.goOn system.now body.query body.phase
  let host := system.host.updateService body.service fun _ => service
  let executor := match phase with
    | .ended ending => system.executor.finish call.request.id ending
    | phase => system.executor.continueWith call.request.id { body with phase }
  some { system with host, executor }

def serve? (system : System ρ) : Option (System ρ) :=
  system.executor.running.findSome? system.serveCall?

def live? (system : System ρ) : Option (System ρ) :=
  system.host.services.zipIdx.findSome? fun (hosted, id) =>
    (hosted.service.step? system.now (system.closed id)).map fun service =>
      { system with host := system.host.updateService id fun _ => service }

def step? (system : System ρ) : Option (System ρ) :=
  -- Deadlines come first, then procedures that have an answer; runs go on only when no call can.
  system.expire? <|> system.resume? <|> system.serve? <|> system.live?

def timer? (system : System ρ) : Option Nat :=
  earlier system.executor.deadline?
    (earlier (earliest (system.executor.running.map fun call => call.work.phase.timer?))
      (earliest (system.host.services.map fun hosted => hosted.service.timer?)))

instance : Clocked (System ρ) where
  now := System.now
  setNow instant system := { system with now := instant }
  step? := step?
  timer? := timer?

/-- Runs a procedure to its end, with everything else that goes on meanwhile. -/
def perform (system : System ρ) (flow : Flow ρ) : Option ρ × System ρ :=
  let procedure := system.procedures.length
  let (ended, system) := Clocked.await (·.yield? procedure) (system.launch (valueOf flow))
  (ended.map Yield.value, system.take procedure none)

end System

end ServiceHost
