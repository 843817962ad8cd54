import ServiceHost.Clock
import ServiceHost.Lifecycle.Machine
import ServiceHost.Lifecycle.Program
import ServiceHost.Service.Query

/-! Services with a lifecycle and a run loop. -/

set_option autoImplicit false

namespace ServiceHost

structure Threaded where
  typeName : String
  version : String
  /-- What tells the instances of one process apart. -/
  stamp : String
  config : Properties
  loop : RunLoop
  lifecycle : Lifecycle
  live : List Run
  /-- The runs that were killed and have not come to the point where they are dropped. -/
  dying : List Nat
  count : Nat
  shown : List Sighting

def defaultVersion : String := "1.0"

namespace Threaded

def new (typeName version stamp : String) (loop : RunLoop) : Threaded :=
  ⟨typeName, version, stamp, Table.empty, loop, .fresh, [], [], 0, []⟩

def id (service : Threaded) : String := s!"{service.typeName}:{service.version}:{service.stamp}"

/-- The answer of a section as callers of the service see it. -/
def replied {α : Type} : Except LifecycleError α → Except ServiceError Reply
  | .ok _ => .ok .done
  | .error refusal => .error (.lifecycle refusal)

def locked {α : Type} (service : Threaded) (action : Locked α) :
    Except LifecycleError α × Threaded :=
  let (answer, lifecycle) := service.lifecycle.locked action
  (answer, { service with lifecycle })

/-- Begins a run with a configuration of its own. -/
def startWith (service : Threaded) (config : Properties) : Except LifecycleError Nat × Threaded :=
  match service.locked Lifecycle.start with
  -- Whoever changes the configuration later does not change that of this run.
  | (.ok generation, service) =>
    (.ok generation,
      { service with live := service.live ++ [Run.start service.loop generation config] })
  | refused => refused

def start (service : Threaded) : Except LifecycleError Nat × Threaded :=
  service.startWith service.config

/-- Forced end: the present run does nothing more, and is to be dropped. Nobody waits for that. -/
def kill (service : Threaded) : Threaded :=
  let lifecycle := service.lifecycle.kill
  let aborted := service.live.filter fun run => lifecycle.isFinished run.generation
  { service with
    lifecycle
    live := service.live.filter fun run => !lifecycle.isFinished run.generation
    dying := service.dying ++ aborted.map Run.generation }

/-- Begins a call. Only a stop may have to wait. -/
def begin (service : Threaded) (now : Nat) : Query → Phase × Threaded
  | .control .start =>
    let (answer, service) := service.start
    (.ended (.value (replied answer)), service)
  | .control .stop =>
    match service.locked Lifecycle.requestStop with
    | (.ok (some generation), service) => (.stopping generation (now + stopGrace), service)
    | (answer, service) => (.ended (.value (replied answer)), service)
  | .control .pause =>
    let (answer, service) := service.locked Lifecycle.pause
    (.ended (.value (replied answer)), service)
  | .control .resume =>
    let (answer, service) := service.locked Lifecycle.resume
    (.ended (.value (replied answer)), service)
  | .state => (.ended (.value (.ok (.state service.lifecycle.state))), service)
  | .instanceId => (.ended (.value (.ok (.id service.id))), service)

/-- Ends a stop that waited for the run of a generation, once there is something to tell. -/
def finishStop (service : Threaded) (now generation expires : Nat) : Option (Phase × Threaded) :=
  match service.lifecycle.stopAnswer generation expires now with
  | none => none
  -- The grace is over. The run stays asked to stop.
  | some none =>
    let refusal := LifecycleError.stopTimedOut (.ofMillis stopGrace)
    some (.ended (.value (.error (.lifecycle refusal))), service)
  | some (some exit) =>
    let (answer, service) := service.locked (Lifecycle.completeStop generation exit)
    some (.ended (.value (replied answer)), service)

def goOn (service : Threaded) (now : Nat) (query : Query) : Phase → Option (Phase × Threaded)
  | .fresh => some (service.begin now query)
  | .stopping generation expires => service.finishStop now generation expires
  | _ => none

def signals (service : Threaded) (closed : Bool) (generation : Nat) : Signals :=
  ⟨service.lifecycle.paused, service.lifecycle.writes, service.lifecycle.stopRequested generation,
    closed⟩

def gone (service : Threaded) (place : Nat) (run : Run) (go : Go) : Threaded :=
  let noted :=
    { service with count := service.count + go.counted, shown := service.shown ++ go.shown }
  match go.after with
  | .ok after => { noted with live := service.live.set place after }
  | .error exit =>
    { noted with
      live := service.live.eraseIdx place
      lifecycle := service.lifecycle.endRun run.generation exit }

def goAt? (service : Threaded) (now : Nat) (closed : Bool) (place : Nat) (run : Run) :
    Option Threaded :=
  (Run.go? run now (service.signals closed run.generation)).map (service.gone place run)

/-- Drops a run that was killed. -/
def reap (service : Threaded) (place : Nat) : Threaded :=
  { service with dying := service.dying.eraseIdx place }

/-- Drops what was killed, then lets the first run that is ready go on. If none is, a watcher records
what it has to record. -/
def step? (service : Threaded) (now : Nat) (closed : Bool) : Option Threaded :=
  if !service.dying.isEmpty then some (service.reap 0)
  else match service.live.zipIdx.findSome? fun (run, place) =>
      service.goAt? now closed place run with
    | some next => some next
    -- A watcher is the last to look, so that a run that is about to end at this instant has ended.
    | none => service.lifecycle.record?.map fun lifecycle => { service with lifecycle }

def timer? (service : Threaded) : Option Nat := earliest (service.live.map Run.timer?)

end Threaded

end ServiceHost
