import ServiceHost.Failure
import ServiceHost.Generations
import ServiceHost.Task.Watched

/-! The lifecycle of a service: its state, and the task of the run that goes on under it.

Every operation here is one section under a lock. A stop takes two of them, with a wait
for the end of the run between; in the wait, other operations may go on. -/

set_option autoImplicit false

namespace ServiceHost

/-- One observed change of state. A forced one is the reset by a kill. -/
structure Transition where
  source : State
  target : State
  forced : Bool
  deriving DecidableEq, Repr

structure Lifecycle where
  state : State
  /-- The generation of the task that the state is about. -/
  task : Option Nat
  lastExit : Option Exit
  /-- The pause flag, and how often it has been written. -/
  paused : Bool
  writes : Nat
  generations : Generations
  /-- The tasks of all runs; generation one comes first. -/
  runs : List Watched
  sent : List Transition
  deriving DecidableEq, Repr

/-- How long a stop waits for the end of the run, in milliseconds. -/
def stopGrace : Nat := 10000

/-- A section under the lock. What was done before a refusal stays done. -/
abbrev Locked (α : Type) := ExceptT LifecycleError (StateM Lifecycle) α

namespace Lifecycle

def fresh : Lifecycle := ⟨.initial, none, none, false, 0, .start, [], []⟩

def locked {α : Type} (lifecycle : Lifecycle) (action : Locked α) :
    Except LifecycleError α × Lifecycle :=
  StateT.run (ExceptT.run action) lifecycle

def run? (lifecycle : Lifecycle) (generation : Nat) : Option Watched :=
  if generation = 0 then none else lifecycle.runs[generation - 1]?

def updateRun (lifecycle : Lifecycle) (generation : Nat) (change : Watched → Watched) : Lifecycle :=
  { lifecycle with runs := lifecycle.runs.modify (generation - 1) change }

def isFinished (lifecycle : Lifecycle) (generation : Nat) : Bool :=
  match lifecycle.run? generation with
  | some run => run.isFinished
  | none => true

def exitOf (lifecycle : Lifecycle) (generation : Nat) : Option Exit :=
  (lifecycle.run? generation).bind Watched.seen

def isAlive (lifecycle : Lifecycle) : Bool :=
  match lifecycle.task with
  | some generation => !lifecycle.isFinished generation
  | none => false

def latestExit (lifecycle : Lifecycle) : Option Exit :=
  match lifecycle.task.bind lifecycle.exitOf with
  | some exit => some exit
  | none => lifecycle.lastExit

def stopRequested (lifecycle : Lifecycle) (generation : Nat) : Bool :=
  lifecycle.generations.stopRequested generation

/-- Writes the pause flag. Every write counts, also of the value that is there. -/
def setPaused (lifecycle : Lifecycle) (paused : Bool) : Lifecycle :=
  { lifecycle with paused, writes := lifecycle.writes + 1 }

/-- Goes to another state and announces it; a move that the machine does not have is refused. -/
def move (operation : String) (target : State) : Locked Unit := do
  let lifecycle ← get
  if lifecycle.state = target then return
  if !lifecycle.state.allows target then throw (.invalidTransition operation lifecycle.state)
  set { lifecycle with
    state := target
    sent := lifecycle.sent ++ [Transition.mk lifecycle.state target false] }

def expect (operation : String) (wanted : State) : Locked Unit := do
  let lifecycle ← get
  if lifecycle.state ≠ wanted then throw (.invalidTransition operation lifecycle.state)

def launch : Locked Nat := do
  let lifecycle ← get
  let (generation, generations) := lifecycle.generations.issue
  set { lifecycle with
    generations
    runs := lifecycle.runs ++ [Watched.fresh]
    task := some generation }
  return generation

/-- Begins a run, unless one is still alive. -/
def start : Locked Nat := do
  let lifecycle ← get
  if let some current := lifecycle.task then
    if !lifecycle.isFinished current then throw .alreadyRunning
    set { lifecycle with task := none, lastExit := lifecycle.exitOf current }
  -- A run that ended by itself left the state as it was: the moves to STOPPED are made up for.
  if lifecycle.state ≠ .stopped then
    move "start" .stopping
    move "start" .stopped
  move "start" .starting
  modify (setPaused · false)
  let generation ← launch
  move "start" .running
  return generation

/-- First half of a stop: asks the present run to stop, and gives the generation to wait for. -/
def requestStop : Locked (Option Nat) := do
  let lifecycle ← get
  match lifecycle.task with
  -- Without a run there is nothing to wait for.
  | none =>
    if lifecycle.state ≠ .stopped then
      move "stop" .stopping
      move "stop" .stopped
    return none
  | some generation =>
    move "stop" .stopping
    modify fun lifecycle =>
      { lifecycle with generations := lifecycle.generations.requestStop generation }
    return some generation

/-- Second half of a stop, once the run has ended. -/
def completeStop (generation : Nat) (exit : Exit) : Locked Unit := do
  let lifecycle ← get
  -- A kill or a newer start may have put something else in the place of the run.
  if lifecycle.task = some generation then
    set { lifecycle with task := none, lastExit := some exit }
    move "stop" .stopped

def pause : Locked Unit := do
  expect "pause" .running
  move "pause" .pausing
  modify (setPaused · true)
  move "pause" .paused

def resume : Locked Unit := do
  expect "resume" .paused
  move "resume" .resuming
  modify (setPaused · false)
  move "resume" .running

/-- Asks the run to stop, aborts its task and lets go of it, and forces STOPPED. -/
def kill (lifecycle : Lifecycle) : Lifecycle :=
  let dropped := match lifecycle.task with
    | some generation =>
      { lifecycle.updateRun generation Watched.abort with
        task := none
        lastExit := some .aborted
        generations := lifecycle.generations.requestStop generation }
    | none => lifecycle
  -- The flag is written whether or not there was a run, as those parked at a gate must look again.
  let cleared := dropped.setPaused false
  if cleared.state = .stopped then cleared
  else { cleared with
    state := .stopped
    sent := cleared.sent ++ [⟨cleared.state, .stopped, true⟩] }

def endRun (lifecycle : Lifecycle) (generation : Nat) (exit : Exit) : Lifecycle :=
  lifecycle.updateRun generation fun run => run.finish exit

def record? (lifecycle : Lifecycle) : Option Lifecycle :=
  (lifecycle.runs.findIdx? Watched.unseen).map fun index =>
    { lifecycle with runs := lifecycle.runs.modify index Watched.observe }

/-- What a stop that waits for the end of a run until `expires` is told: how the run ended, nothing
once the grace is over, and no answer before that. -/
def stopAnswer (lifecycle : Lifecycle) (generation expires now : Nat) : Option (Option Exit) :=
  match lifecycle.run? generation with
  | some run => run.answer expires now
  | none => some (some .aborted)

end Lifecycle

/-- The number of unread transitions that are kept for a subscriber. -/
def transitionBuffer : Nat := 64

/-- What a subscriber reads that has read `position` of the transitions: how many of the unread
ones it lost, and the others. -/
def Lifecycle.unread (lifecycle : Lifecycle) (position : Nat) : Nat × List Transition :=
  let waiting := lifecycle.sent.drop position
  let lost := waiting.length - transitionBuffer
  (lost, waiting.drop lost)

end ServiceHost
