import ServiceHost.Lifecycle.Gate
import ServiceHost.Properties
import ServiceHost.Task.Watched

/-! Run loops as programs: a few acts to begin with, then a cycle of acts for ever.

A run ends where an act ends it, or where there is nothing left to do. -/

set_option autoImplicit false

namespace ServiceHost

inductive Act where
  /-- Waits while the service is paused, and ends the run on a stop request. Shows what it did if
  it is reported. -/
  | gate (reported : Bool)
  /-- Waits; a stop request ends the run. -/
  | rest (millis : Nat)
  | sleep (millis : Nat)
  | awaitStop
  | forever
  | count
  | fail (message : String)
  deriving DecidableEq, Repr

structure Program where
  opening : List Act
  cycle : List Act
  /-- Whether a run shows that it ends. -/
  reported : Bool
  deriving DecidableEq, Repr

/-- The body of a service: the program of a run that starts with this configuration. -/
abbrev RunLoop := Properties → Program

inductive Sighting where
  | entered (generation : Nat) (config : Properties) (paused stop : Bool)
  | gate (passed paused stop : Bool)
  | left (generation : Nat) (paused stop : Bool)
  deriving DecidableEq

/-- How far a run is with the first of the acts that it has left. -/
inductive Mark where
  /-- The run itself has not begun. -/
  | entering
  | arriving
  | parked (seen : Nat)
  | waiting (instant : Nat)
  deriving DecidableEq, Repr

structure Run where
  generation : Nat
  config : Properties
  program : Program
  todo : List Act
  mark : Mark

def Run.start (loop : RunLoop) (generation : Nat) (config : Properties) : Run :=
  ⟨generation, config, loop config, (loop config).opening, .entering⟩

/-- What a run does in one go: it goes on or ends, counts or not, and shows things. -/
structure Go where
  after : Except Exit Run
  counted : Nat
  shown : List Sighting

namespace Run

def next (run : Run) (todo : List Act) (shown : List Sighting) : Option Go :=
  some ⟨.ok { run with todo, mark := .arriving }, 0, shown⟩

def stay (run : Run) (mark : Mark) : Option Go := some ⟨.ok { run with mark }, 0, []⟩

def leave (run : Run) (signals : Signals) (shown : List Sighting) : Option Go :=
  let last :=
    if run.program.reported then [.left run.generation signals.paused signals.stop] else []
  some ⟨.error .returned, 0, shown ++ last⟩

def pass (run : Run) (signals : Signals) (reported : Bool) (todo : List Act) : Passage → Option Go
  | .go => run.next todo (if reported then [.gate true signals.paused signals.stop] else [])
  | .halt => run.leave signals (if reported then [.gate false signals.paused signals.stop] else [])
  | .park seen => run.stay (.parked seen)

def wait (run : Run) (now millis : Nat) (todo : List Act) : Option Go :=
  match run.mark with
  | .waiting instant => if instant ≤ now then run.next todo [] else none
  | _ => run.stay (.waiting (now + millis))

/-- One go of a run, if it is ready for one. -/
def go? (run : Run) (now : Nat) (signals : Signals) : Option Go :=
  match run.mark, run.todo with
  | .entering, todo =>
    run.next todo [.entered run.generation run.config signals.paused signals.stop]
  | _, [] =>
    match run.program.cycle with
    -- An empty cycle would go round for ever without waiting.
    | [] => run.leave signals []
    | cycle => run.next cycle []
  | .parked seen, .gate reported :: todo =>
    (signals.wake seen).bind (run.pass signals reported todo)
  | _, .gate reported :: todo => run.pass signals reported todo signals.look
  | _, .rest millis :: todo =>
    if signals.stop then run.leave signals [] else run.wait now millis todo
  | _, .sleep millis :: todo => run.wait now millis todo
  | _, .awaitStop :: todo => if signals.stop then run.next todo [] else none
  | _, .forever :: _ => none
  | _, .count :: todo => some ⟨.ok { run with todo, mark := .arriving }, 1, []⟩
  | _, .fail message :: _ => some ⟨.error (.panicked message), 0, []⟩

def timer? (run : Run) : Option Nat :=
  match run.mark with
  | .waiting instant => some instant
  | _ => none

end Run

end ServiceHost
