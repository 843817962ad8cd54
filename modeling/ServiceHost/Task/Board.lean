import ServiceHost.Clock
import ServiceHost.Task.Watched

/-! Watched tasks under a clock, and any number of callers that wait for their exits. -/

set_option autoImplicit false

namespace ServiceHost

structure BoardTask where
  /-- When and how the task ends by itself. -/
  plan : Option (Nat × Exit)
  watched : Watched
  deriving DecidableEq, Repr

/-- The end that is due, if the task has not ended. -/
def BoardTask.due (task : BoardTask) (now : Nat) : Option Exit :=
  match task.plan with
  | some (instant, exit) => if instant ≤ now && !task.watched.isFinished then some exit else none
  | none => none

structure Joiner where
  task : Nat
  expires : Nat
  answer : Option (Option Exit)
  deriving DecidableEq, Repr

structure Board where
  now : Nat
  tasks : List BoardTask
  joiners : List Joiner
  deriving DecidableEq, Repr

namespace Board

def empty : Board := ⟨0, [], []⟩

def task? (board : Board) (task : Nat) : Option BoardTask := board.tasks[task]?

def spawn {α : Type} (board : Board) (work : Work α) : Board :=
  let plan := (work.endFrom board.now).map fun (instant, ending) => (instant, Exit.ofEnding ending)
  { board with tasks := board.tasks ++ [⟨plan, .fresh⟩] }

def spawnOrphan (board : Board) : Board :=
  { board with tasks := board.tasks ++ [⟨none, .orphan⟩] }

def updateTask (board : Board) (task : Nat) (change : Watched → Watched) : Board :=
  { board with
    tasks := board.tasks.modify task fun entry => { entry with watched := change entry.watched } }

def abort (board : Board) (task : Nat) : Board := board.updateTask task Watched.abort

def join (board : Board) (task timeout : Nat) : Board :=
  { board with joiners := board.joiners ++ [⟨task, board.now + timeout, none⟩] }

def answer? (board : Board) (joiner : Nat) : Option (Option Exit) :=
  board.joiners[joiner]?.bind Joiner.answer

def step? (board : Board) : Option Board :=
  match board.tasks.findIdx? fun task => (task.due board.now).isSome with
  | some task =>
    some (board.updateTask task fun watched =>
      match (board.task? task).bind (BoardTask.due · board.now) with
      | some exit => watched.finish exit
      | none => watched)
  | none =>
    match board.tasks.findIdx? fun task => task.watched.unseen with
    | some task => some (board.updateTask task Watched.observe)
    | none =>
      let answer := fun joiner : Joiner =>
        match joiner.answer with
        | some _ => none
        | none => (board.task? joiner.task).bind (·.watched.answer joiner.expires board.now)
      match board.joiners.findIdx? fun joiner => (answer joiner).isSome with
      | some joiner =>
        some { board with
          joiners := board.joiners.modify joiner fun entry =>
            { entry with answer := answer entry } }
      | none => none

def timer? (board : Board) : Option Nat :=
  earlier
    (earliest (board.tasks.map fun task =>
      if task.watched.isFinished then none else task.plan.map Prod.fst))
    (earliest (board.joiners.map fun joiner =>
      if joiner.answer.isSome then none else some joiner.expires))

instance : Clocked Board where
  now := Board.now
  setNow instant board := { board with now := instant }
  step? := step?
  timer? := timer?

end Board

end ServiceHost
