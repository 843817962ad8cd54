import ServiceHost.Task.Work

/-! Tasks that are watched for their end.

A watcher waits for the task and records how it ended. Between the end and the record
the task is finished but has no exit to show. The record never changes.

A task that is aborted does nothing more, so that its end is settled by the abort. It is dropped
later, and that is for whoever runs the tasks to account for. -/

set_option autoImplicit false

namespace ServiceHost

inductive Exit where
  | returned
  | panicked (message : String)
  | aborted
  deriving DecidableEq, Repr

def Exit.ofEnding {α : Type} : Ending α → Exit
  | .value _ => returned
  | .panicked payload => panicked payload.message

structure Watched where
  /-- How the task ends, as soon as that is settled. -/
  ended : Option Exit
  seen : Option Exit
  /-- The watcher went away before it could record anything. -/
  unwatched : Bool
  deriving DecidableEq, Repr

namespace Watched

def fresh : Watched := ⟨none, none, false⟩

/-- A task whose runtime went away together with its watcher before it ran. -/
def orphan : Watched := ⟨some .aborted, none, true⟩

def isFinished (task : Watched) : Bool := task.ended.isSome

/-- The task ends, unless it has ended before. -/
def finish (task : Watched) (exit : Exit) : Watched :=
  match task.ended with
  | some _ => task
  | none => { task with ended := some exit }

/-- Settles that the task goes no further than where it waits. After its end, this does nothing. -/
def abort (task : Watched) : Watched := task.finish .aborted

def unseen (task : Watched) : Bool := task.ended.isSome && task.seen.isNone && !task.unwatched

def observe (task : Watched) : Watched :=
  if task.unseen then { task with seen := task.ended } else task

/-- What someone who waits for the exit is told, if there is anything to tell yet. Without a
watcher the task counts as aborted. -/
def told (task : Watched) : Option Exit :=
  match task.seen with
  | some exit => some exit
  | none => if task.unwatched then some .aborted else none

/-- The answer to someone who waits until `expires`: the exit if there is one to tell, nothing at
all once the wait is over, and no answer yet before that. -/
def answer (task : Watched) (expires now : Nat) : Option (Option Exit) :=
  match task.told with
  | some exit => some (some exit)
  | none => if expires ≤ now then some none else none

@[simp] theorem isFinished_finish (task : Watched) (exit : Exit) :
    (task.finish exit).isFinished = true := by
  cases h : task.ended <;> simp [finish, isFinished, h]

theorem finish_of_isFinished {task : Watched} (h : task.isFinished = true) (exit : Exit) :
    task.finish exit = task := by
  cases ended : task.ended with
  | none => simp [isFinished, ended] at h
  | some _ => simp [finish, ended]

theorem seen_observe_of_isSome {task : Watched} (h : task.seen.isSome = true) :
    task.observe.seen = task.seen := by
  cases seen : task.seen with
  | none => simp [seen] at h
  | some _ => simp [observe, unseen, seen]

@[simp] theorem unseen_observe (task : Watched) : task.observe.unseen = false := by
  rcases task with ⟨ended, seen, unwatched⟩
  cases ended <;> cases seen <;> cases unwatched <;> rfl

end Watched

end ServiceHost
