import ServiceHost.Proofs.Entries
import ServiceHost.Proofs.Timeline
import ServiceHost.Task.Board

/-! Everything that can become of watched tasks and of those who wait for them.

Callers spawn, abort and join at any moment. Of what is ready, the end of a task, the record
of its watcher and the answer to a joiner, anything may be next. Time goes on when nothing
is ready, and only up to the next timer. -/

set_option autoImplicit false

namespace ServiceHost.Board

variable {α : Type}

/-- One thing that happens. Tasks and joiners go by the numbers that they are given when they come. -/
inductive Event (α : Type) where
  | spawn (task : Nat) (work : Work α)
  /-- A task comes whose runtime is gone before it runs, and its watcher with it. -/
  | orphan (task : Nat)
  | abort (task : Nat)
  | join (joiner task timeout : Nat)
  /-- The work of a task comes to its end. -/
  | complete (task : Nat) (exit : Exit)
  /-- The watcher of a task records how it ended. -/
  | observe (task : Nat)
  | answer (joiner : Nat) (told : Option Exit)

/-- Whether nobody asked for it. -/
def Event.own : Event α → Bool
  | .complete .. | .observe _ | .answer .. => true
  | _ => false

/-- The answer to a joiner, if there is one yet. -/
def reply? (board : Board) (joiner : Joiner) : Option (Option Exit) :=
  match joiner.answer with
  | some _ => none
  | none => (board.task? joiner.task).bind (·.watched.answer joiner.expires board.now)

def tell (board : Board) (joiner : Nat) (told : Option Exit) : Board :=
  { board with
    joiners := board.joiners.modify joiner fun entry => { entry with answer := some told } }

inductive Step : Board → Event α → Board → Prop where
  | spawn (board : Board) (work : Work α) :
      Step board (.spawn board.tasks.length work) (board.spawn work)
  | orphan (board : Board) : Step board (.orphan board.tasks.length) board.spawnOrphan
  | abort {board : Board} {task : Nat} : task < board.tasks.length →
      Step board (.abort task) (board.abort task)
  | join {board : Board} {task : Nat} (timeout : Nat) : task < board.tasks.length →
      Step board (.join board.joiners.length task timeout) (board.join task timeout)
  | complete {board : Board} {task : Nat} {entry : BoardTask} {exit : Exit} :
      board.task? task = some entry → entry.due board.now = some exit →
      Step board (.complete task exit) (board.updateTask task fun watched => watched.finish exit)
  | observe {board : Board} {task : Nat} {entry : BoardTask} :
      board.task? task = some entry → entry.watched.unseen = true →
      Step board (.observe task) (board.updateTask task Watched.observe)
  | answer {board : Board} {joiner : Nat} {entry : Joiner} {told : Option Exit} :
      board.joiners[joiner]? = some entry → board.reply? entry = some told →
      Step board (.answer joiner told) (board.tell joiner told)

/-- What has happened, oldest first, each with its instant. -/
abbrev History (α : Type) := List (Nat × Event α)

/-- What can become of a board. -/
abbrev Course : Board → History α → Board → Prop := Clocked.Course Step

variable {start board after next : Board} {past more : History α} {task joiner instant : Nat}
  {entry : BoardTask}

/-! ## Tasks and joiners by number -/

theorem task?_updateTask (board : Board) (task other : Nat) (change : Watched → Watched) :
    (board.updateTask task change).task? other =
      (board.task? other).map fun entry =>
        if task = other then { entry with watched := change entry.watched } else entry := by
  simp only [task?, updateTask, List.getElem?_modify]
  rfl

theorem task?_updateTask_cases {other : Nat} {change : Watched → Watched}
    (found : (board.updateTask task change).task? other = some entry) :
    ∃ former, board.task? other = some former ∧
      (task = other ∧ entry = { former with watched := change former.watched } ∨
        task ≠ other ∧ entry = former) := by
  rw [task?_updateTask] at found
  obtain ⟨former, held, rfl⟩ := Option.map_eq_some_iff.mp found
  refine ⟨former, held, ?_⟩
  split
  · exact .inl ⟨‹_›, rfl⟩
  · exact .inr ⟨‹_›, rfl⟩

theorem joiner?_tell (board : Board) (joiner other : Nat) (told : Option Exit) :
    (board.tell joiner told).joiners[other]? =
      board.joiners[other]?.map fun entry =>
        if joiner = other then { entry with answer := some told } else entry := by
  simp only [tell, List.getElem?_modify]
  rfl

theorem lt_of_task? (found : board.task? task = some entry) : task < board.tasks.length :=
  (List.getElem?_eq_some_iff.mp found).1

/-! ## Rest -/

/-- Nothing is ready: no end is due, every end is recorded, and no joiner has an answer to get. -/
structure Rest (board : Board) : Prop where
  due : ∀ entry ∈ board.tasks, entry.due board.now = none
  recorded : ∀ entry ∈ board.tasks, entry.watched.unseen = false
  told : ∀ joiner ∈ board.joiners, board.reply? joiner = none

theorem step?_eq (board : Board) : board.step? =
    match board.tasks.findIdx? fun entry => (entry.due board.now).isSome with
    | some task => some (board.updateTask task fun watched =>
        match (board.task? task).bind (BoardTask.due · board.now) with
        | some exit => watched.finish exit
        | none => watched)
    | none =>
      match board.tasks.findIdx? fun entry => entry.watched.unseen with
      | some task => some (board.updateTask task Watched.observe)
      | none =>
        match board.joiners.findIdx? fun joiner => (board.reply? joiner).isSome with
        | some joiner => some { board with
            joiners := board.joiners.modify joiner fun entry =>
              { entry with answer := board.reply? entry } }
        | none => none := rfl

theorem rest_iff : board.step? = none ↔ board.Rest := by
  have all : ∀ {β : Type} {items : List β} {ready : β → Bool},
      items.findIdx? ready = none ↔ ∀ item ∈ items, ready item = false :=
    List.findIdx?_eq_none_iff
  rw [step?_eq]
  constructor
  · intro rest
    split at rest
    · cases rest
    · split at rest
      · cases rest
      · split at rest
        · cases rest
        · rename_i due _ unseen _ told
          exact ⟨by simpa [all] using due, by simpa [all] using unseen, by simpa [all] using told⟩
  · rintro ⟨due, recorded, told⟩
    rw [all.mpr (by simpa using due), all.mpr recorded, all.mpr (by simpa using told)]

/-- Whatever the program does next is among what can happen. -/
theorem step_of_step? (α : Type) (found : board.step? = some next) :
    ∃ event : Event α, event.own = true ∧ Step board event next := by
  have first : ∀ {β : Type} {items : List β} {ready : β → Bool} {place : Nat},
      items.findIdx? ready = some place → ∃ item, items[place]? = some item ∧ ready item = true := by
    intro β items ready place found
    obtain ⟨bound, holds, -⟩ := List.findIdx?_eq_some_iff_getElem.mp found
    exact ⟨_, List.getElem?_eq_getElem bound, holds⟩
  rw [step?_eq] at found
  split at found
  · rename_i task due
    cases found
    obtain ⟨entry, here, due⟩ := first due
    obtain ⟨exit, due⟩ := Option.isSome_iff_exists.mp due
    have bound : board.task? task = some entry := here
    rw [bound, Option.bind_some, due]
    exact ⟨_, rfl, .complete bound due⟩
  · split at found
    · rename_i task unseen
      cases found
      obtain ⟨entry, here, unseen⟩ := first unseen
      exact ⟨_, rfl, .observe here unseen⟩
    · split at found
      · rename_i joiner told
        cases found
        obtain ⟨entry, here, told⟩ := first told
        obtain ⟨answer, told⟩ := Option.isSome_iff_exists.mp told
        refine ⟨.answer joiner answer, rfl, ?_⟩
        rw [modify_congr (fun entry => { entry with answer := some answer }) here (by rw [told])]
        exact .answer here told
      · cases found

/-! ## Timers -/

theorem timer?_le_plan {exit : Exit} (member : entry ∈ board.tasks)
    (going : entry.watched.isFinished = false) (planned : entry.plan = some (instant, exit)) :
    ∃ timer, board.timer? = some timer ∧ timer ≤ instant := by
  refine earlier_le (.inl (earliest_le (List.mem_map.mpr ⟨entry, member, ?_⟩)))
  simp [going, planned]

theorem timer?_le_expires {joiner : Joiner} (member : joiner ∈ board.joiners)
    (waits : joiner.answer = none) :
    ∃ timer, board.timer? = some timer ∧ timer ≤ joiner.expires := by
  refine earlier_le (.inr (earliest_le (List.mem_map.mpr ⟨joiner, member, ?_⟩)))
  simp [waits]

theorem due_eq_none_iff {exit : Exit} (going : entry.watched.isFinished = false)
    (planned : entry.plan = some (instant, exit)) {now : Nat} :
    entry.due now = none ↔ now < instant := by
  simp [BoardTask.due, planned, going]

theorem answer_eq_none_iff {watched : Watched} {expires now : Nat} :
    watched.answer expires now = none ↔ watched.told = none ∧ now < expires := by
  unfold Watched.answer
  cases watched.told <;> simp

theorem reply?_eq_none_iff {joiner : Joiner} (waits : joiner.answer = none)
    (there : board.task? joiner.task = some entry) :
    board.reply? joiner = none ↔ entry.watched.told = none ∧ board.now < joiner.expires := by
  rw [reply?, waits, there, Option.bind_some, answer_eq_none_iff]

/-- Nobody waits for a task that is not there. -/
def Manned (board : Board) : Prop := ∀ joiner ∈ board.joiners, joiner.task < board.tasks.length

theorem Step.manned {event : Event α} (step : Step board event after) (manned : board.Manned) :
    after.Manned := by
  cases step with
  | spawn | orphan =>
    intro joiner member
    have := manned joiner member
    simp only [Board.spawn, spawnOrphan, List.length_append]
    omega
  | abort | complete | observe =>
    intro joiner member
    simpa [Board.abort, updateTask] using manned joiner member
  | join timeout bound =>
    intro joiner member
    rcases List.mem_append.mp member with old | new
    · exact manned joiner old
    · rw [List.mem_singleton.mp new]
      exact bound
  | answer =>
    intro joiner member
    obtain ⟨place, here⟩ := List.mem_iff_getElem?.mp member
    rw [joiner?_tell] at here
    obtain ⟨former, found, rfl⟩ := Option.map_eq_some_iff.mp here
    have bound := manned former (List.mem_of_getElem? found)
    split <;> exact bound

/-- At rest every timer is still to come. -/
theorem Rest.lt_timer (rest : board.Rest) (manned : board.Manned)
    (timer : board.timer? = some instant) : board.now < instant := by
  rcases earlier_cases timer with ends | expires
  · obtain ⟨entry, member, planned⟩ := List.mem_map.mp (earliest_mem ends)
    split at planned
    · cases planned
    · rename_i going
      obtain ⟨⟨_, exit⟩, plan, rfl⟩ := Option.map_eq_some_iff.mp planned
      exact (due_eq_none_iff (Bool.eq_false_iff.mpr going) plan).mp (rest.due entry member)
  · obtain ⟨joiner, member, expires⟩ := List.mem_map.mp (earliest_mem expires)
    split at expires
    · cases expires
    · rename_i waits
      cases expires
      have there := List.getElem?_eq_getElem (manned joiner member)
      exact ((reply?_eq_none_iff (by simpa using waits) there).mp (rest.told joiner member)).2

/-! ## Going on -/

theorem Course.manned (course : Course start past board) (manned : start.Manned) :
    board.Manned := by
  induction course with
  | start => exact manned
  | next _ step ih => exact step.manned ih
  | pass _ _ _ _ ih => exact ih

/-- What there is left to do with a task: its end, and the record of it. -/
def chore (entry : BoardTask) : Nat :=
  if entry.watched.isFinished then (if entry.watched.unseen then 1 else 0) else 2

def chores (board : Board) : Nat :=
  (board.tasks.map chore).sum +
    (board.joiners.map fun joiner => if joiner.answer.isSome then 0 else 1).sum

theorem going_of_due {exit : Exit} {now : Nat} (due : entry.due now = some exit) :
    ∃ planned, entry.plan = some (planned, exit) ∧ planned ≤ now ∧ entry.watched.ended = none := by
  unfold BoardTask.due at due
  split at due
  · rename_i planned
    split at due
    · rename_i ready
      cases due
      simp only [Bool.and_eq_true, decide_eq_true_eq, Bool.not_eq_true', Watched.isFinished,
        Option.isSome_eq_false_iff, Option.isNone_iff_eq_none] at ready
      exact ⟨_, planned, ready.1, ready.2⟩
    · cases due
  · cases due

theorem open_of_reply? {joiner : Joiner} {told : Option Exit}
    (replies : board.reply? joiner = some told) :
    joiner.answer = none ∧ ∃ entry, board.task? joiner.task = some entry ∧
      entry.watched.answer joiner.expires board.now = some told := by
  unfold reply? at replies
  split at replies
  · cases replies
  · rename_i waits
    obtain ⟨entry, there, answered⟩ := Option.bind_eq_some_iff.mp replies
    exact ⟨waits, entry, there, answered⟩

theorem Step.chores_lt {event : Event α} (step : Step board event after)
    (own : event.own = true) : after.chores < board.chores ∧ after.now = board.now := by
  cases step with
  | @complete _ entry exit here due =>
    obtain ⟨_, -, -, going⟩ := going_of_due due
    refine ⟨Nat.add_lt_add_right (sum_modify_lt here ?_) _, rfl⟩
    have two : chore entry = 2 := by simp [chore, Watched.isFinished, going]
    rw [two, chore, if_pos (Watched.isFinished_finish ..)]
    split <;> decide
  | @observe _ entry here unseen =>
    refine ⟨Nat.add_lt_add_right (sum_modify_lt here ?_) _, rfl⟩
    have finished := unseen
    simp only [Watched.unseen, Bool.and_eq_true] at finished
    have one : chore entry = 1 := by simp [chore, Watched.isFinished, unseen, finished.1.1]
    rw [one, chore, Watched.unseen_observe]
    simp [Watched.observe, unseen, Watched.isFinished, finished.1.1]
  | answer here replies =>
    refine ⟨Nat.add_lt_add_left (sum_modify_lt here ?_) _, rfl⟩
    simp [(open_of_reply? replies).1]
  | _ => cases own

theorem lively (α : Type) : Clocked.Lively (@Step α) Event.own Manned where
  now_setNow := fun _ _ => rfl
  steps := by
    refine ⟨chores, fun board next manned found => ?_⟩
    obtain ⟨event, own, step⟩ := step_of_step? α found
    obtain ⟨fewer, same⟩ := step.chores_lt own
    exact ⟨step.manned manned, same, fewer, event, own, step⟩
  ahead := fun _ manned rest _ => (rest_iff.mp rest).lt_timer manned
  waits := fun _ _ manned => manned

end ServiceHost.Board
