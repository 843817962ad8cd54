import ServiceHost.Proofs.Task.Moves

/-! How watched tasks end, and what those who wait for them are told.

A task ends once, by what comes first of the end of its work and an abort. All that
is ever seen of its end follows from that: what its watcher records, and what each of the
joiners is told and when, whatever becomes of the others. -/

set_option autoImplicit false

namespace ServiceHost.Board

variable {α : Type} {start board after later : Board} {past more : History α} {event : Event α}
  {task joiner now instant : Nat} {entry : BoardTask} {exit : Exit}

/-! ## What a history says -/

namespace Event

/-- How a task ends by an event, unless it has ended before. -/
def ends (task : Nat) : Event α → Option Exit
  | .complete other exit => if other = task then some exit else none
  | .abort other | .orphan other => if other = task then some .aborted else none
  | _ => none

/-- Whether joiners of a task can be told how it ended from then on. -/
def tells (task : Nat) : Event α → Bool
  | .observe other | .orphan other => other == task
  | _ => false

def begins (task : Nat) : Event α → Option (Work α)
  | .spawn other work => if other = task then some work else none
  | _ => none

def answers (joiner : Nat) : Event α → Option (Option Exit)
  | .answer other told => if other = joiner then some told else none
  | _ => none

end Event

/-- When and how a task ended: what came first counts. -/
def fate (past : History α) (task : Nat) : Option (Nat × Exit) :=
  past.findSome? fun (instant, event) => (event.ends task).map fun exit => (instant, exit)

def known (past : History α) (task : Nat) : Bool := past.any fun (_, event) => event.tells task

/-- When a task was spawned, with which work. -/
def begun (past : History α) (task : Nat) : Option (Nat × Work α) :=
  past.findSome? fun (instant, event) => (event.begins task).map fun work => (instant, work)

/-- When the work of a task comes to its end, and how. -/
def planned (past : History α) (task : Nat) : Option (Nat × Exit) :=
  (begun past task).bind fun (instant, work) =>
    (work.endFrom instant).map fun (instant, ending) => (instant, Exit.ofEnding ending)

/-- What a joiner was told, and when. -/
def answers (past : History α) (joiner : Nat) : List (Nat × Option Exit) :=
  past.filterMap fun (instant, event) => (event.answers joiner).map fun told => (instant, told)

theorem fate_concat (past : History α) (now : Nat) (event : Event α) (task : Nat) :
    fate (past ++ [(now, event)]) task =
      (fate past task).or ((event.ends task).map fun exit => (now, exit)) := by
  simp [fate, List.findSome?_append]

theorem known_concat (past : History α) (now : Nat) (event : Event α) (task : Nat) :
    known (past ++ [(now, event)]) task = (known past task || event.tells task) := by
  simp [known]

theorem answers_concat (past : History α) (now : Nat) (event : Event α) (joiner : Nat) :
    answers (past ++ [(now, event)]) joiner =
      answers past joiner ++ ((event.answers joiner).map fun told => (now, told)).toList := by
  rw [answers, List.filterMap_append]
  cases found : event.answers joiner <;> simp [answers, found]

theorem begun_concat (past : History α) (now : Nat) (event : Event α) (task : Nat) :
    begun (past ++ [(now, event)]) task =
      (begun past task).or ((event.begins task).map fun work => (now, work)) := by
  simp [begun, List.findSome?_append]

theorem planned_concat_of_none (past : History α) (now : Nat) (none_ : event.begins task = none) :
    planned (past ++ [(now, event)]) task = planned past task := by
  rw [planned, planned, begun_concat, none_, Option.map_none, Option.or_none]

/-- What has happened stays so. -/
theorem fate_concat_of_isSome (ended : (fate past task).isSome) :
    fate (past ++ [(now, event)]) task = fate past task := by
  rw [fate_concat, Option.or_of_isSome ended]

theorem fate_isSome_of_mem (member : (instant, .complete task exit) ∈ past) :
    (fate past task).isSome := by
  rw [fate, List.findSome?_isSome_iff]
  exact ⟨_, member, by simp [Event.ends]⟩

/-! ## Tasks -/

/-- A task beside what has happened to it. -/
structure Stands (past : History α) (now task : Nat) (entry : BoardTask) : Prop where
  plan : entry.plan = planned past task
  ended : entry.watched.ended = (fate past task).map Prod.snd
  known : known past task = entry.watched.told.isSome
  told : ∀ exit, entry.watched.told = some exit → entry.watched.ended = some exit
  unseen : entry.watched.unwatched = true → entry.watched.seen = none
  exact : ∀ instant exit, (instant, .complete task exit) ∈ past →
    planned past task = some (instant, exit)
  passed : ∀ end_ ∈ fate past task, end_.1 ≤ now
  /-- Ends are recorded before time goes on. -/
  prompt : Board.known past task = false → ∀ end_ ∈ fate past task, now ≤ end_.1
  /-- No end that is planned is passed over. -/
  early : fate past task = none → ∀ end_ ∈ planned past task, now ≤ end_.1

namespace Stands

theorem isFinished (stands : Stands past now task entry) :
    entry.watched.isFinished = (fate past task).isSome := by
  rw [Watched.isFinished, stands.ended, Option.isSome_map]

theorem isSome_of_known (stands : Stands past now task entry)
    (known_ : Board.known past task = true) : (fate past task).isSome := by
  rw [stands.known] at known_
  obtain ⟨exit, told⟩ := Option.isSome_iff_exists.mp known_
  rw [← stands.isFinished, Watched.isFinished, stands.told exit told]
  rfl

/-- Whatever does not concern a task leaves it where it stands, and so does an abort after its
end. -/
theorem aside (stands : Stands past now task entry)
    (quiet : event.ends task = none ∨ event = .abort task ∧ (fate past task).isSome)
    (silent : event.tells task = false) (apart : event.begins task = none) :
    Stands (past ++ [(now, event)]) now task entry := by
  have fate_ : fate (past ++ [(now, event)]) task = fate past task := by
    rcases quiet with none_ | ⟨-, ended⟩
    · rw [fate_concat, none_, Option.map_none, Option.or_none]
    · exact fate_concat_of_isSome ended
  have known_ : Board.known (past ++ [(now, event)]) task = Board.known past task := by
    rw [known_concat, silent, Bool.or_false]
  have planned_ := planned_concat_of_none past now apart
  exact {
    plan := stands.plan.trans planned_.symm
    ended := by rw [fate_, stands.ended]
    known := by rw [known_, stands.known]
    told := stands.told
    unseen := stands.unseen
    exact := by
      intro instant exit member
      rw [planned_]
      rcases List.mem_append.mp member with old | new
      · exact stands.exact instant exit old
      · cases List.mem_singleton.mp new
        rcases quiet with none_ | ⟨abort, -⟩
        · simp [Event.ends] at none_
        · cases abort
    passed := by rw [fate_]; exact stands.passed
    prompt := by rw [fate_, known_]; exact stands.prompt
    early := by rw [fate_, planned_]; exact stands.early }

/-- A task ends. -/
theorem finish (stands : Stands past now task entry) (going : entry.watched.ended = none)
    (ends : event.ends task = some exit) (silent : event.tells task = false)
    (apart : event.begins task = none)
    (due : event = .complete task exit → planned past task = some (now, exit)) :
    Stands (past ++ [(now, event)]) now task
      { entry with watched := entry.watched.finish exit } := by
  have going_ : fate past task = none := by
    rw [stands.ended] at going
    simpa using going
  have fate_ : fate (past ++ [(now, event)]) task = some (now, exit) := by
    rw [fate_concat, going_, ends]
    rfl
  have known_ : Board.known (past ++ [(now, event)]) task = Board.known past task := by
    rw [known_concat, silent, Bool.or_false]
  have planned_ := planned_concat_of_none past now apart
  have finished : entry.watched.finish exit = { entry.watched with ended := some exit } := by
    simp [Watched.finish, going]
  have told : entry.watched.told = none := by
    cases told : entry.watched.told with
    | none => rfl
    | some exit => cases going.symm.trans (stands.told exit told)
  have told_ : (entry.watched.finish exit).told = none := by
    rw [finished]
    exact told
  exact {
    plan := stands.plan.trans planned_.symm
    ended := by rw [fate_, finished]; rfl
    known := by rw [known_, stands.known, told, told_]
    told := by
      intro exit found
      cases told_.symm.trans found
    unseen := by rw [finished]; exact stands.unseen
    exact := by
      intro instant other member
      rw [planned_]
      rcases List.mem_append.mp member with old | new
      · exact stands.exact instant other old
      · cases List.mem_singleton.mp new
        simp only [Event.ends, if_true, Option.some.injEq] at ends
        subst ends
        exact due rfl
    passed := by simp [fate_]
    prompt := by simp [fate_]
    early := by simp [fate_] }

/-- The watcher of a task looks. -/
theorem observe (stands : Stands past now task entry) (unseen : entry.watched.unseen = true) :
    Stands (past ++ [(now, .observe task)]) now task
      { entry with watched := entry.watched.observe } := by
  have plain : entry.watched.ended.isSome = true ∧ entry.watched.unwatched = false := by
    simp only [Watched.unseen, Bool.and_eq_true, Bool.not_eq_true'] at unseen
    exact ⟨unseen.1.1, unseen.2⟩
  obtain ⟨exit, ended⟩ := Option.isSome_iff_exists.mp plain.1
  have observed : entry.watched.observe = { entry.watched with seen := some exit } := by
    simp [Watched.observe, unseen, ended]
  have finished : (fate past task).isSome := by
    rw [← stands.isFinished]
    exact plain.1
  have fate_ : fate (past ++ [(now, .observe task)]) task = fate past task :=
    fate_concat_of_isSome finished
  have known_ : Board.known (past ++ [(now, .observe task)]) task = true := by
    simp [known_concat, Event.tells]
  have planned_ : planned (past ++ [(now, .observe task)]) task = planned past task :=
    planned_concat_of_none past now rfl
  exact {
    plan := stands.plan.trans planned_.symm
    ended := by rw [fate_, ← stands.ended, observed]
    known := by rw [known_, observed]; rfl
    told := by
      intro other told
      rw [observed] at told ⊢
      exact ended.trans told
    unseen := by
      intro unwatched
      rw [observed] at unwatched
      cases plain.2.symm.trans unwatched
    exact := by
      intro instant other member
      rw [planned_]
      exact stands.exact instant other (by simpa using member)
    passed := by rw [fate_]; exact stands.passed
    prompt := by
      intro unknown
      cases known_.symm.trans unknown
    early := by
      intro going
      rw [fate_] at going
      simp [going] at finished }

/-- At rest, joiners can be told of every end. -/
theorem told_of_rest (stands : Stands past now task entry)
    (recorded : entry.watched.unseen = false) : entry.watched.told = entry.watched.ended := by
  cases told : entry.watched.told with
  | some exit => exact (stands.told exit told).symm
  | none =>
    unfold Watched.told at told
    unfold Watched.unseen at recorded
    cases seen : entry.watched.seen <;> cases unwatched : entry.watched.unwatched <;>
      simp_all

/-- Time goes on over a task that has nothing to do before. -/
theorem pass (stands : Stands past now task entry) (recorded : entry.watched.unseen = false)
    (later : now ≤ instant)
    (within : entry.watched.isFinished = false → ∀ end_ ∈ entry.plan, instant ≤ end_.1) :
    Stands past instant task entry where
  plan := stands.plan
  ended := stands.ended
  known := stands.known
  told := stands.told
  unseen := stands.unseen
  exact := stands.exact
  passed := fun end_ ended => Nat.le_trans (stands.passed end_ ended) later
  prompt := by
    intro unknown end_ ended
    rw [stands.known, stands.told_of_rest recorded, stands.ended, Option.mem_def.mp ended] at unknown
    cases unknown
  early := by
    intro going
    rw [← stands.plan]
    exact within (by rw [stands.isFinished, going]; rfl)

end Stands

/-! ## Joiners -/

/-- A wait for the end of a task, as it was begun. -/
structure Wait where
  joiner : Nat
  task : Nat
  since : Nat
  expires : Nat
  /-- Whether joiners could be told of the end before. -/
  early : Bool

/-- What the one who waits is told, from the end of the task, and when: an end that is known at
once, any other that comes in time when it comes, and nothing when the time is up. -/
def Wait.reply (wait : Wait) : Option (Nat × Exit) → Nat × Option Exit
  | some (instant, exit) =>
    if wait.early || instant < wait.expires then (max wait.since instant, some exit)
    else (wait.expires, none)
  | none => (wait.expires, none)

/-- The task ends at the very instant at which the time is up. -/
def Wait.Tied (wait : Wait) (past : History α) : Prop :=
  wait.early = false ∧ ∃ exit, fate past wait.task = some (wait.expires, exit)

/-- The waits that joins have begun. -/
def Joined (past : History α) (wait : Wait) : Prop :=
  ∃ before after timeout,
    past = before ++ (wait.since, .join wait.joiner wait.task timeout) :: after ∧
      wait.expires = wait.since + timeout ∧ wait.early = known before wait.task

theorem joined_concat {wait : Wait} : Joined (past ++ [(now, event)]) wait ↔ Joined past wait ∨
    ∃ joiner task timeout, event = .join joiner task timeout ∧
      wait = ⟨joiner, task, now, now + timeout, known past task⟩ := by
  constructor
  · rintro ⟨before, after, timeout, split, expires, early⟩
    rcases List.eq_nil_or_concat after with rfl | ⟨front, last, rfl⟩
    · obtain ⟨rfl, same⟩ := List.append_inj' split rfl
      cases same
      refine .inr ⟨_, _, timeout, rfl, ?_⟩
      rw [← expires, ← early]
    · rw [List.concat_eq_append, ← List.cons_append, ← List.append_assoc] at split
      obtain ⟨rfl, -⟩ := List.append_inj' split rfl
      exact .inl ⟨before, front, timeout, rfl, expires, early⟩
  · rintro (⟨before, after, timeout, rfl, expires, early⟩ | ⟨joiner, task, timeout, rfl, rfl⟩)
    · exact ⟨before, after ++ [(now, event)], timeout, by simp, expires, early⟩
    · exact ⟨past, [], timeout, rfl, rfl, rfl⟩

/-- Why a wait was answered at an instant. -/
def Justified (past : History α) (wait : Wait) (instant : Nat) : Option Exit → Prop
  | some exit => ∃ ended, fate past wait.task = some (ended, exit) ∧
      instant = max wait.since ended ∧ (wait.early = true ∨ ended ≤ wait.expires)
  | none => instant = wait.expires ∧ wait.early = false ∧
      ∀ end_ ∈ fate past wait.task, wait.expires ≤ end_.1

/-- A wait beside what has happened to its task. -/
structure Awaits (past : History α) (now : Nat) (wait : Wait) : Prop where
  since : wait.since ≤ now
  early : wait.early = true → known past wait.task = true ∧
    ∀ end_ ∈ fate past wait.task, end_.1 ≤ wait.since
  open_ : answers past wait.joiner = [] → now ≤ wait.expires ∧
    (wait.early = true → now = wait.since) ∧
    ∀ end_ ∈ fate past wait.task, now ≤ max wait.since end_.1
  answered : ∀ instant told, (instant, told) ∈ answers past wait.joiner →
    instant ≤ now ∧ Justified past wait instant told

namespace Awaits

variable {wait : Wait}

/-- A later end is no reason to take an answer back. -/
theorem justified_concat {told : Option Exit} (justified : Justified past wait instant told)
    (bound : instant ≤ now) : Justified (past ++ [(now, event)]) wait instant told := by
  cases told with
  | some exit =>
    obtain ⟨ended, fate_, at_, timely⟩ := justified
    exact ⟨ended, (fate_concat_of_isSome (by simp [fate_])).trans fate_, at_, timely⟩
  | none =>
    obtain ⟨rfl, late, beyond⟩ := justified
    refine ⟨rfl, late, fun end_ ended => ?_⟩
    rw [fate_concat, Option.mem_def, Option.or_eq_some_iff] at ended
    rcases ended with old | ⟨-, new⟩
    · exact beyond end_ old
    · obtain ⟨_, _, rfl⟩ := Option.map_eq_some_iff.mp new
      exact bound

/-- The wait begins. -/
theorem joined (stands : Stands past now task entry) (none_ : answers past joiner = [])
    (timeout : Nat) : Awaits (past ++ [(now, .join joiner task timeout)]) now
      ⟨joiner, task, now, now + timeout, known past task⟩ := by
  have answers_ : answers (past ++ [(now, .join joiner task timeout)]) joiner = [] := by
    simp [answers_concat, none_, Event.answers]
  refine ⟨Nat.le_refl _, fun (early : known past task = true) =>
      ⟨by rw [known_concat, early, Bool.true_or], fun end_ ended => ?_⟩,
    fun _ => ⟨Nat.le_add_right .., fun _ => rfl, fun _ _ => Nat.le_max_left ..⟩, ?_⟩
  · rw [fate_concat_of_isSome (stands.isSome_of_known early)] at ended
    exact stands.passed end_ ended
  · rw [answers_]
    simp

/-- Whatever is no answer to this joiner leaves the wait where it is. -/
theorem aside (awaits : Awaits past now wait)
    (sure : known past wait.task = true → (fate past wait.task).isSome)
    (silent : event.answers wait.joiner = none) : Awaits (past ++ [(now, event)]) now wait := by
  have answers_ : answers (past ++ [(now, event)]) wait.joiner = answers past wait.joiner := by
    rw [answers_concat, silent]
    simp
  refine ⟨awaits.since, fun early => ?_, ?_, ?_⟩
  · obtain ⟨known_, before⟩ := awaits.early early
    rw [fate_concat_of_isSome (sure known_), known_concat, known_]
    exact ⟨rfl, before⟩
  · rw [answers_]
    intro none_
    obtain ⟨bound, at_, ends⟩ := awaits.open_ none_
    refine ⟨bound, at_, fun end_ ended => ?_⟩
    rw [fate_concat, Option.mem_def, Option.or_eq_some_iff] at ended
    rcases ended with old | ⟨-, new⟩
    · exact ends end_ old
    · obtain ⟨_, _, rfl⟩ := Option.map_eq_some_iff.mp new
      exact Nat.le_max_right ..
  · rw [answers_]
    intro instant told member
    obtain ⟨bound, justified⟩ := awaits.answered instant told member
    exact ⟨bound, justified_concat justified bound⟩

/-- The joiner is answered. -/
theorem answer (awaits : Awaits past now wait) (stands : Stands past now wait.task entry)
    (none_ : answers past wait.joiner = []) {told : Option Exit}
    (replies : entry.watched.answer wait.expires now = some told) :
    Awaits (past ++ [(now, .answer wait.joiner told)]) now wait := by
  obtain ⟨bound, at_, ends⟩ := awaits.open_ none_
  have quiet : fate (past ++ [(now, .answer wait.joiner told)]) wait.task =
      fate past wait.task := by
    simp [fate_concat, Event.ends]
  have known_ : known (past ++ [(now, .answer wait.joiner told)]) wait.task =
      known past wait.task := by
    simp [known_concat, Event.tells]
  have answers_ : answers (past ++ [(now, .answer wait.joiner told)]) wait.joiner =
      [(now, told)] := by
    simp [answers_concat, none_, Event.answers]
  have justified : Justified past wait now told := by
    unfold Watched.answer at replies
    split at replies
    · rename_i exit shown
      cases replies
      have ended := stands.ended
      rw [stands.told exit shown, eq_comm, Option.map_eq_some_iff] at ended
      obtain ⟨⟨moment, _⟩, ended, rfl⟩ := ended
      have after := stands.passed _ ended
      have before := ends _ ended
      have since := awaits.since
      refine ⟨moment, ended, by simp only at after before; omega, .inr ?_⟩
      exact Nat.le_trans after bound
    · rename_i untold
      split at replies
      · cases replies
        have unknown : known past wait.task = false := by rw [stands.known, untold]; rfl
        refine ⟨by omega, ?_, fun end_ ended => ?_⟩
        · refine Bool.eq_false_iff.mpr fun early => ?_
          cases unknown.symm.trans (awaits.early early).1
        · exact Nat.le_trans ‹_› (stands.prompt unknown end_ ended)
      · cases replies
  refine ⟨awaits.since, by rw [quiet, known_]; exact awaits.early, ?_, ?_⟩
  · rw [answers_]
    simp
  · rw [answers_]
    intro instant other member
    cases List.mem_singleton.mp member
    exact ⟨Nat.le_refl _, justified_concat justified (Nat.le_refl _)⟩

/-- Nobody who could be told waits on at rest. -/
theorem pass (awaits : Awaits past now wait) (stands : Stands past now wait.task entry)
    (recorded : entry.watched.unseen = false) (later : now ≤ instant)
    (open_ : answers past wait.joiner = [] →
      entry.watched.told = none ∧ instant ≤ wait.expires) : Awaits past instant wait where
  since := Nat.le_trans awaits.since later
  early := awaits.early
  open_ := by
    intro none_
    obtain ⟨untold, within⟩ := open_ none_
    have going : fate past wait.task = none := by
      rw [stands.told_of_rest recorded, stands.ended, Option.map_eq_none_iff] at untold
      exact untold
    refine ⟨within, fun early => ?_, by simp [going]⟩
    have known_ := (awaits.early early).1
    rw [stands.known, untold] at known_
    cases known_
  answered := fun instant told member =>
    (awaits.answered instant told member).imp_left (Nat.le_trans · later)

end Awaits

/-! ## Boards -/

/-- A board beside what has happened to it. -/
structure Kept (past : History α) (board : Board) : Prop where
  tasks : ∀ task entry, board.task? task = some entry → Stands past board.now task entry
  fresh : ∀ task, board.tasks.length ≤ task →
    fate past task = none ∧ known past task = false ∧ begun past task = none
  told : ∀ joiner, (answers past joiner).map Prod.snd = (board.answer? joiner).toList
  waits : ∀ wait, Joined past wait →
    (∃ answer, board.joiners[wait.joiner]? = some ⟨wait.task, wait.expires, answer⟩) ∧
      wait.task < board.tasks.length ∧ Awaits past board.now wait

/-- An event is about tasks that are there afterwards. -/
theorem Step.beyond (step : Step board event after) (far : after.tasks.length ≤ task) :
    board.tasks.length ≤ task ∧ event.ends task = none ∧ event.tells task = false ∧
      event.begins task = none := by
  have apart : ∀ {other}, other < after.tasks.length → other ≠ task := by
    rintro other bound rfl
    omega
  cases step with
  | spawn | orphan =>
    simp only [Board.spawn, spawnOrphan, List.length_append, List.length_singleton] at far apart
    simp [Event.ends, Event.tells, Event.begins, apart (Nat.lt_succ_self _)]
    omega
  | abort bound =>
    simp only [Board.abort, updateTask, List.length_modify] at far apart
    simp [Event.ends, Event.tells, Event.begins, apart bound, far]
  | complete here | observe here =>
    simp only [updateTask, List.length_modify] at far apart
    simp [Event.ends, Event.tells, Event.begins, apart (lt_of_task? here), far]
  | join | answer => exact ⟨far, rfl, rfl, rfl⟩

namespace Kept

/-- Tasks that a step does not touch. -/
theorem untouched (kept : Kept past board) (found : board.task? task = some entry)
    (quiet : event.ends task = none) (silent : event.tells task = false)
    (apart : event.begins task = none) :
    Stands (past ++ [(board.now, event)]) board.now task entry :=
  (kept.tasks task entry found).aside (.inl quiet) silent apart

theorem spawned (kept : Kept past board) (work : Work α) :
    Stands (past ++ [(board.now, .spawn board.tasks.length work)]) board.now board.tasks.length
      ⟨(work.endFrom board.now).map fun (instant, ending) => (instant, Exit.ofEnding ending),
        .fresh⟩ := by
  obtain ⟨fate_, known_, begun_⟩ := kept.fresh board.tasks.length (Nat.le_refl _)
  have still : fate (past ++ [(board.now, .spawn board.tasks.length work)]) board.tasks.length =
      none := by
    simp [fate_concat, fate_, Event.ends]
  have planned_ : planned (past ++ [(board.now, .spawn board.tasks.length work)])
      board.tasks.length =
        (work.endFrom board.now).map fun (instant, ending) => (instant, Exit.ofEnding ending) := by
    simp [planned, begun_concat, begun_, Event.begins]
  exact {
    plan := planned_.symm
    ended := by rw [still]; rfl
    known := by simp [known_concat, known_, Event.tells, Watched.told, Watched.fresh]
    told := by simp [Watched.told, Watched.fresh]
    unseen := fun _ => rfl
    exact := by
      intro instant exit member
      have ended := fate_isSome_of_mem member
      simp [still] at ended
    passed := by simp [still]
    prompt := by simp [still]
    early := by
      intro _ end_ found
      rw [planned_, Option.mem_def, Option.map_eq_some_iff] at found
      obtain ⟨⟨instant, ending⟩, ends, rfl⟩ := found
      obtain ⟨_, _, same⟩ := Option.map_eq_some_iff.mp ends
      cases same
      exact Nat.le_add_right .. }

theorem orphaned (kept : Kept past board) :
    Stands (past ++ [(board.now, .orphan board.tasks.length)]) board.now board.tasks.length
      ⟨none, .orphan⟩ := by
  obtain ⟨fate_, known_, begun_⟩ := kept.fresh board.tasks.length (Nat.le_refl _)
  have ended : fate (past ++ [(board.now, .orphan board.tasks.length)]) board.tasks.length =
      some (board.now, .aborted) := by
    simp [fate_concat, fate_, Event.ends]
  have planned_ : planned (past ++ [(board.now, .orphan board.tasks.length)]) board.tasks.length =
      none := by
    simp [planned, begun_concat, begun_, Event.begins]
  have known_' : known (past ++ [(board.now, .orphan board.tasks.length)]) board.tasks.length =
      true := by
    simp [known_concat, Event.tells]
  exact {
    plan := planned_.symm
    ended := by rw [ended]; rfl
    known := by rw [known_']; rfl
    told := fun exit told => told
    unseen := fun _ => rfl
    exact := by
      intro instant exit member
      have before : (instant, .complete board.tasks.length exit) ∈ past := by simpa using member
      have ended := fate_isSome_of_mem before
      simp [fate_] at ended
    passed := by simp [ended]
    prompt := by simp [known_']
    early := by simp [ended] }

theorem step_tasks (kept : Kept past board) (step : Step board event after) (task : Nat)
    (entry : BoardTask) (found : after.task? task = some entry) :
    Stands (past ++ [(board.now, event)]) after.now task entry := by
  cases step with
  | spawn work =>
    rcases getElem?_concat_cases found with old | ⟨rfl, rfl⟩
    · have other : board.tasks.length ≠ task := by
        have := (List.getElem?_eq_some_iff.mp old).1
        omega
      exact kept.untouched old rfl rfl (by simp [Event.begins, other])
    · exact kept.spawned work
  | orphan =>
    rcases getElem?_concat_cases found with old | ⟨rfl, rfl⟩
    · have other : board.tasks.length ≠ task := by
        have := (List.getElem?_eq_some_iff.mp old).1
        omega
      exact kept.untouched old (by simp [Event.ends, other]) (by simp [Event.tells, other]) rfl
    · exact kept.orphaned
  | @abort place bound =>
    obtain ⟨former, held, ⟨rfl, rfl⟩ | ⟨other, rfl⟩⟩ := task?_updateTask_cases found
    · have stands := kept.tasks place former held
      cases ended : former.watched.ended with
      | none => exact stands.finish ended (by simp [Event.ends]) rfl rfl (by simp)
      | some exit =>
        have finished : former.watched.isFinished = true := by simp [Watched.isFinished, ended]
        rw [Watched.abort, Watched.finish_of_isFinished finished]
        exact stands.aside (.inr ⟨rfl, by rw [← stands.isFinished, finished]⟩) rfl rfl
    · exact kept.untouched held (by simp [Event.ends, other]) rfl rfl
  | @complete place owner exit here due =>
    obtain ⟨former, held, ⟨rfl, rfl⟩ | ⟨other, rfl⟩⟩ := task?_updateTask_cases found
    · cases here.symm.trans held
      have stands := kept.tasks place owner here
      obtain ⟨instant, plan, ready, going⟩ := going_of_due due
      have still : fate past place = none := by
        have ended := stands.ended
        rw [going] at ended
        simpa using ended.symm
      have before := stands.early still (instant, exit) (by rw [← stands.plan]; exact plan)
      obtain rfl : instant = board.now := Nat.le_antisymm ready before
      have ends : (Event.complete place exit : Event α).ends place = some exit := by
        simp [Event.ends]
      exact stands.finish going ends rfl rfl fun _ => stands.plan.symm.trans plan
    · exact kept.untouched held (by simp [Event.ends, other]) rfl rfl
  | @observe place owner here unseen =>
    obtain ⟨former, held, ⟨rfl, rfl⟩ | ⟨other, rfl⟩⟩ := task?_updateTask_cases found
    · cases here.symm.trans held
      exact (kept.tasks place owner here).observe unseen
    · exact kept.untouched held rfl (by simp [Event.tells, other]) rfl
  | join | answer => exact kept.untouched found rfl rfl rfl

theorem answers_eq_nil (kept : Kept past board) (open_ : board.answer? joiner = none) :
    answers past joiner = [] := by
  have told := kept.told joiner
  rw [open_] at told
  simpa using told

theorem step_told (kept : Kept past board) (step : Step board event after) (joiner : Nat) :
    (answers (past ++ [(board.now, event)]) joiner).map Prod.snd =
      (after.answer? joiner).toList := by
  have aside : event.answers joiner = none → after.answer? joiner = board.answer? joiner →
      (answers (past ++ [(board.now, event)]) joiner).map Prod.snd =
        (after.answer? joiner).toList := by
    intro silent same
    rw [answers_concat, silent, same, ← kept.told joiner]
    simp
  cases step with
  | join timeout =>
    refine aside rfl ?_
    simp only [Board.answer?, Board.join, List.getElem?_append]
    split
    · rfl
    · rename_i beyond
      rw [List.getElem?_eq_none (Nat.le_of_not_lt beyond), List.getElem?_singleton]
      split <;> rfl
  | @answer place entry told here replies =>
    by_cases own : place = joiner
    · subst own
      have waits : board.answer? place = none := by
        rw [Board.answer?, here, Option.bind_some, (open_of_reply? replies).1]
      rw [answers_concat, kept.answers_eq_nil waits, Board.answer?, joiner?_tell, here]
      simp [Event.answers]
    · refine aside (by simp [Event.answers, own]) ?_
      simp [Board.answer?, joiner?_tell, own]
  | _ => exact aside rfl rfl

theorem step_waits (kept : Kept past board) (step : Step board event after) {wait : Wait}
    (joined : Joined (past ++ [(board.now, event)]) wait) :
    (∃ answer, after.joiners[wait.joiner]? = some ⟨wait.task, wait.expires, answer⟩) ∧
      wait.task < after.tasks.length ∧
        Awaits (past ++ [(board.now, event)]) after.now wait := by
  rcases joined_concat.mp joined with old | ⟨joiner, task, timeout, rfl, rfl⟩
  · obtain ⟨⟨answer, place⟩, bound, awaits⟩ := kept.waits wait old
    have there : board.task? wait.task = some board.tasks[wait.task] :=
      List.getElem?_eq_getElem bound
    have stands := kept.tasks _ _ there
    have aside : event.answers wait.joiner = none →
        Awaits (past ++ [(board.now, event)]) board.now wait :=
      awaits.aside stands.isSome_of_known
    have grown : wait.task < board.tasks.length + 1 := Nat.lt_succ_of_lt bound
    cases step with
    | spawn | orphan =>
      exact ⟨⟨answer, place⟩, by simpa [Board.spawn, spawnOrphan] using grown, aside rfl⟩
    | abort | complete | observe =>
      exact ⟨⟨answer, place⟩, by simpa [Board.abort, updateTask] using bound, aside rfl⟩
    | join =>
      refine ⟨⟨answer, ?_⟩, bound, aside rfl⟩
      rw [← place]
      exact List.getElem?_append_left (List.getElem?_eq_some_iff.mp place).1
    | @answer joiner entry told here replies =>
      refine ⟨?_, bound, ?_⟩
      · rw [joiner?_tell, place]
        split <;> exact ⟨_, rfl⟩
      · by_cases own : joiner = wait.joiner
        · subst own
          cases here.symm.trans place
          obtain ⟨waits, entry, held, answered⟩ := open_of_reply? replies
          cases there.symm.trans held
          refine awaits.answer stands (kept.answers_eq_nil ?_) answered
          rw [Board.answer?, place, Option.bind_some, waits]
        · exact aside (by simp [Event.answers, own])
  · cases step with
    | join _ bound =>
      have none_ : board.answer? board.joiners.length = none := by
        rw [Board.answer?, List.getElem?_eq_none (Nat.le_refl _)]
        rfl
      have stands := kept.tasks task _ (List.getElem?_eq_getElem bound)
      exact ⟨⟨none, List.getElem?_concat_length⟩, bound,
        .joined stands (kept.answers_eq_nil none_) timeout⟩

theorem step (kept : Kept past board) (step : Step board event after) :
    Kept (past ++ [(board.now, event)]) after where
  tasks := kept.step_tasks step
  fresh := by
    intro task far
    obtain ⟨before, ends, tells, begins⟩ := step.beyond far
    obtain ⟨fate_, known_, begun_⟩ := kept.fresh task before
    simp [fate_concat, known_concat, begun_concat, fate_, known_, begun_, ends, tells, begins]
  told := kept.step_told step
  waits := fun _ joined => kept.step_waits step joined

/-- A joiner that waits on at rest waits for a task that goes on, and still has time. -/
theorem untold (kept : Kept past board) (rest : board.Rest) {wait : Wait}
    (joined : Joined past wait) (none_ : answers past wait.joiner = []) :
    ∃ entry, board.task? wait.task = some entry ∧ entry.watched.told = none ∧
      board.now < wait.expires ∧
        ∃ timer, board.timer? = some timer ∧ timer ≤ wait.expires := by
  obtain ⟨⟨answer, place⟩, bound, awaits⟩ := kept.waits wait joined
  have there : board.task? wait.task = some board.tasks[wait.task] :=
    List.getElem?_eq_getElem bound
  have told := kept.told wait.joiner
  rw [none_, Board.answer?, place, List.map_nil, eq_comm, Option.toList_eq_nil_iff] at told
  obtain rfl : answer = none := told
  have member := List.mem_of_getElem? place
  obtain ⟨untold, time⟩ := (reply?_eq_none_iff rfl there).mp (rest.told _ member)
  exact ⟨_, there, untold, time, timer?_le_expires member rfl⟩

theorem pass (kept : Kept past board) (rest : board.step? = none) (later : board.now ≤ instant)
    (bounded : ∀ timer, board.timer? = some timer → instant ≤ timer) :
    Kept past { board with now := instant } where
  tasks := by
    intro task entry found
    have member : entry ∈ board.tasks := List.mem_of_getElem? found
    refine (kept.tasks task entry found).pass ((rest_iff.mp rest).recorded entry member) later ?_
    rintro going ⟨moment, exit⟩ plan
    obtain ⟨timer, next, within⟩ := timer?_le_plan member going plan
    exact Nat.le_trans (bounded timer next) within
  fresh := kept.fresh
  told := kept.told
  waits := by
    intro wait joined
    obtain ⟨place, bound, awaits⟩ := kept.waits wait joined
    have there : board.task? wait.task = some board.tasks[wait.task] :=
      List.getElem?_eq_getElem bound
    have rested := rest_iff.mp rest
    refine ⟨place, bound, awaits.pass (kept.tasks _ _ there)
      (rested.recorded _ (List.getElem_mem bound)) later fun none_ => ?_⟩
    obtain ⟨entry, held, untold, -, timer, next, within⟩ := kept.untold rested joined none_
    cases there.symm.trans held
    exact ⟨untold, Nat.le_trans (bounded timer next) within⟩

theorem empty : Kept ([] : History α) Board.empty where
  tasks := by simp [Board.task?, Board.empty]
  fresh := fun _ _ => ⟨rfl, rfl, rfl⟩
  told := fun _ => rfl
  waits := by
    rintro wait ⟨before, after, timeout, split, -⟩
    simp at split

end Kept

theorem Course.kept (course : Course empty past board) : Kept past board := by
  induction course with
  | start => exact .empty
  | next _ step ih => exact ih.step step
  | pass _ rest later bounded ih => exact ih.pass rest later bounded

/-! ## What is seen -/

/-- What is seen of a task at any moment: it has ended or not, what is recorded of it is how it ended,
and its work came to no other end than its own. -/
structure Shows (past : History α) (task : Nat) (entry : BoardTask) : Prop where
  finished : entry.watched.isFinished = (fate past task).isSome
  recorded : ∀ exit, entry.watched.seen = some exit →
    entry.watched.isFinished = true ∧ ∃ instant, fate past task = some (instant, exit)
  exact : ∀ instant exit, (instant, .complete task exit) ∈ past →
    planned past task = some (instant, exit)

/-- What is seen of a task at rest: its end is recorded, unless its watcher is gone, and its work has
not gone on beyond its end. -/
structure Settled (past : History α) (now task : Nat) (entry : BoardTask) : Prop where
  recorded : entry.watched.seen =
    if entry.watched.unwatched then none else (fate past task).map Prod.snd
  due : fate past task = none → ∀ end_ ∈ planned past task, now < end_.1

theorem Stands.shows (stands : Stands past now task entry) : Shows past task entry where
  finished := stands.isFinished
  recorded := by
    intro exit seen
    have ended : entry.watched.ended = some exit :=
      stands.told exit (by rw [Watched.told, seen])
    refine ⟨by rw [Watched.isFinished, ended]; rfl, ?_⟩
    rw [stands.ended, Option.map_eq_some_iff] at ended
    obtain ⟨⟨instant, _⟩, found, rfl⟩ := ended
    exact ⟨instant, found⟩
  exact := stands.exact

theorem Stands.settled (stands : Stands past now task entry)
    (recorded : entry.watched.unseen = false) (due : entry.due now = none) :
    Settled past now task entry where
  recorded := by
    rw [← stands.ended, ← stands.told_of_rest recorded, Watched.told]
    cases gone : entry.watched.unwatched with
    | true => rw [stands.unseen gone, if_pos rfl]
    | false => cases entry.watched.seen <;> rfl
  due := by
    rintro going ⟨instant, exit⟩ plan
    rw [← stands.plan] at plan
    exact (due_eq_none_iff (by rw [stands.isFinished, going]; rfl) plan).mp due

/-- An end that was seen stays as it was. -/
structure Keeps (before after : Watched) : Prop where
  ended : ∀ exit, before.ended = some exit → after.ended = some exit
  seen : ∀ exit, before.seen = some exit → after.seen = some exit

theorem Keeps.refl (watched : Watched) : Keeps watched watched := ⟨fun _ => id, fun _ => id⟩

theorem Keeps.finish (watched : Watched) (exit : Exit) : Keeps watched (watched.finish exit) := by
  unfold Watched.finish
  split
  · exact .refl _
  · rename_i going
    exact ⟨fun _ ended => (nomatch going.symm.trans ended), fun _ => id⟩

theorem Keeps.observe (watched : Watched) : Keeps watched watched.observe where
  ended := by
    unfold Watched.observe
    split <;> exact fun _ => id
  seen := fun exit seen => by
    rw [Watched.seen_observe_of_isSome (by rw [seen]; rfl), seen]

theorem keeps_updateTask {place : Nat} {change : Watched → Watched}
    (keeps : ∀ watched, Keeps watched (change watched)) (found : board.task? task = some entry) :
    ∃ next, (board.updateTask place change).task? task = some next ∧
      Keeps entry.watched next.watched := by
  rw [task?_updateTask, found]
  refine ⟨_, rfl, ?_⟩
  split
  · exact keeps entry.watched
  · exact .refl _

theorem Step.keeps (step : Step board event after) (found : board.task? task = some entry) :
    ∃ next, after.task? task = some next ∧ Keeps entry.watched next.watched := by
  cases step with
  | spawn | orphan =>
    exact ⟨entry, (List.getElem?_append_left (lt_of_task? found)).trans found, .refl _⟩
  | abort => exact keeps_updateTask (fun watched => .finish watched .aborted) found
  | complete => exact keeps_updateTask (fun watched => .finish watched _) found
  | observe => exact keeps_updateTask .observe found
  | join | answer => exact ⟨entry, found, .refl _⟩

theorem Course.keeps (onward : Course board more later) (found : board.task? task = some entry) :
    ∃ next, later.task? task = some next ∧ Keeps entry.watched next.watched := by
  induction onward with
  | start => exact ⟨entry, found, .refl _⟩
  | next _ step ih =>
    obtain ⟨former, there, first⟩ := ih
    obtain ⟨next, here, second⟩ := step.keeps there
    exact ⟨next, here, fun exit ended => second.ended exit (first.ended exit ended),
      fun exit seen => second.seen exit (first.seen exit seen)⟩
  | pass _ _ _ _ ih => exact ih

theorem abort_of_isFinished (found : board.task? task = some entry)
    (finished : entry.watched.isFinished = true) : board.abort task = board := by
  have same : board.tasks.modify task (fun entry =>
      { entry with watched := entry.watched.abort }) = board.tasks.modify task id :=
    modify_congr id found (by rw [Watched.abort, Watched.finish_of_isFinished finished]; rfl)
  rw [Board.abort, updateTask, same, List.modify_id]

/-- At rest a wait has been answered by what its task came to, and by nothing else. -/
theorem Kept.answered (kept : Kept past board) (rest : board.step? = none) {wait : Wait}
    (joined : Joined past wait) (apart : ¬ wait.Tied past) :
    answers past wait.joiner =
      [wait.reply (fate past wait.task)].filter (·.1 ≤ board.now) := by
  obtain ⟨-, -, awaits⟩ := kept.waits wait joined
  have told := kept.told wait.joiner
  cases all : answers past wait.joiner with
  | nil =>
    have rested := rest_iff.mp rest
    obtain ⟨entry, there, untold, time, -⟩ := kept.untold rested joined all
    have stands := kept.tasks _ _ there
    have going : fate past wait.task = none := by
      rw [stands.told_of_rest (rested.recorded _ (List.mem_of_getElem? there)), stands.ended,
        Option.map_eq_none_iff] at untold
      exact untold
    simp [going, Wait.reply, time]
  | cons first others =>
    obtain rfl : others = [] := by
      rw [all, List.map_cons] at told
      cases got : board.answer? wait.joiner <;> simp [got] at told
      exact told.2
    obtain ⟨instant, answer⟩ := first
    obtain ⟨bound, justified⟩ := awaits.answered instant answer (by rw [all]; simp)
    have same : wait.reply (fate past wait.task) = (instant, answer) := by
      cases answer with
      | some exit =>
        obtain ⟨ended, fate_, rfl, timely⟩ := justified
        have timely : (wait.early || decide (ended < wait.expires)) = true := by
          cases early : wait.early with
          | true => rfl
          | false =>
            have before : ended ≤ wait.expires := by simpa [early] using timely
            have other : ended ≠ wait.expires := by
              rintro rfl
              exact apart ⟨early, exit, fate_⟩
            simpa using Nat.lt_of_le_of_ne before other
        rw [fate_, Wait.reply, if_pos timely]
      | none =>
        obtain ⟨rfl, late, beyond⟩ := justified
        cases fate_ : fate past wait.task with
        | none => rfl
        | some end_ =>
          have beyond := beyond end_ fate_
          rw [Wait.reply, if_neg (by simpa [late] using beyond)]
    rw [same]
    simp [bound]

/-- Whatever comes in whatever order: a task ends once, as its work ends or by an abort, whichever is
first; what is recorded of it is that end and stays so, and an abort after it changes nothing. A
joiner gets one answer. At rest every end is recorded, and every wait is answered from the end of its
task alone, at once if joiners could be told of it before, else if it comes in time when it comes, and
with nothing when the time is up; only an end at that very instant leaves it open which of the two
it is. An answer touches no task and no other joiner. The program keeps to this, and time goes on
to any instant. -/
theorem exits_agreed (course : Course empty past board) :
    (∀ task entry, board.task? task = some entry → Shows past task entry ∧
      (entry.watched.isFinished = true → board.abort task = board) ∧
      (board.step? = none → Settled past board.now task entry)) ∧
    (∀ (more : History α) (later : Board), Course board more later →
      ∀ task entry, board.task? task = some entry →
        ∃ next, later.task? task = some next ∧ Keeps entry.watched next.watched) ∧
    (∀ joiner, (answers past joiner).map Prod.snd = (board.answer? joiner).toList) ∧
    (board.step? = none → ∀ wait, Joined past wait → ¬ wait.Tied past →
      answers past wait.joiner =
        [wait.reply (fate past wait.task)].filter (·.1 ≤ board.now)) ∧
    (∀ joiner told after, Step board (.answer joiner told : Event α) after →
      after.tasks = board.tasks ∧
        ∀ other ≠ joiner, after.joiners[other]? = board.joiners[other]?) ∧
    (∀ next, board.step? = some next → ∃ event : Event α, event.own = true ∧
      Step board event next) ∧
    ∀ instant ≥ board.now, ∃ (more : History α) (later : Board), Course board more later ∧
      later.step? = none ∧ later.now = instant ∧ ∀ moment ∈ more, moment.2.own = true := by
  have kept := course.kept
  have manned : board.Manned := course.manned (by simp [Manned, empty])
  refine ⟨fun task entry found => ?task, fun more later onward task entry => onward.keeps,
    kept.told, fun rest wait => kept.answered rest, fun joiner told after step => ?answer,
    fun next => step_of_step? α, fun instant later => (lively α).exists_later manned later⟩
  case task =>
    have stands := kept.tasks task entry found
    have member : entry ∈ board.tasks := List.mem_of_getElem? found
    refine ⟨stands.shows, abort_of_isFinished found, fun rest => ?_⟩
    have rested := rest_iff.mp rest
    exact stands.settled (rested.recorded entry member) (rested.due entry member)
  case answer =>
    cases step with
    | answer =>
      refine ⟨rfl, fun other apart => ?_⟩
      rw [joiner?_tell]
      simp [Ne.symm apart]

/-- A task of twenty milliseconds. The first joiner leaves too early; the second one is told of the
end when it comes; an abort comes too late, and then a joiner without any time. -/
def timely : History Unit := [
  (0, .spawn 0 ⟨20, some (.value ())⟩), (0, .join 0 0 10), (10, .answer 0 none),
  (10, .join 1 0 15), (20, .complete 0 .returned), (20, .observe 0),
  (20, .answer 1 (some .returned)), (20, .abort 0), (20, .join 2 0 0),
  (20, .answer 2 (some .returned))]

theorem exits_agreed_timely : ∃ board, Course empty timely board ∧ board.step? = none ∧
    answers timely 0 = [(10, none)] ∧ answers timely 1 = [(20, some .returned)] ∧
    answers timely 2 = [(20, some .returned)] := by
  have spawned : Course empty _ _ := .next .start (.spawn empty (⟨20, some (.value ())⟩ : Work Unit))
  have first := spawned.next (@Step.join _ _ 0 10 (by decide))
  have waited := @Clocked.Course.pass _ _ _ _ _ _ _ 10 first rfl (by decide) (by rintro _ ⟨⟩; decide)
  have missed := waited.next (@Step.answer _ _ 0 _ none rfl rfl)
  have second := missed.next (@Step.join _ _ 0 15 (by decide))
  have ran := @Clocked.Course.pass _ _ _ _ _ _ _ 20 second rfl (by decide) (by rintro _ ⟨⟩; decide)
  have ended := ran.next (@Step.complete _ _ 0 _ .returned rfl rfl)
  have recorded := ended.next (@Step.observe _ _ 0 _ rfl rfl)
  have told := recorded.next (@Step.answer _ _ 1 _ (some .returned) rfl rfl)
  have aborted := told.next (@Step.abort _ _ 0 (by decide))
  have third := aborted.next (@Step.join _ _ 0 0 (by decide))
  have all : Course empty timely _ := third.next (@Step.answer _ _ 2 _ (some .returned) rfl rfl)
  obtain ⟨-, -, -, answered, -⟩ := exits_agreed all
  refine ⟨_, all, rfl, ?_, ?_, ?_⟩
  · exact answered rfl ⟨0, 0, 0, 10, false⟩ ⟨timely.take 1, timely.drop 2, 10, rfl, rfl, rfl⟩
      (by rintro ⟨-, exit, tied⟩; cases tied)
  · exact answered rfl ⟨1, 0, 10, 25, false⟩ ⟨timely.take 3, timely.drop 4, 15, rfl, rfl, rfl⟩
      (by rintro ⟨-, exit, tied⟩; cases tied)
  · exact answered rfl ⟨2, 0, 20, 20, true⟩ ⟨timely.take 8, timely.drop 9, 0, rfl, rfl, rfl⟩
      (by rintro ⟨late, -⟩; cases late)

end ServiceHost.Board
