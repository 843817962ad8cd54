import ServiceHost.Proofs.Executor.Permits
import ServiceHost.Proofs.Executor.Reference

/-! Schedules of calls, and what is seen of a run under one.

A schedule is a list of calls, each with the instant at which it comes. Whatever is ready
runs before time goes on and before the next call comes; where several works are ready at
one instant, any of them may be first.
-/

set_option autoImplicit false

namespace ServiceHost.Calls

variable {ρ : Type} {capacity id now instant : Nat} {calls next : Calls ρ}

/-! ## What is seen -/

inductive Happening (ρ : Type) where
  | began (id : Nat)
  | ended (id : Nat)
  | answered (id : Nat) (answer : Except CallError ρ)

/-- What has happened, oldest first, each with its instant. -/
abbrev Log (ρ : Type) := List (Nat × Happening ρ)

/-- Happenings of one instant, as they are noted. -/
def noted (now : Nat) (happenings : List (Happening ρ)) : Log ρ :=
  happenings.map fun happening => (now, happening)

namespace Log

variable (id : Nat) (log more : Log ρ)

/-- The instants at which the work of a call began. -/
def begun : List Nat := log.filterMap fun
  | (instant, .began other) => if other = id then some instant else none
  | _ => none

/-- The instants at which the work of a call ended. -/
def ended : List Nat := log.filterMap fun
  | (instant, .ended other) => if other = id then some instant else none
  | _ => none

/-- What the caller was told, and when. -/
def answers : List (Nat × Except CallError ρ) := log.filterMap fun
  | (instant, .answered other answer) => if other = id then some (instant, answer) else none
  | _ => none

/-- Nothing is seen of a call. -/
structure Blank : Prop where
  begun : log.begun id = []
  ended : log.ended id = []
  answers : log.answers id = []

@[simp] theorem begun_append : (log ++ more).begun id = log.begun id ++ more.begun id :=
  List.filterMap_append

@[simp] theorem ended_append : (log ++ more).ended id = log.ended id ++ more.ended id :=
  List.filterMap_append

@[simp] theorem answers_append : (log ++ more).answers id = log.answers id ++ more.answers id :=
  List.filterMap_append

end Log

/-- The answers that have come in between. -/
def replies (before after : Executor (Progress ρ) ρ) : List (Happening ρ) :=
  (after.answers.drop before.answers.length).map fun entry => .answered entry.1 entry.2

/-! ## Runs -/

/-- One thing that is ready happens. Deadlines come first. -/
inductive Turn : Calls ρ → List (Happening ρ) → Calls ρ → Prop where
  | deadlines {calls : Calls ρ} : calls.executor.overdue calls.now = true →
      Turn calls (replies calls.executor (calls.executor.expire calls.now))
        { calls with executor := calls.executor.expire calls.now }
  | begin {calls : Calls ρ} {call : Running (Progress ρ)} {work : Work ρ} :
      calls.executor.overdue calls.now = false →
      call ∈ calls.executor.running → call.work = .fresh work →
      Turn calls [.began call.request.id]
        { calls with
          executor := calls.executor.continueWith call.request.id
            (.under (work.endFrom calls.now)) }
  | finish {calls : Calls ρ} {call : Running (Progress ρ)} {instant : Nat} {ending : Ending ρ} :
      calls.executor.overdue calls.now = false →
      call ∈ calls.executor.running → call.work = .under (some (instant, ending)) →
      instant ≤ calls.now →
      Turn calls
        (.ended call.request.id ::
          replies calls.executor (calls.executor.finish call.request.id ending))
        { calls with executor := calls.executor.finish call.request.id ending }

/-- Everything that can become of an executor under a schedule, with all that is seen of it. -/
inductive Run (capacity : Nat) : List (Arrival ρ) → Log ρ → Calls ρ → Prop where
  | start : Run capacity [] [] (start capacity)
  | call {arrivals : List (Arrival ρ)} {log : Log ρ} {calls : Calls ρ} {arrival : Arrival ρ} :
      Run capacity arrivals log calls → calls.step? = none → arrival.instant = calls.now →
      Run capacity (arrivals ++ [arrival]) log
        (calls.submit arrival.operation arrival.deadline (.fresh arrival.work))
  | turn {arrivals : List (Arrival ρ)} {log : Log ρ} {calls next : Calls ρ}
      {happenings : List (Happening ρ)} :
      Run capacity arrivals log calls → Turn calls happenings next →
      Run capacity arrivals (log ++ noted calls.now happenings) next
  | pass {arrivals : List (Arrival ρ)} {log : Log ρ} {calls : Calls ρ} {instant : Nat} :
      Run capacity arrivals log calls → calls.step? = none → calls.now ≤ instant →
      (∀ timer, calls.timer? = some timer → instant ≤ timer) →
      Run capacity arrivals log { calls with now := instant }

/-- Work that was submitted as it is never stands before its cancellation, and then a run takes
every step of the program. -/
theorem turn_of_step? (sound : ∀ call ∈ calls.executor.running, call.work ≠ .doomed)
    (step : calls.step? = some next) : ∃ happenings, Turn calls happenings next := by
  unfold step? at step
  split at step
  · rename_i overdue
    cases step
    exact ⟨_, .deadlines overdue⟩
  · rename_i timely
    rw [Bool.not_eq_true] at timely
    obtain ⟨executor, moved, rfl⟩ := Option.map_eq_some_iff.mp step
    obtain ⟨call, member, moved⟩ := List.exists_of_findSome?_eq_some moved
    unfold move at moved
    split at moved
    · rename_i work fresh
      cases moved
      exact ⟨_, .begin timely member fresh⟩
    · rename_i doomed
      exact absurd doomed (sound call member)
    · rename_i instant ending plan
      split at moved
      · rename_i due
        cases moved
        exact ⟨_, .finish timely member plan due⟩
      · cases moved
    · cases moved

theorem Turn.step {happenings : List (Happening ρ)} (turn : Turn calls happenings next) :
    ∃ event, calls.executor.Step event next.executor := by
  cases turn with
  | deadlines => exact ⟨_, .deadlines ..⟩
  | begin => exact ⟨_, .goOn ..⟩
  | finish _ member => exact ⟨_, .finish _ member⟩

/-- What is said of the permits of any executor is said of one under a schedule. -/
theorem Run.course {arrivals : List (Arrival ρ)} {log : Log ρ}
    (run : Run capacity arrivals log calls) :
    ∃ granted ended, Executor.Course capacity granted ended calls.executor := by
  induction run with
  | start => exact ⟨_, _, .start⟩
  | call _ _ _ ih =>
    obtain ⟨granted, ended, course⟩ := ih
    exact ⟨_, _, course.next (.arrive ..)⟩
  | turn _ turn ih =>
    obtain ⟨granted, ended, course⟩ := ih
    obtain ⟨event, step⟩ := turn.step
    exact ⟨_, _, course.next step⟩
  | pass _ _ _ _ ih => exact ih

/-! ## Rest -/

/-- The instants for which something is planned. -/
inductive Due (calls : Calls ρ) : Nat → Prop where
  | waiting {call : Request × Progress ρ} :
      call ∈ calls.executor.queue → Due calls call.1.expires
  | awaited {call : Running (Progress ρ)} :
      call ∈ calls.executor.running → call.awaited = true → Due calls call.request.expires
  | ends {call : Running (Progress ρ)} {instant : Nat} {ending : Ending ρ} :
      call ∈ calls.executor.running → call.work = .under (some (instant, ending)) →
      Due calls instant

/-- The next timer is no later than anything that is planned. -/
theorem Due.timer? (due : Due calls instant) :
    ∃ timer, calls.timer? = some timer ∧ timer ≤ instant := by
  cases due with
  | waiting member =>
    exact earlier_le (.inl (earlier_le (.inl (earliest_le (List.mem_map.mpr ⟨_, member, rfl⟩)))))
  | awaited member awaited =>
    refine earlier_le (.inl (earlier_le (.inr (earliest_le (List.mem_map.mpr ⟨_, member, ?_⟩)))))
    rw [if_pos awaited]
  | ends member plan =>
    refine earlier_le (.inr (earliest_le (List.mem_map.mpr ⟨_, member, ?_⟩)))
    rw [plan]
    rfl

theorem due_of_timer? (timer : calls.timer? = some instant) : Due calls instant := by
  rcases earlier_cases timer with deadline | ends
  · rcases earlier_cases deadline with waiting | awaited
    · obtain ⟨call, member, expires⟩ := List.mem_map.mp (earliest_mem waiting)
      cases expires
      exact .waiting member
    · obtain ⟨call, member, expires⟩ := List.mem_map.mp (earliest_mem awaited)
      split at expires
      · cases expires
        exact .awaited member ‹_›
      · cases expires
  · obtain ⟨call, member, plan⟩ := List.mem_map.mp (earliest_mem ends)
    split at plan
    · rename_i under
      obtain ⟨⟨_, ending⟩, rfl, rfl⟩ := Option.map_eq_some_iff.mp plan
      exact .ends member under
    · cases plan

theorem timely_of_rest (rest : calls.step? = none) :
    calls.executor.overdue calls.now = false := by
  unfold step? at rest
  split at rest
  · cases rest
  · exact Bool.eq_false_iff.mpr ‹_›

theorem still_of_rest (rest : calls.step? = none) {call : Running (Progress ρ)}
    (member : call ∈ calls.executor.running) : move calls.now calls.executor call = none := by
  unfold step? at rest
  split at rest
  · cases rest
  · exact List.findSome?_eq_none_iff.mp (Option.map_eq_none_iff.mp rest) call member

theorem under_of_rest (rest : calls.step? = none) {call : Running (Progress ρ)}
    (member : call ∈ calls.executor.running) : ∃ plan, call.work = .under plan := by
  have still := still_of_rest rest member
  unfold move at still
  split at still
  · cases still
  · cases still
  · exact ⟨_, ‹_›⟩
  · exact ⟨_, ‹_›⟩

theorem lt_of_timely_of_queued {executor : Executor (Progress ρ) ρ}
    (timely : executor.overdue now = false) {call : Request × Progress ρ}
    (member : call ∈ executor.queue) : now < call.1.expires := by
  simp only [Executor.overdue, Bool.or_eq_false_iff, List.any_eq_false] at timely
  simpa using timely.1 call member

theorem lt_of_timely_of_awaited {executor : Executor (Progress ρ) ρ}
    (timely : executor.overdue now = false) {call : Running (Progress ρ)}
    (member : call ∈ executor.running) (awaited : call.awaited = true) :
    now < call.request.expires := by
  simp only [Executor.overdue, Bool.or_eq_false_iff, List.any_eq_false] at timely
  simpa [awaited] using timely.2 call member

theorem Due.later (due : Due calls instant) (rest : calls.step? = none) : calls.now < instant := by
  have timely := timely_of_rest rest
  cases due with
  | waiting member => exact lt_of_timely_of_queued timely member
  | awaited member awaited => exact lt_of_timely_of_awaited timely member awaited
  | ends member plan =>
    have still := still_of_rest rest member
    simp only [move, plan] at still
    split at still
    · cases still
    · omega

end ServiceHost.Calls
