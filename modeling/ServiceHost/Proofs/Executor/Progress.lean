import Mathlib.Algebra.Order.BigOperators.Group.List
import Mathlib.Algebra.Order.Ring.Nat
import ServiceHost.Proofs.Executor.Following

/-! Every schedule is run to its end.

There is only so much to do at one instant, so whatever is ready is done; and a clock that
goes from timer to timer comes to every instant.
-/

set_option autoImplicit false

namespace ServiceHost.Calls

variable {ρ : Type} {capacity instant : Nat} {calls next : Calls ρ}
  {executor : Executor (Progress ρ) ρ} {log : Log ρ} {arrivals : List (Arrival ρ)}

/-! ## Chores -/

/-- Work is still to begin and to end, or only to end. -/
def toil : Progress ρ → Nat
  | .fresh _ => 2
  | _ => 1

/-- What is left to do for a call that has a permit. Its caller may have to be told, too. -/
def weight (call : Running (Progress ρ)) : Nat := (if call.awaited then 1 else 0) + toil call.work

/-- What is left to do. A call in line weighs more than one that has just got its permit. -/
def chores (executor : Executor (Progress ρ) ρ) : Nat :=
  4 * executor.queue.length + (executor.running.map weight).sum

theorem toil_cases (work : Progress ρ) : toil work = 1 ∨ toil work = 2 := by
  cases work with
  | fresh => exact .inr rfl
  | doomed | under => exact .inl rfl

theorem chores_expire (overdue : executor.overdue instant = true) :
    chores (executor.expire instant) < chores executor := by
  have lighter : ∀ call ∈ executor.running,
      weight { call with awaited := call.awaited && !decide (call.request.expires ≤ instant) } ≤
        weight call := by
    intro call _
    refine Nat.add_le_add_right ?_ _
    cases call.awaited with
    | true => simp only [ite_true]; split <;> omega
    | false => exact Nat.le_refl _
  have fewer : (executor.queue.filter fun call => !decide (call.1.expires ≤ instant)).length ≤
      executor.queue.length := List.length_filter_le ..
  simp only [Executor.overdue, Bool.or_eq_true, List.any_eq_true, decide_eq_true_eq,
    Bool.and_eq_true] at overdue
  simp only [chores, Executor.expire, List.map_map, Function.comp_def]
  rcases overdue with ⟨call, member, late⟩ | ⟨call, member, awaited, late⟩
  · have strictly : (executor.queue.filter fun call => !decide (call.1.expires ≤ instant)).length <
        executor.queue.length :=
      List.length_filter_lt_length_iff_exists.mpr ⟨call, member, by simpa using late⟩
    have := List.sum_le_sum lighter
    omega
  · have := List.sum_lt_sum _ _ lighter ⟨call, member, by simp [weight, awaited, late]⟩
    omega

theorem chores_begin {call : Running (Progress ρ)}
    (member : call ∈ executor.running) {work : Work ρ} (fresh : call.work = .fresh work)
    (plan : Option (Nat × Ending ρ)) :
    chores (executor.continueWith call.request.id (.under plan)) < chores executor := by
  have lighter : ∀ other ∈ executor.running, weight (if other.request.id == call.request.id then
      { other with work := .under plan } else other) ≤ weight other := by
    intro other there
    split
    · refine Nat.add_le_add_left (?_ : 1 ≤ toil other.work) _
      rcases toil_cases other.work with toil | toil <;> omega
    · exact Nat.le_refl _
  have strictly := List.sum_lt_sum _ _ lighter ⟨call, member, by simp [weight, toil, fresh]⟩
  simp only [chores, Executor.continueWith, List.map_map, Function.comp_def]
  omega

theorem chores_finish (orderly : executor.Orderly) {call : Running (Progress ρ)}
    (member : call ∈ executor.running) (ending : Ending ρ) :
    chores (executor.finish call.request.id ending) < chores executor := by
  have parts : ∃ freed, (executor.finish call.request.id ending).running = _ ∧
      (executor.finish call.request.id ending).queue = executor.queue.drop freed :=
    Executor.conclude_parts ..
  obtain ⟨freed, running, queue⟩ := parts
  have split := ((List.filter_append_perm (fun other => other.request.id == call.request.id)
    executor.running).map weight).sum_nat
  rw [filter_eq_singleton orderly.once member, List.map_append, List.sum_append, List.map_singleton,
    List.sum_singleton] at split
  have served : ((executor.queue.take freed).map (weight ∘ Executor.admitted)).sum ≤
      (executor.queue.take freed).length * 3 := by
    rw [← List.length_map (weight ∘ Executor.admitted)]
    refine List.sum_le_card_nsmul _ 3 fun total member => ?_
    obtain ⟨waiting, _, rfl⟩ := List.mem_map.mp member
    have : weight (Executor.admitted waiting) = 1 + toil waiting.2 := rfl
    rcases toil_cases waiting.2 with toil | toil <;> simp only [Function.comp_apply] <;> omega
  have line : (executor.queue.take freed).length + (executor.queue.drop freed).length =
      executor.queue.length := by
    rw [← List.length_append, List.take_append_drop]
  have own : 1 ≤ weight call := by
    unfold weight
    rcases toil_cases call.work with toil | toil <;> omega
  simp only [chores, running, queue, List.map_append, List.sum_append, List.map_map]
  omega

theorem Turn.chores_lt {happenings : List (Happening ρ)} (turn : Turn calls happenings next)
    (orderly : calls.executor.Orderly) : chores next.executor < chores calls.executor := by
  cases turn with
  | deadlines overdue => exact chores_expire overdue
  | begin _ member fresh => exact chores_begin member fresh _
  | finish _ member => exact chores_finish orderly member _

/-! ## Rest -/

/-- A schedule has been run up to an instant, and nothing is ready any more. -/
structure Reached (capacity : Nat) (arrivals : List (Arrival ρ)) (instant : Nat) (log : Log ρ)
    (calls : Calls ρ) : Prop where
  run : Run capacity arrivals log calls
  rest : calls.step? = none
  now : calls.now = instant

theorem Turn.now {happenings : List (Happening ρ)} (turn : Turn calls happenings next) :
    next.now = calls.now := by
  cases turn <;> rfl

theorem Run.not_doomed (run : Run capacity arrivals log calls) {call : Running (Progress ρ)}
    (member : call ∈ calls.executor.running) : call.work ≠ .doomed := by
  intro doomed
  obtain ⟨_, _, goes⟩ := run.follows.goes call member
  rcases goes.work with ⟨fresh, _⟩ | ⟨under, _⟩
  · rw [doomed] at fresh
    cases fresh
  · rw [doomed] at under
    cases under

theorem Run.exists_turn (run : Run capacity arrivals log calls) (step : calls.step? = some next) :
    ∃ happenings, Turn calls happenings next :=
  turn_of_step? (fun _ => run.not_doomed) step

theorem Run.settles (run : Run capacity arrivals log calls) :
    ∃ log' rested, Reached capacity arrivals calls.now log' rested := by
  -- Every turn leaves less to do.
  induction left : chores calls.executor using Nat.strongRecOn generalizing log calls with
  | ind left ih =>
    cases step : calls.step? with
    | none => exact ⟨log, calls, run, step, rfl⟩
    | some next =>
      obtain ⟨happenings, turn⟩ := run.exists_turn step
      have less := turn.chores_lt run.follows.orderly
      rw [← turn.now]
      exact ih _ (by omega) (run.turn turn) rfl

theorem Reached.elapses {now : Nat} (reached : Reached capacity arrivals now log calls)
    (later : now ≤ instant) : ∃ log' rested, Reached capacity arrivals instant log' rested := by
  induction span : instant - now using Nat.strongRecOn generalizing log calls now with
  | ind span ih =>
    obtain ⟨run, rest, rfl⟩ := reached
    rcases Nat.eq_or_lt_of_le later with rfl | before
    · exact ⟨log, calls, run, rest, rfl⟩
    -- The clock goes on to the next timer, or as far as it shall.
    · obtain ⟨moment, progress, within, clock⟩ : ∃ moment, calls.now < moment ∧
          moment ≤ instant ∧ ∀ timer, calls.timer? = some timer → moment ≤ timer := by
        cases found : calls.timer? with
        | none => exact ⟨instant, before, Nat.le_refl _, nofun⟩
        | some timer =>
          have := (due_of_timer? found).later rest
          refine ⟨min timer instant, by omega, Nat.min_le_right .., fun other same => ?_⟩
          rw [← Option.some.inj same]
          exact Nat.min_le_left ..
      obtain ⟨log', rested, settled⟩ := (run.pass rest (Nat.le_of_lt progress) clock).settles
      exact ih (instant - moment) (by omega) settled within rfl

/-- Any schedule can be run up to any instant after its calls. -/
theorem exists_reached (capacity : Nat) (sorted : arrivals.Pairwise (·.instant ≤ ·.instant))
    (come : ∀ arrival ∈ arrivals, arrival.instant ≤ instant) :
    ∃ log calls, Reached capacity arrivals instant log calls := by
  induction arrivals using List.reverseRecOn generalizing instant with
  | nil =>
    have run : Run capacity [] [] (start capacity : Calls ρ) := .start
    obtain ⟨log, calls, settled⟩ := run.settles
    exact settled.elapses (Nat.zero_le _)
  | append_singleton arrivals arrival ih =>
    obtain ⟨sorted, _, last⟩ := List.pairwise_append.mp sorted
    obtain ⟨log, calls, run, rest, now⟩ :=
      ih sorted fun other member => last other member arrival (List.mem_singleton_self _)
    obtain ⟨log', rested, settled⟩ := (run.call rest now.symm).settles
    refine settled.elapses ?_
    rw [submit, now]
    exact come arrival (List.mem_append_right _ (List.mem_singleton_self _))

end ServiceHost.Calls
