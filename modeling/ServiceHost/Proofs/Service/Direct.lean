import ServiceHost.Proofs.Service.Threaded
import ServiceHost.Service.Alone

/-! A service with a run loop that is called directly, with every choice left open.

A call begins as soon as it is made. Runs go on, killed ones are dropped, watchers look and the stops
that wait are answered in any order. Time passes only while no call could be answered, and never
beyond the grace of a stop.
-/

set_option autoImplicit false

namespace ServiceHost.Alone

variable {first alone after : Alone} {made : List (Nat × Query)} {instant : Nat}

/-- Whether time may pass up to an instant, as far as the calls are concerned. -/
def lets (alone : Alone) (instant : Nat) : Bool :=
  alone.calls.all fun call =>
    (alone.service.goOn alone.now call.1 call.2).isNone &&
      call.2.timer?.all fun expires => instant ≤ expires

/-- What may happen between two calls. -/
inductive Moves (alone : Alone) : Alone → Prop where
  | goes {place : Nat} {query : Query} {phase later : Phase} {service : Threaded} :
      alone.calls[place]? = some (query, phase) →
      alone.service.goOn alone.now query phase = some (later, service) →
      Moves alone { alone with service, calls := alone.calls.set place (query, later) }
  /-- A run goes on, whether or not the callers still hold the service. -/
  | runs {place : Nat} {run : Run} {closed : Bool} {service : Threaded} :
      alone.service.live[place]? = some run →
      alone.service.goAt? alone.now closed place run = some service →
      Moves alone { alone with service }
  | reaps {place : Nat} {service : Threaded} :
      alone.service.reap? place = some service → Moves alone { alone with service }
  | records {generation : Nat} {service : Threaded} :
      alone.service.look? generation = some service → Moves alone { alone with service }
  | configured (config : Properties) :
      Moves alone { alone with service := { alone.service with config } }
  | waits {instant : Nat} :
      alone.now ≤ instant → alone.lets instant = true → Moves alone { alone with now := instant }

/-- A run of direct calls, with the instants and the queries of all calls that were made. -/
inductive Run (first : Alone) : List (Nat × Query) → Alone → Prop where
  | start : Run first [] first
  | called {made : List (Nat × Query)} {alone : Alone} (query : Query) :
      Run first made alone → Run first (made ++ [(alone.now, query)]) (alone.call query)
  | moved {made : List (Nat × Query)} {alone after : Alone} :
      Run first made alone → alone.Moves after → Run first made after

/-! ## The service under the clock -/

theorem step?_cases (step : alone.step? = some after) :
    (∃ service, alone.service.step? alone.now false = some service ∧
        after = { alone with service }) ∨
      ∃ place query phase later service, alone.calls[place]? = some (query, phase) ∧
        alone.service.goOn alone.now query phase = some (later, service) ∧
        after = { alone with service, calls := alone.calls.set place (query, later) } := by
  unfold Alone.step? at step
  split at step
  · rename_i service lives
    cases step
    exact .inl ⟨service, lives, rfl⟩
  · obtain ⟨⟨⟨query, phase⟩, place⟩, member, goes⟩ := List.exists_of_findSome?_eq_some step
    obtain ⟨⟨later, service⟩, went, rfl⟩ := Option.map_eq_some_iff.mp goes
    exact .inr ⟨place, query, phase, later, service,
      List.mk_mem_zipIdx_iff_getElem?.mp member, went, rfl⟩

theorem moves_of_step? (step : alone.step? = some after) : alone.Moves after := by
  rcases step?_cases step with ⟨service, lives, rfl⟩ | ⟨_, _, _, _, _, there, went, rfl⟩
  · rcases Threaded.step?_cases lives with reaped | ⟨_, _, there, goes⟩ | ⟨_, _, _, _, looked⟩
    · exact .reaps reaped
    · exact .runs there goes
    · exact .records looked
  · exact .goes there went

/-- When nothing is ready, neither is the service, nor is there an answer to a call. -/
theorem service_quiet (quiet : alone.step? = none) :
    alone.service.step? alone.now false = none := by
  unfold Alone.step? at quiet
  split at quiet
  · cases quiet
  · assumption

theorem goOn_quiet (quiet : alone.step? = none) {query : Query} {phase : Phase}
    (member : (query, phase) ∈ alone.calls) : alone.service.goOn alone.now query phase = none := by
  unfold Alone.step? at quiet
  split at quiet
  · cases quiet
  · obtain ⟨place, there⟩ := List.getElem?_of_mem member
    have nothing := List.findSome?_eq_none_iff.mp quiet ((query, phase), place)
      (List.mk_mem_zipIdx_iff_getElem?.mpr there)
    exact Option.map_eq_none_iff.mp nothing

/-- The clock stands still while a call could be answered, and stops at every timer. -/
theorem lets_of_quiet (quiet : alone.step? = none)
    (soon : alone.timer?.all (fun timer => instant ≤ timer) = true) :
    alone.lets instant = true := by
  refine List.all_eq_true.mpr fun ⟨query, phase⟩ member => Bool.and_eq_true_iff.mpr ⟨?_, ?_⟩
  · exact Option.isNone_iff_eq_none.mpr (goOn_quiet quiet member)
  · cases timer : phase.timer? with
    | none => rfl
    | some expires =>
      have among : some expires ∈ alone.calls.map fun call => call.2.timer? :=
        List.mem_map.mpr ⟨(query, phase), member, timer⟩
      obtain ⟨next, known, bound⟩ : ∃ next, alone.timer? = some next ∧ next ≤ expires :=
        earlier_le (.inr (earliest_le among))
      rw [known, Option.all_some, decide_eq_true_eq] at soon
      exact decide_eq_true (Nat.le_trans soon bound)

/-- Whatever the clocked service does at one instant is among these runs. -/
theorem Run.clocked (run : Run first made alone) (steps : Nat) :
    Run first made (Clocked.run steps alone) := by
  induction steps generalizing alone with
  | zero => exact run
  | succ steps ih =>
    cases step : alone.step? with
    | none => simpa [Clocked.run, Clocked.step?, step] using run
    | some next =>
      have onward := ih (run.moved (moves_of_step? step))
      simpa [Clocked.run, Clocked.step?, step] using onward

/-- So is the time that the clock lets pass. -/
theorem Run.passes (run : Run first made alone) (later : alone.now ≤ instant)
    (quiet : alone.step? = none)
    (soon : alone.timer?.all (fun timer => instant ≤ timer) = true) :
    Run first made (Clocked.setNow instant alone) :=
  run.moved (.waits later (lets_of_quiet quiet soon))

end ServiceHost.Alone
