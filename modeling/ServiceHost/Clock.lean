/-! Systems under a clock that stands still while anything is ready to run.

Instants are milliseconds. When nothing is ready, the clock jumps to the next timer, so
a run visits every instant at which something happens and no other. -/

set_option autoImplicit false

namespace ServiceHost

class Clocked (σ : Type) where
  now : σ → Nat
  setNow : Nat → σ → σ
  /-- Runs one thing that is ready at this instant, if there is one. -/
  step? : σ → Option σ
  /-- The next instant at which something becomes ready by itself. -/
  timer? : σ → Option Nat

namespace Clocked

variable {σ α : Type} [Clocked σ]

/-- Runs what is ready, no more than `steps` things. -/
def run : Nat → σ → σ
  | 0, system => system
  | steps + 1, system =>
    match step? system with
    | some next => run steps next
    | none => system

/-- The number of things that may run at one instant; a system that never comes to rest at an
instant is cut off there. -/
def patience : Nat := 100000000

def settle (system : σ) : σ := run patience system

/-- Goes from timer to timer as long as they are due by `target`, then waits for `target`. Time
moves at every jump, so there are no more jumps than milliseconds. -/
def elapse (target : Nat) : Nat → σ → σ
  | 0, system => settle (setNow target system)
  | jumps + 1, system =>
    match timer? system with
    | some instant =>
      if instant ≤ target then elapse target jumps (settle (setNow instant system))
      else setNow target system
    | none => setNow target system

/-- Lets `millis` pass. Timers that are due at the end of the span fire. -/
def advance (millis : Nat) (system : σ) : σ :=
  elapse (now system + millis) (millis + 1) (settle system)

/-- Goes from timer to timer until there is a result, for no more than `jumps` jumps. A system
without timers never gets one. -/
def awaitWithin (result? : σ → Option α) : Nat → σ → Option α × σ
  | 0, system => (result? system, system)
  | jumps + 1, system =>
    match result? system with
    | some result => (some result, system)
    | none =>
      match timer? system with
      | some instant => awaitWithin result? jumps (settle (setNow instant system))
      | none => (none, system)

/-- No wait takes more jumps than this. -/
def horizon : Nat := 1152921504606846976

def await (result? : σ → Option α) (system : σ) : Option α × σ :=
  awaitWithin result? horizon (settle system)

end Clocked

def earlier : Option Nat → Option Nat → Option Nat
  | some first, some second => some (min first second)
  | first, none => first
  | none, second => second

def earliest (instants : List (Option Nat)) : Option Nat := instants.foldl earlier none

theorem earlier_le_left (first : Nat) (second : Option Nat) :
    ∃ sooner, earlier (some first) second = some sooner ∧ sooner ≤ first := by
  cases second with
  | none => exact ⟨first, rfl, Nat.le_refl _⟩
  | some second => exact ⟨_, rfl, Nat.min_le_left ..⟩

theorem earlier_le_right (first : Option Nat) (second : Nat) :
    ∃ sooner, earlier first (some second) = some sooner ∧ sooner ≤ second := by
  cases first with
  | none => exact ⟨second, rfl, Nat.le_refl _⟩
  | some first => exact ⟨_, rfl, Nat.min_le_right ..⟩

theorem earlier_le {first second : Option Nat} {bound : Nat}
    (known : (∃ instant, first = some instant ∧ instant ≤ bound) ∨
      ∃ instant, second = some instant ∧ instant ≤ bound) :
    ∃ sooner, earlier first second = some sooner ∧ sooner ≤ bound := by
  rcases known with ⟨instant, rfl, before⟩ | ⟨instant, rfl, before⟩
  · obtain ⟨sooner, step, lower⟩ := earlier_le_left instant second
    exact ⟨sooner, step, Nat.le_trans lower before⟩
  · obtain ⟨sooner, step, lower⟩ := earlier_le_right first instant
    exact ⟨sooner, step, Nat.le_trans lower before⟩

theorem foldl_earlier_le {instants : List (Option Nat)} {start : Option Nat} {instant : Nat}
    (known : (∃ first, start = some first ∧ first ≤ instant) ∨ some instant ∈ instants) :
    ∃ sooner, instants.foldl earlier start = some sooner ∧ sooner ≤ instant := by
  -- The bound is met by what the fold has found so far, or is still to come.
  induction instants generalizing start with
  | nil =>
    rcases known with first | member
    · exact first
    · cases member
  | cons next rest ih =>
    apply ih
    rcases known with ⟨first, rfl, bound⟩ | member
    · obtain ⟨sooner, step, lower⟩ := earlier_le_left first next
      exact .inl ⟨sooner, step, Nat.le_trans lower bound⟩
    · rcases List.mem_cons.mp member with rfl | member
      · exact .inl (earlier_le_right start instant)
      · exact .inr member

theorem earliest_le {instants : List (Option Nat)} {instant : Nat}
    (member : some instant ∈ instants) :
    ∃ sooner, earliest instants = some sooner ∧ sooner ≤ instant :=
  foldl_earlier_le (.inr member)

theorem earlier_cases {first second : Option Nat} {instant : Nat}
    (found : earlier first second = some instant) :
    first = some instant ∨ second = some instant := by
  cases first with
  | none =>
    cases second with
    | none => cases found
    | some second => exact .inr found
  | some first =>
    cases second with
    | none => exact .inl found
    | some second =>
      simp only [earlier, Option.some.injEq] at found ⊢
      omega

theorem foldl_earlier_mem {instants : List (Option Nat)} {start : Option Nat} {instant : Nat}
    (found : instants.foldl earlier start = some instant) :
    start = some instant ∨ some instant ∈ instants := by
  induction instants generalizing start with
  | nil => exact .inl found
  | cons next rest ih =>
    rcases ih found with first | member
    · rcases earlier_cases first with before | last
      · exact .inl before
      · exact .inr (last ▸ List.mem_cons_self)
    · exact .inr (List.mem_cons_of_mem _ member)

theorem earliest_mem {instants : List (Option Nat)} {instant : Nat}
    (found : earliest instants = some instant) : some instant ∈ instants :=
  (foldl_earlier_mem found).resolve_left fun none => nomatch none

end ServiceHost
