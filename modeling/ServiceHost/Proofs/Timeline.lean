import ServiceHost.Clock

/-! Everything that can become of a system under a clock.

Of what can happen at an instant anything may be next. Time goes on when nothing is ready, and only
up to the next timer. -/

set_option autoImplicit false

namespace ServiceHost.Clocked

variable {σ ε : Type} [Clocked σ]

/-- What can become of a system, with all that has happened, oldest first, each with its instant. -/
inductive Course (Step : σ → ε → σ → Prop) (start : σ) : List (Nat × ε) → σ → Prop where
  | start : Course Step start [] start
  | next {past : List (Nat × ε)} {system after : σ} {event : ε} :
      Course Step start past system → Step system event after →
      Course Step start (past ++ [(now system, event)]) after
  | pass {past : List (Nat × ε)} {system : σ} {instant : Nat} :
      Course Step start past system → step? system = none → now system ≤ instant →
      (∀ timer, timer? system = some timer → instant ≤ timer) →
      Course Step start past (setNow instant system)

variable {Step : σ → ε → σ → Prop} {start system after : σ} {past more : List (Nat × ε)}
  {instant : Nat}

theorem Course.trans (course : Course Step start past system)
    (onward : Course Step system more after) : Course Step start (past ++ more) after := by
  induction onward with
  | start => rwa [List.append_nil]
  | next _ step ih =>
    rw [← List.append_assoc]
    exact ih.next step
  | pass _ rest later bounded ih => exact ih.pass rest later bounded

/-- What the program runs at one instant is a course of its own steps. -/
theorem Course.ran {own : ε → Bool} (lawful : ∀ system after, step? system = some after →
      ∃ event, own event = true ∧ Step system event after) (steps : Nat) (system : σ) :
    ∃ more, Course Step system more (run steps system) ∧ ∀ moment ∈ more, own moment.2 = true := by
  induction steps generalizing system with
  | zero => exact ⟨[], .start, by simp⟩
  | succ steps ih =>
    rw [run]
    cases found : step? system with
    | none => exact ⟨[], .start, by simp⟩
    | some next =>
      obtain ⟨event, owned, step⟩ := lawful system next found
      obtain ⟨more, onward, all⟩ := ih next
      exact ⟨_, (Course.start.next step).trans onward, List.forall_mem_cons.mpr ⟨owned, all⟩⟩

/-- A system that comes to rest at every instant, by steps that nobody has to ask for, and that has
all its timers before it then. What `Keeps` says holds of it at any time. -/
structure Lively (Step : σ → ε → σ → Prop) (own : ε → Bool) (Keeps : σ → Prop) : Prop where
  now_setNow : ∀ instant (system : σ), now (setNow instant system) = instant
  steps : ∃ left : σ → Nat, ∀ system after, Keeps system → step? system = some after →
    Keeps after ∧ now after = now system ∧ left after < left system ∧
      ∃ event, own event = true ∧ Step system event after
  ahead : ∀ system, Keeps system → step? system = none → ∀ timer, timer? system = some timer →
    now system < timer
  waits : ∀ instant system, Keeps system → Keeps (setNow instant system)

variable {own : ε → Bool} {Keeps : σ → Prop}

/-- At every instant all that is ready gets done, and nobody has to ask for it. -/
theorem Lively.exists_rest (lively : Lively Step own Keeps) (keeps : Keeps system) :
    ∃ (more : List (Nat × ε)) (rested : σ), Course Step system more rested ∧ Keeps rested ∧
      step? rested = none ∧ now rested = now system ∧ ∀ moment ∈ more, own moment.2 = true := by
  obtain ⟨left, steps⟩ := lively.steps
  induction budget : left system using Nat.strongRecOn generalizing system with
  | _ budget_ ih =>
    subst budget
    cases found : step? system with
    | none => exact ⟨[], system, .start, keeps, found, rfl, by simp⟩
    | some next =>
      obtain ⟨kept, same, fewer, event, owned, step⟩ := steps system next keeps found
      obtain ⟨more, rested, onward, still, rest, here, all⟩ := ih _ fewer kept rfl
      exact ⟨_, rested, (Course.start.next step).trans onward, still, rest, here.trans same,
        List.forall_mem_cons.mpr ⟨owned, all⟩⟩

/-- Time goes on to any instant. -/
theorem Lively.exists_later (lively : Lively Step own Keeps) (keeps : Keeps system)
    (later : now system ≤ instant) :
    ∃ (more : List (Nat × ε)) (after : σ), Course Step system more after ∧ step? after = none ∧
      now after = instant ∧ ∀ moment ∈ more, own moment.2 = true := by
  induction left : instant - now system using Nat.strongRecOn generalizing system with
  | _ left_ ih =>
    subst left
    obtain ⟨more, rested, course, kept, rest, here, owned⟩ := lively.exists_rest keeps
    by_cases reached : now system = instant
    · exact ⟨more, rested, course, rest, here.trans reached, owned⟩
    -- The clock jumps to the next timer, or at once to where it is to go.
    obtain ⟨jump, forward, within, bounded⟩ : ∃ jump, now rested < jump ∧ jump ≤ instant ∧
        ∀ timer, timer? rested = some timer → jump ≤ timer := by
      cases timer : timer? rested with
      | none => exact ⟨instant, by omega, Nat.le_refl _, fun _ found => nomatch found⟩
      | some next =>
        refine ⟨min next instant, ?_, Nat.min_le_right .., ?_⟩
        · have := lively.ahead rested kept rest next timer
          omega
        · rintro _ ⟨⟩
          exact Nat.min_le_left ..
    have passed := course.pass rest (Nat.le_of_lt forward) bounded
    have moved : now (setNow jump rested) = jump := lively.now_setNow jump rested
    obtain ⟨others, after, onward, still, arrived, also⟩ :=
      ih (instant - jump) (by omega) (lively.waits jump rested kept) (by omega) (by rw [moved])
    exact ⟨_, after, passed.trans onward, still, arrived, List.forall_mem_append.mpr ⟨owned, also⟩⟩

end ServiceHost.Clocked
