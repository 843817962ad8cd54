import ServiceHost.Lifecycle.Program

/-! What a run keeps from go to go, and which runs heed a request to stop. -/

set_option autoImplicit false

namespace ServiceHost

/-- Whether a run at this act looks at a request to stop, or does not wait. -/
def Act.heedful : Act → Bool
  | sleep _ | forever => false
  | _ => true

/-- Whether runs of this program look at a request to stop wherever they wait. -/
def Program.heedful (program : Program) : Bool :=
  program.opening.all Act.heedful && program.cycle.all Act.heedful

namespace Run

variable {run after : Run} {now : Nat} {signals : Signals} {go : Go}

/-- A run that is still the same run, with nothing to do but what its program says. -/
structure Continues (run after : Run) : Prop where
  generation : after.generation = run.generation
  config : after.config = run.config
  program : after.program = run.program
  todo : after.todo ⊆ run.todo ∨ after.todo = run.program.cycle

theorem Continues.of_todo {todo : List Act} (mark : Mark) (rest : todo ⊆ run.todo) :
    Continues run { run with todo, mark } :=
  ⟨rfl, rfl, rfl, .inl rest⟩

theorem continues_of_next {todo : List Act} {shown : List Sighting} (rest : todo ⊆ run.todo)
    (done : run.next todo shown = some go) (goes : go.after = .ok after) :
    run.Continues after := by
  cases done
  cases goes
  exact .of_todo _ rest

theorem continues_of_stay {mark : Mark} (done : run.stay mark = some go)
    (goes : go.after = .ok after) : run.Continues after := by
  cases done
  cases goes
  exact .of_todo _ (List.Subset.refl _)

theorem continues_of_leave {shown : List Sighting} (done : run.leave signals shown = some go)
    (goes : go.after = .ok after) : run.Continues after := by
  cases done
  cases goes

theorem continues_of_pass {reported : Bool} {todo : List Act} {passage : Passage}
    (rest : todo ⊆ run.todo) (done : run.pass signals reported todo passage = some go)
    (goes : go.after = .ok after) : run.Continues after := by
  cases passage with
  | go => exact continues_of_next rest done goes
  | halt => exact continues_of_leave done goes
  | park => exact continues_of_stay done goes

theorem continues_of_wait {millis : Nat} {todo : List Act} (rest : todo ⊆ run.todo)
    (done : run.wait now millis todo = some go) (goes : go.after = .ok after) :
    run.Continues after := by
  unfold Run.wait at done
  split at done
  · split at done
    · exact continues_of_next rest done goes
    · cases done
  · exact continues_of_stay done goes

/-- A go that does not end a run leaves it what it is. -/
theorem continues_of_go? (done : run.go? now signals = some go) (goes : go.after = .ok after) :
    run.Continues after := by
  -- Every act is either left where it is or taken off the front of what is to be done.
  unfold Run.go? at done
  have rest : ∀ {act : Act} {todo : List Act}, run.todo = act :: todo → todo ⊆ run.todo := by
    intro act todo equation
    rw [equation]
    exact List.subset_cons_self act todo
  split at done
  · exact continues_of_next (List.Subset.refl _) done goes
  · split at done
    · exact continues_of_leave done goes
    · rename_i cycle _
      cases done
      cases goes
      exact ⟨rfl, rfl, rfl, .inr rfl⟩
  · obtain ⟨_, _, done⟩ := Option.bind_eq_some_iff.mp done
    exact continues_of_pass (rest (by assumption)) done goes
  · exact continues_of_pass (rest (by assumption)) done goes
  · split at done
    · exact continues_of_leave done goes
    · exact continues_of_wait (rest (by assumption)) done goes
  · exact continues_of_wait (rest (by assumption)) done goes
  · split at done
    · exact continues_of_next (rest (by assumption)) done goes
    · cases done
  · cases done
  · cases done
    cases goes
    exact .of_todo _ (rest (by assumption))
  · cases done
    cases goes

/-- A run of a service with this loop: it has nothing to do but what the loop says. -/
structure Follows (loop : RunLoop) (run : Run) : Prop where
  program : run.program = loop run.config
  todo : run.todo ⊆ run.program.opening ++ run.program.cycle

theorem follows_start (loop : RunLoop) (generation : Nat) (config : Properties) :
    (Run.start loop generation config).Follows loop :=
  ⟨rfl, List.subset_append_left ..⟩

theorem Follows.continues {loop : RunLoop} (follows : run.Follows loop)
    (same : run.Continues after) : after.Follows loop := by
  refine ⟨by rw [same.program, same.config, follows.program], ?_⟩
  rw [same.program]
  rcases same.todo with rest | cycle
  · exact List.Subset.trans rest follows.todo
  · rw [cycle]
    exact List.subset_append_right ..

theorem Follows.heedful {loop : RunLoop} (follows : run.Follows loop)
    (heedful : ∀ config, (loop config).heedful = true) : run.todo.all Act.heedful = true := by
  have all := heedful run.config
  rw [← follows.program, Program.heedful, ← List.all_append] at all
  exact List.all_eq_true.mpr fun act member => List.all_eq_true.mp all act (follows.todo member)

/-- A run that heeds stops is ready as soon as it is asked to stop, wherever it is. -/
theorem ready_of_stop (asked : signals.stop = true)
    (heedful : run.todo.all Act.heedful = true) : (run.go? now signals).isSome = true := by
  have left : ∀ shown, (run.leave signals shown).isSome = true := fun _ => rfl
  have next : ∀ todo shown, (run.next todo shown).isSome = true := fun _ _ => rfl
  have halted : ∀ reported todo, (run.pass signals reported todo .halt).isSome = true :=
    fun _ _ => rfl
  -- The only acts at which a request is not looked at are those that no heedful run has.
  unfold Run.go?
  split
  · exact next ..
  · split
    · exact left _
    · exact next ..
  · rw [Signals.wake, if_pos asked]
    exact halted _ []
  · rw [Signals.look, if_pos asked]
    exact halted ..
  · rw [if_pos asked]
    exact left _
  · rename_i todo _
    rw [todo] at heedful
    cases heedful
  · rw [if_pos asked]
    exact next ..
  · rename_i todo _
    rw [todo] at heedful
    cases heedful
  · rfl
  · rfl

end Run
end ServiceHost
