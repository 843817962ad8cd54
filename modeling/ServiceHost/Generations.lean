/-! Generations of runs, numbered from one, and the stop requests made to them.

A run is known by its generation, so everyone who knows the number sees the same
stop request. A request cannot be taken back. -/

set_option autoImplicit false

namespace ServiceHost

structure Generations where
  /-- The latest generation, zero before the first. -/
  issued : Nat
  stopped : List Nat
  deriving DecidableEq, Repr

namespace Generations

def start : Generations := ⟨0, []⟩

def issue (generations : Generations) : Nat × Generations :=
  (generations.issued + 1, { generations with issued := generations.issued + 1 })

def requestStop (generations : Generations) (generation : Nat) : Generations :=
  if generations.stopped.contains generation then generations
  else { generations with stopped := generations.stopped ++ [generation] }

def stopRequested (generations : Generations) (generation : Nat) : Bool :=
  generations.stopped.contains generation

theorem stopRequested_requestStop (generations : Generations) (asked other : Nat) :
    (generations.requestStop asked).stopRequested other =
      (other == asked || generations.stopRequested other) := by
  unfold requestStop stopRequested
  split
  · rename_i already
    by_cases same : other = asked
    · subst same
      simp only [already, beq_self_eq_true, Bool.true_or]
    · simp [same]
  · by_cases same : other = asked <;> simp [same]

end Generations

end ServiceHost
