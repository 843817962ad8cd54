import ServiceHost.Proofs.Lifecycle.Gate
import ServiceHost.Proofs.Service.Interval
import ServiceHost.Proofs.Service.Timed

/-! The rounds of a heartbeat: where a run can be, where one go takes it, and when it waits. -/

set_option autoImplicit false

namespace ServiceHost.Builtin

/-- Where in its round a heartbeat is. -/
inductive Spot where
  | entering
  /-- At the end of a round, or before the first. -/
  | between
  | gate
  | parked (seen : Nat)
  /-- Past the gate and about to wait. -/
  | inside
  | waiting (instant : Nat)
  /-- The wait is over, and the beat not yet counted. -/
  | counting

namespace Spot

def mark : Spot → Mark
  | entering => .entering
  | parked seen => .parked seen
  | waiting instant => .waiting instant
  | _ => .arriving

def todo (millis : Nat) : Spot → List Act
  | entering | between => []
  | gate | parked _ => [.gate false, .rest millis, .count]
  | inside | waiting _ => [.rest millis, .count]
  | counting => [.count]

/-- Whether a heartbeat that is not asked to stop looks at the pause flag. -/
def looks (writes : Nat) : Spot → Prop
  | gate => True
  | parked seen => seen ≠ writes
  | _ => False

/-- From spot to spot in one go, with the beats that it counts. -/
inductive Goes (millis now : Nat) (signals : Signals) : Spot → Spot → Nat → Prop where
  | enters : Goes millis now signals entering between 0
  | comes : Goes millis now signals between gate 0
  | parks {spot : Spot} : spot.looks signals.writes → signals.paused = true →
      Goes millis now signals spot (parked signals.writes) 0
  | passes {spot : Spot} : spot.looks signals.writes → signals.stop = false →
      signals.paused = false → Goes millis now signals spot inside 0
  | waits : signals.stop = false → Goes millis now signals inside (waiting (now + millis)) 0
  | wakes {instant : Nat} : signals.stop = false → instant ≤ now →
      Goes millis now signals (waiting instant) counting 0
  | counts : Goes millis now signals counting between 1

/-- How many beats a run still counts up to an instant if it may not pass the gate. -/
def owes (horizon : Nat) (stop : Bool) : Spot → Nat
  | counting => 1
  | inside => if stop then 0 else 1
  | waiting instant => if stop || decide (horizon < instant) then 0 else 1
  | _ => 0

/-- A run is on time if it waits nowhere but in its intervals, since the instant when it began. -/
def OnTime (began millis now beats : Nat) : Spot → Prop
  | entering | between | gate | inside => now = began + beats * millis
  | parked _ => False
  | waiting instant =>
    instant = began + (beats + 1) * millis ∧ began + beats * millis ≤ now ∧ now ≤ instant
  | counting => now = began + (beats + 1) * millis

variable {spot after : Spot} {millis now counted : Nat} {signals : Signals}

theorem owes_le_one (horizon : Nat) (stop : Bool) (spot : Spot) : spot.owes horizon stop ≤ 1 := by
  cases spot with
  | inside | waiting =>
    rw [owes]
    split <;> decide
  | _ => simp [owes]

theorem owes_asked_le (horizon : Nat) (stop : Bool) (spot : Spot) :
    spot.owes horizon true ≤ spot.owes horizon stop := by
  cases spot <;> simp [owes]

/-- What a run counts that may not pass the gate, it owed. -/
theorem Goes.owes_le {horizon : Nat} (goes : spot.Goes millis now signals after counted)
    (barred : signals.paused = true ∨ signals.stop = true) (within : now ≤ horizon) :
    counted + after.owes horizon signals.stop ≤ spot.owes horizon signals.stop := by
  cases goes with
  | passes _ unasked open_ => simp [unasked, open_] at barred
  | parks => simp [owes]
  | waits unasked =>
    rw [Nat.zero_add, owes, unasked]
    exact owes_le_one ..
  | wakes unasked due =>
    have later : ¬ horizon < _ := Nat.not_lt.mpr (Nat.le_trans due within)
    simp [owes, unasked, later]
  | enters | comes | counts => simp [owes]

theorem Goes.onTime {began beats : Nat} (goes : spot.Goes millis now signals after counted)
    (open_ : signals.paused = false) (punctual : spot.OnTime began millis now beats) :
    after.OnTime began millis now (beats + counted) := by
  have next : (beats + 1) * millis = beats * millis + millis := Nat.succ_mul ..
  cases goes with
  | enters | comes => exact punctual
  | parks _ paused =>
    rw [open_] at paused
    cases paused
  | @passes spot looks =>
    cases spot with
    | gate => exact punctual
    | parked => cases punctual
    | _ => cases looks
  | waits =>
    have now_eq : now = began + beats * millis := punctual
    rw [Nat.add_zero]
    exact ⟨by omega, by omega, by omega⟩
  | wakes unasked due =>
    obtain ⟨set_, _, early⟩ := punctual
    exact Nat.le_antisymm (set_ ▸ early) (set_ ▸ due)
  | counts => exact punctual

end Spot

/-- A run of a heartbeat that is at a spot. -/
inductive Beats : Run → Spot → Prop where
  | at_ (generation : Nat) (config : Properties) (spot : Spot) :
      Beats ⟨generation, config, beating config, spot.todo (interval config), spot.mark⟩ spot

/-- One go of a heartbeat: it goes on in its round, or ends because it was asked to stop. -/
inductive Went (run : Run) (now : Nat) (signals : Signals) (spot : Spot) (go : Go) : Prop where
  | on {next : Run} {after : Spot} : go.after = .ok next → Beats next after →
      next.generation = run.generation → next.config = run.config →
      spot.Goes (interval run.config) now signals after go.counted → Went run now signals spot go
  | ended {exit : Exit} : go.after = .error exit → go.counted = 0 → signals.stop = true →
      Went run now signals spot go

variable {run : Run} {spot : Spot} {now : Nat} {signals : Signals} {go : Go}

theorem Beats.unique {other : Spot} (beats : Beats run spot) (also : Beats run other) :
    other = spot := by
  obtain ⟨generation, config, _⟩ := beats
  generalize same : Run.mk generation config (beating config) (spot.todo (interval config)) spot.mark =
    run at also
  obtain ⟨_, _, _⟩ := also
  simp only [Run.mk.injEq] at same
  obtain ⟨-, rfl, -, todo, mark⟩ := same
  cases spot <;> cases other <;> simp_all [Spot.mark, Spot.todo]

theorem beats_start (generation : Nat) (config : Properties) :
    Beats (Run.start beating generation config) .entering := .at_ generation config .entering

/-- A heartbeat that looks at the signals ends, parks or passes, as they say. -/
theorem went_of_look {generation : Nat} {config : Properties} {mark : Mark}
    (looks : signals.stop = false → spot.looks signals.writes)
    (goes : (Run.mk generation config (beating config) (Spot.gate.todo (interval config)) mark).pass
      signals false (Spot.inside.todo (interval config)) signals.look = some go) :
    Went ⟨generation, config, beating config, Spot.gate.todo (interval config), mark⟩
      now signals spot go := by
  unfold Signals.look at goes
  split at goes
  case isTrue asked =>
    cases goes
    exact .ended rfl rfl asked
  case isFalse unasked =>
    have unasked := Bool.eq_false_iff.mpr unasked
    split at goes
    case isTrue paused =>
      cases goes
      exact .on rfl (.at_ generation config (.parked _)) rfl rfl (.parks (looks unasked) paused)
    case isFalse open_ =>
      cases goes
      exact .on rfl (.at_ generation config .inside) rfl rfl
        (.passes (looks unasked) unasked (Bool.eq_false_iff.mpr open_))

theorem Beats.went (beats : Beats run spot) (held : signals.closed = false)
    (goes : run.go? now signals = some go) : Went run now signals spot go := by
  obtain ⟨generation, config, _⟩ := beats
  cases spot with
  | entering =>
    cases goes
    exact .on rfl (.at_ generation config .between) rfl rfl .enters
  | between =>
    cases goes
    exact .on rfl (.at_ generation config .gate) rfl rfl .comes
  | gate => exact went_of_look (fun _ => trivial) goes
  | parked seen =>
    -- Only a write or a request wakes it, and then it looks.
    obtain ⟨passage, woken, goes⟩ := Option.bind_eq_some_iff.mp goes
    rw [Signals.wake_of_open held] at woken
    split at woken
    case isTrue => cases woken
    case isFalse stirred =>
      cases woken
      exact went_of_look (fun unasked same => stirred ⟨unasked, same.symm⟩) goes
  | inside =>
    simp only [Run.go?, Spot.mark, Spot.todo] at goes
    split at goes
    case isTrue asked =>
      cases goes
      exact .ended rfl rfl asked
    case isFalse unasked =>
      cases goes
      exact .on rfl (.at_ generation config (.waiting _)) rfl rfl
        (.waits (Bool.eq_false_iff.mpr unasked))
  | waiting instant =>
    simp only [Run.go?, Spot.mark, Spot.todo, Run.wait] at goes
    split at goes
    case isTrue asked =>
      cases goes
      exact .ended rfl rfl asked
    case isFalse unasked =>
      split at goes
      case isTrue due =>
        cases goes
        exact .on rfl (.at_ generation config .counting) rfl rfl
          (.wakes (Bool.eq_false_iff.mpr unasked) due)
      case isFalse => cases goes
  | counting =>
    cases goes
    exact .on rfl (.at_ generation config .between) rfl rfl .counts

/-- A heartbeat that is not ready has seen all writes, or its wait is not over. -/
theorem Beats.idle (beats : Beats run spot) (idle : run.go? now signals = none) :
    spot = .parked signals.writes ∨ ∃ instant, spot = .waiting instant ∧ now < instant := by
  obtain ⟨generation, config, _⟩ := beats
  cases spot with
  | entering | between | counting => cases idle
  | gate =>
    simp only [Run.go?, Spot.mark, Spot.todo, Signals.look] at idle
    split at idle
    · cases idle
    · split at idle <;> cases idle
  | parked seen =>
    refine .inl (congrArg Spot.parked (Classical.byContradiction fun unseen => ?_))
    simp only [Run.go?, Spot.mark, Spot.todo, Signals.wake, Signals.look, ne_eq,
      if_pos (Ne.symm unseen)] at idle
    split at idle
    · cases idle
    · split at idle <;> cases idle
  | inside =>
    simp only [Run.go?, Spot.mark, Spot.todo] at idle
    split at idle <;> cases idle
  | waiting instant =>
    simp only [Run.go?, Spot.mark, Spot.todo, Run.wait] at idle
    split at idle
    · cases idle
    · split at idle
      · cases idle
      · exact .inr ⟨instant, rfl, by omega⟩

/-- A bound for the goes that a heartbeat has left before it waits. -/
def toil (now writes : Nat) (run : Run) : Nat :=
  match run.mark, run.todo.length with
  | .entering, _ => 5
  | .parked seen, _ => if seen = writes then 1 else 3
  | .waiting instant, _ => if instant ≤ now then 7 else 1
  | .arriving, 0 => 4
  | .arriving, 1 => 6
  | .arriving, 2 => 2
  | .arriving, _ => 3

theorem toil_pos (now writes : Nat) (run : Run) : 0 < toil now writes run := by
  unfold toil
  split
  case h_2 | h_3 => split <;> decide
  all_goals decide

theorem toil_lt {next : Run} {after : Spot} {millis counted : Nat} (beats : Beats run spot)
    (onward : Beats next after) (goes : spot.Goes millis now signals after counted)
    (positive : 0 < millis) : toil now signals.writes next < toil now signals.writes run := by
  obtain ⟨_, _, _⟩ := beats
  obtain ⟨_, _, _⟩ := onward
  cases goes with
  | parks looks | passes looks =>
    cases spot with
    | gate => simp [toil, Spot.mark, Spot.todo]
    | parked seen => simp [toil, Spot.mark, Spot.todo, show seen ≠ signals.writes from looks]
    | _ => cases looks
  | wakes _ due => simp [toil, Spot.mark, Spot.todo, due]
  | waits => simp [toil, Spot.mark, Spot.todo, Nat.ne_of_gt positive]
  | enters | comes | counts => simp [toil, Spot.mark, Spot.todo]

theorem Beats.timer (beats : Beats run spot) {instant : Nat} :
    run.timer? = some instant ↔ spot = .waiting instant := by
  obtain ⟨generation, config, _⟩ := beats
  cases spot <;> simp [Run.timer?, Spot.mark]

end ServiceHost.Builtin
