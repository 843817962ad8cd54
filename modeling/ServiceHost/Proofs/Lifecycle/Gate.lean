import ServiceHost.Lifecycle.Gate
import ServiceHost.Proofs.Lifecycle.Loops

/-! Loops at the gate, while others pause, resume, stop and kill.

A loop looks at the request to stop and at the pause flag in one go, and it parks with the count
of the writes that it has seen. Between two of its goes anything may happen any number of times:
a write that it has not seen makes it look again, and so does a request to stop. Who still waits
when there is nothing to look at waits for a service that is PAUSED.
-/

set_option autoImplicit false

namespace ServiceHost

/-! ## One look -/

namespace Signals

variable {signals : Signals} {seen : Nat}

theorem look_eq_go_iff : signals.look = .go ↔ signals.stop = false ∧ signals.paused = false := by
  unfold look
  cases signals.stop <;> cases signals.paused <;> simp

theorem look_eq_park_iff :
    signals.look = .park seen ↔
      signals.stop = false ∧ signals.paused = true ∧ seen = signals.writes := by
  unfold look
  cases signals.stop <;> cases signals.paused <;> simp [eq_comm]

/-- As long as the service exists, a parked loop does not go on without looking. -/
theorem wake_of_open (open_ : signals.closed = false) :
    signals.wake seen =
      if signals.stop = false ∧ signals.writes = seen then none else some signals.look := by
  unfold wake look
  cases signals.stop <;> by_cases unseen : signals.writes = seen <;> simp [unseen, open_]

end Signals

/-- What the loop of a generation sees of a lifecycle that still exists. -/
def Lifecycle.signals (lifecycle : Lifecycle) (generation : Nat) : Signals :=
  ⟨lifecycle.paused, lifecycle.writes, lifecycle.stopRequested generation, false⟩

/-- The write with which a passage parks. -/
def Passage.seen? : Passage → Option Nat
  | park seen => some seen
  | _ => none

/-! ## Loops at the gate -/

/-- A lifecycle with all that has happened to it, and the loops that wait at its gate: for the
generation of each, the last write of the pause flag that it has seen. -/
structure Gated where
  past : List Shared.Event
  present : Shared
  waiting : Nat → Option Nat

namespace Gated

def fresh : Gated := ⟨[], .fresh, fun _ => none⟩

def lifecycle (gated : Gated) : Lifecycle := gated.present.lifecycle

/-- What a go at the gate comes to, if there is anything to go for: a loop that arrives looks, and
one that waits looks again when it is woken. -/
def go? (gated : Gated) (generation : Nat) : Option Passage :=
  match gated.waiting generation with
  | none => some (gated.lifecycle.signals generation).look
  | some seen => (gated.lifecycle.signals generation).wake seen

def put (gated : Gated) (generation : Nat) (seen? : Option Nat) : Gated :=
  { gated with
    waiting := fun other => if other = generation then seen? else gated.waiting other }

inductive Moment where
  | event (event : Shared.Event)
  /-- A loop has a go at the gate. -/
  | went (generation : Nat) (passage : Passage)
  /-- A loop gives up its wait. -/
  | left (generation : Nat)

/-- What can happen next. Loops come to the gate whenever they like, and a loop that has come to
its end waits no more. -/
inductive Next (gated : Gated) : Moment → Gated → Prop where
  | event {event : Shared.Event} {after : Shared} :
      Shared.Next gated.past gated.present event after →
      (∀ generation, event.Ends generation → gated.waiting generation = none) →
      Next gated (.event event)
        { gated with past := gated.past ++ [event], present := after }
  | went {generation : Nat} {passage : Passage} :
      Shared.Going gated.past generation → gated.go? generation = some passage →
      Next gated (.went generation passage) (gated.put generation passage.seen?)
  | left (generation : Nat) : Next gated (.left generation) (gated.put generation none)

/-- All that happens from some point on. -/
inductive Onward (first : Gated) : List Moment → Gated → Prop where
  | start : Onward first [] first
  | next {moments : List Moment} {gated after : Gated} {moment : Moment} :
      Onward first moments gated → Next gated moment after →
      Onward first (moments ++ [moment]) after

variable {gated after : Gated} {moment : Moment} {moments : List Moment} {generation seen : Nat}

theorem go?_cases {passage : Passage} (goes : gated.go? generation = some passage) :
    passage = (gated.lifecycle.signals generation).look := by
  unfold go? at goes
  split at goes
  · exact (Option.some.inj goes).symm
  · rw [Signals.wake_of_open rfl] at goes
    split at goes
    · cases goes
    · exact (Option.some.inj goes).symm

end Gated

/-! ## The flag and the state -/

namespace Shared

variable {events : List Event} {present after : Shared} {deed : Deed} {generation : Nat}

/-- The pause flag does not change without a write. -/
theorem Sound.flag_step (sound : present.Sound) (step : Step present deed after) :
    after.lifecycle.writes = present.lifecycle.writes ∧
        after.lifecycle.paused = present.lifecycle.paused ∨
      present.lifecycle.writes < after.lifecycle.writes := by
  have machine := sound.machine
  cases step with
  | start done =>
    rcases Lifecycle.start_cases done with ⟨_, _, rfl⟩ | ⟨_, _, rfl⟩
    · exact .inl ⟨rfl, rfl⟩
    · exact .inr (Nat.lt_succ_self _)
  | pause done =>
    rcases Lifecycle.pause_cases done with ⟨_, _, rfl⟩ | ⟨_, _, rfl⟩
    · exact .inr (Nat.lt_succ_self _)
    · exact .inl ⟨rfl, rfl⟩
  | resume done =>
    rcases Lifecycle.resume_cases done with ⟨_, _, rfl⟩ | ⟨_, _, rfl⟩
    · exact .inr (Nat.lt_succ_self _)
    · exact .inl ⟨rfl, rfl⟩
  | requestStop done =>
    rcases machine.requestStop_cases done with ⟨_, _, rfl⟩ | ⟨_, _, _, rfl⟩ <;>
      exact .inl ⟨rfl, rfl⟩
  | completeStop waits _ done =>
    have asked := sound.asked _ (List.mem_of_getElem? waits)
    rcases (machine.completeStop_cases asked done).2 with ⟨_, rfl⟩ | ⟨_, rfl⟩ <;>
      exact .inl ⟨rfl, rfl⟩
  | kill =>
    rcases machine.kill_cases with ⟨_, equation⟩ | ⟨_, _, equation⟩ <;> rw [equation] <;>
      exact .inr (Nat.lt_succ_self _)
  | giveUp | endRun | record | wait => exact .inl ⟨rfl, rfl⟩

theorem Next.flag (sound : present.Sound) {event : Event} (next : Next events present event after) :
    after.lifecycle.writes = present.lifecycle.writes ∧
        after.lifecycle.paused = present.lifecycle.paused ∨
      present.lifecycle.writes < after.lifecycle.writes := by
  cases next with
  | deed step => exact sound.flag_step step
  | gone => exact .inl ⟨rfl, rfl⟩

theorem Next.stays_asked (sound : present.Sound) {event : Event}
    (next : Next events present event after)
    (asked : present.lifecycle.stopRequested generation = true) :
    after.lifecycle.stopRequested generation = true := by
  cases next with
  | deed step => exact (sound.stopRequested_iff step).mpr (.inl asked)
  | gone => exact asked

end Shared

namespace Gated

variable {first gated after : Gated} {moment : Moment} {moments : List Moment}
  {generation seen : Nat}

/-! ## What holds of the loops at the gate -/

structure Sound (gated : Gated) : Prop where
  trail : Shared.Trail gated.past gated.present
  /-- When a loop parked the flag was up, and since then it has not been written unseen. -/
  seen : ∀ generation seen, gated.waiting generation = some seen →
    seen ≤ gated.lifecycle.writes ∧
      (gated.lifecycle.writes = seen → gated.lifecycle.paused = true)
  going : ∀ generation seen, gated.waiting generation = some seen →
    Shared.Going gated.past generation

theorem sound_fresh : fresh.Sound :=
  ⟨.start, (fun _ _ waits => nomatch waits), (fun _ _ waits => nomatch waits)⟩

theorem Sound.next (sound : gated.Sound) (next : Next gated moment after) : after.Sound := by
  cases next with
  | event next ends =>
    refine ⟨sound.trail.next next, fun generation seen waits => ?_, fun generation seen waits => ?_⟩
    · obtain ⟨bound, flag⟩ := sound.seen generation seen waits
      -- A write since then counts as unseen, whatever it wrote.
      rcases next.flag sound.trail.sound.1 with ⟨writes, paused⟩ | more
      · exact ⟨writes ▸ bound, fun all => paused.trans (flag (writes.symm.trans all))⟩
      · exact ⟨Nat.le_of_lt (Nat.lt_of_le_of_lt bound more),
          fun all => absurd (all ▸ more) (Nat.not_lt_of_le bound)⟩
    · obtain ⟨launched, onward⟩ := sound.going generation seen waits
      refine ⟨Shared.launched_concat.mpr (.inl launched), fun past => ?_⟩
      rcases Shared.over_concat.mp past with before | now
      · exact onward before
      · rw [ends generation now] at waits
        cases waits
  | @went other passage going goes =>
    have looked := go?_cases goes
    refine ⟨sound.trail, fun generation seen waits => ?_, fun generation seen waits => ?_⟩ <;>
      by_cases same : generation = other <;> simp only [put, same, if_true, if_false] at waits
    · cases passage with
      | go | halt => cases waits
      | park last =>
        obtain ⟨_, paused, all⟩ := Signals.look_eq_park_iff.mp looked.symm
        cases waits
        exact ⟨Nat.le_of_eq all, fun _ => paused⟩
    · exact sound.seen generation seen waits
    · exact same ▸ going
    · exact sound.going generation seen waits
  | left other =>
    refine ⟨sound.trail, fun generation seen waits => ?_, fun generation seen waits => ?_⟩ <;>
      by_cases same : generation = other <;> simp only [put, same, if_true, if_false] at waits
    · cases waits
    · exact sound.seen generation seen waits
    · cases waits
    · exact sound.going generation seen waits

theorem Onward.sound (onward : Onward first moments gated) (sound : first.Sound) : gated.Sound := by
  induction onward with
  | start => exact sound
  | next _ next ih => exact ih.next next

/-! ## Loops that do not pass again -/

/-- A loop that was asked to stop, or has come to its end. -/
def Barred (gated : Gated) (generation : Nat) : Prop :=
  gated.lifecycle.stopRequested generation = true ∨ Shared.Over gated.past generation

theorem Barred.next (barred : gated.Barred generation) (sound : gated.Sound)
    (next : Next gated moment after) : after.Barred generation := by
  cases next with
  | event next =>
    exact barred.imp (next.stays_asked sound.trail.sound.1)
      fun past => Shared.over_concat.mpr (.inl past)
  | went | left => exact barred

theorem Barred.not_went (barred : gated.Barred generation) :
    ¬ Next gated (.went generation .go) after := by
  intro next
  cases next with
  | went going goes =>
    obtain ⟨unasked, _⟩ := Signals.look_eq_go_iff.mp (go?_cases goes).symm
    rcases barred with asked | past
    · exact absurd (unasked.symm.trans asked) Bool.false_ne_true
    · exact going.2 past

theorem Barred.onward (barred : first.Barred generation) (sound : first.Sound)
    (onward : Onward first moments gated) :
    gated.Barred generation ∧ .went generation .go ∉ moments := by
  induction onward with
  | start => exact ⟨barred, List.not_mem_nil⟩
  | next before next ih =>
    obtain ⟨barred, never⟩ := ih
    refine ⟨barred.next (before.sound sound) next, fun member => ?_⟩
    rcases List.mem_append.mp member with earlier | last
    · exact never earlier
    · cases List.mem_singleton.mp last
      exact barred.not_went next

end Gated
end ServiceHost
