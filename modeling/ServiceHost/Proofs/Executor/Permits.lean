import ServiceHost.Proofs.Executor.Order

/-! The conservation of permits.

The books of an executor are kept from its creation on: which calls have been granted a
permit, and the work of which has ended. Whatever happens to the callers, the permits that
are out are those of the works that were granted one and have not ended.
-/

set_option autoImplicit false

namespace ServiceHost.Executor

variable {ω ρ : Type} {before after executor : Executor ω ρ} {event : Event} {id : Nat}

/-- The calls that have a permit now and had none before. -/
def newcomers (before after : Executor ω ρ) : List Nat :=
  after.holders.filter fun id => !before.holders.contains id

/-- Everything that can become of an executor from its creation on, with the calls that have been
granted a permit so far and those whose work has ended, oldest first. -/
inductive Course (capacity : Nat) : List Nat → List Nat → Executor ω ρ → Prop where
  | start : Course capacity [] [] (start capacity)
  | next {granted ended : List Nat} {before after : Executor ω ρ} {event : Event} :
      Course capacity granted ended before → Step before event after →
      Course capacity (granted ++ newcomers before after) (ended ++ event.endings) after

/-- What a semaphore has left after so many grants and ends. -/
def permitsLeft (capacity : Nat) (granted ended : List Nat) : Nat :=
  capacity + ended.length - granted.length

/-! ## One step -/

/-- Whoever holds a permit held it before and has not ended, or was waiting, or has just come. -/
theorem Step.holder_cases (step : Step before event after) (holds : id ∈ after.holders) :
    (id ∈ before.holders ∧ id ∉ event.endings) ∨ id ∈ before.line ∨ id = before.issued := by
  cases step with
  | arrive =>
    rw [holders_submit] at holds
    rcases List.mem_append.mp holds with old | new
    · exact .inl ⟨old, List.not_mem_nil⟩
    · rcases List.mem_append.mp (List.mem_of_mem_take new) with waiting | last
      · exact .inr (.inl waiting)
      · exact .inr (.inr (List.mem_singleton.mp last))
  | deadlines => exact .inl ⟨by rwa [holders_expire] at holds, List.not_mem_nil⟩
  | goOn => exact .inl ⟨by rwa [holders_continueWith] at holds, List.not_mem_nil⟩
  | finish | cancel =>
    rcases conclude_holder_cases holds with ⟨held, differs⟩ | waited
    · exact .inl ⟨held, fun ends => differs (List.mem_singleton.mp ends)⟩
    · exact .inr (.inl waited)
  | forget => exact .inl ⟨holds, List.not_mem_nil⟩

/-- Only the end of its work takes a permit from a call. -/
theorem Step.holds (step : Step before event after) (held : id ∈ before.holders)
    (going : id ∉ event.endings) : id ∈ after.holders := by
  cases step with
  | arrive => rw [holders_submit]; exact List.mem_append_left _ held
  | deadlines => rwa [holders_expire]
  | goOn => rwa [holders_continueWith]
  | finish | cancel => exact holds_conclude held fun same => going (List.mem_singleton.mpr same)
  | forget => exact held

theorem Step.held (step : Step before event after) (ends : id ∈ event.endings) :
    id ∈ before.holders := by
  cases step with
  | finish _ member | cancel member =>
    rw [List.mem_singleton.mp ends]
    exact List.mem_map_of_mem (f := fun call => call.request.id) member
  | arrive | deadlines | goOn | forget => cases ends

/-- Nobody joins the line but the call that has just come. -/
theorem Step.waiting_cases (step : Step before event after) (waits : id ∈ after.line) :
    id ∈ before.line ∨ id = before.issued := by
  cases step with
  | arrive =>
    rw [line_submit] at waits
    rcases List.mem_append.mp (List.mem_of_mem_drop waits) with waiting | last
    · exact .inl waiting
    · exact .inr (List.mem_singleton.mp last)
  | deadlines => exact .inl ((line_expire _).subset waits)
  | goOn | forget => exact .inl waits
  | finish | cancel => exact .inl (waits_of_conclude waits)

theorem Step.issued_le (step : Step before event after) : before.issued ≤ after.issued := by
  cases step with
  | arrive => exact Nat.le_succ _
  | deadlines | goOn | finish | cancel | forget => exact Nat.le_refl _

/-! ## The books -/

/-- The books agree with the executor: nobody is granted a permit twice or ends twice, and no
call that was ever granted one stands in line. -/
structure Balanced (granted ended : List Nat) (executor : Executor ω ρ) : Prop where
  orderly : executor.Orderly
  once : granted.Nodup
  endedOnce : ended.Nodup
  sound : ∀ id ∈ ended, id ∈ granted
  holds : ∀ id, id ∈ executor.holders ↔ id ∈ granted ∧ id ∉ ended
  known : ∀ id ∈ granted, id < executor.issued ∧ id ∉ executor.line

theorem mem_newcomers : id ∈ newcomers before after ↔ id ∈ after.holders ∧ id ∉ before.holders := by
  simp [newcomers]

namespace Balanced

variable {granted ended : List Nat}

theorem start (capacity : Nat) : Balanced [] [] (start capacity : Executor ω ρ) where
  orderly := .start capacity
  once := .nil
  endedOnce := .nil
  sound := fun _ member => (by cases member)
  holds := fun _ => by simp [holders, Executor.start]
  known := fun _ member => (by cases member)

/-- A permit is granted for the first time. -/
theorem newcomer_new (balanced : Balanced granted ended before) (step : Step before event after)
    (newcomer : id ∈ newcomers before after) : id ∉ granted := by
  obtain ⟨holds, fresh⟩ := mem_newcomers.mp newcomer
  intro old
  obtain ⟨bound, absent⟩ := balanced.known id old
  rcases step.holder_cases holds with ⟨held, _⟩ | waited | rfl
  · exact fresh held
  · exact absent waited
  · exact Nat.lt_irrefl _ bound

/-- Work that ends has not ended before. -/
theorem over_new (balanced : Balanced granted ended before) (step : Step before event after)
    (ends : id ∈ event.endings) : id ∈ granted ∧ id ∉ ended :=
  (balanced.holds id).mp (step.held ends)

/-- A holder that stays has not ended: it is neither in line nor new. -/
theorem stays (balanced : Balanced granted ended before) (step : Step before event after)
    (held : id ∈ before.holders) (holds : id ∈ after.holders) : id ∉ event.endings := by
  rcases step.holder_cases holds with ⟨_, going⟩ | waited | rfl
  · exact going
  · exact absurd (balanced.orderly.older id held id waited) (Nat.lt_irrefl id)
  · exact absurd (balanced.orderly.lt_issued_of_holder held) (Nat.lt_irrefl _)

theorem step (balanced : Balanced granted ended before) (step : Step before event after) :
    Balanced (granted ++ newcomers before after) (ended ++ event.endings) after := by
  have orderly := balanced.orderly.step step
  refine ⟨orderly, ?once, ?endedOnce, ?sound, fun id => ?holds, ?known⟩
  case once =>
    refine List.nodup_append.mpr ⟨balanced.once, orderly.once.sublist List.filter_sublist, ?_⟩
    rintro old member _ newcomer rfl
    exact balanced.newcomer_new step newcomer member
  case endedOnce =>
    refine List.nodup_append.mpr ⟨balanced.endedOnce, by cases event <;> simp [Event.endings], ?_⟩
    rintro old member _ ends rfl
    exact (balanced.over_new step ends).2 member
  case sound =>
    intro id member
    rcases List.mem_append.mp member with old | ends
    · exact List.mem_append_left _ (balanced.sound id old)
    · exact List.mem_append_left _ (balanced.over_new step ends).1
  case holds =>
    rw [List.mem_append, List.mem_append, not_or]
    constructor
    · intro holds
      by_cases held : id ∈ before.holders
      · obtain ⟨old, going⟩ := (balanced.holds id).mp held
        exact ⟨.inl old, going, balanced.stays step held holds⟩
      · have newcomer := mem_newcomers.mpr ⟨holds, held⟩
        exact ⟨.inr newcomer,
          fun ends => balanced.newcomer_new step newcomer (balanced.sound id ends),
          fun ends => held (step.held ends)⟩
    · rintro ⟨old | newcomer, going, goesOn⟩
      · exact step.holds ((balanced.holds id).mpr ⟨old, going⟩) goesOn
      · exact (mem_newcomers.mp newcomer).1
  case known =>
    intro id member
    rcases List.mem_append.mp member with old | newcomer
    · obtain ⟨bound, absent⟩ := balanced.known id old
      refine ⟨Nat.lt_of_lt_of_le bound step.issued_le, fun waits => ?_⟩
      rcases step.waiting_cases waits with waited | rfl
      · exact absent waited
      · exact Nat.lt_irrefl _ bound
    · have holds := (mem_newcomers.mp newcomer).1
      exact ⟨orderly.lt_issued_of_holder holds,
        fun waits => Nat.lt_irrefl _ (orderly.older id holds id waits)⟩

/-- Every grant is of a permit that is out or has come back. -/
theorem inFlight_eq (balanced : Balanced granted ended executor) :
    executor.inFlight = (granted.filter fun id => !ended.contains id).length := by
  have same : executor.holders.Perm (granted.filter fun id => !ended.contains id) := by
    rw [List.perm_ext_iff_of_nodup balanced.orderly.once
      (balanced.once.sublist List.filter_sublist)]
    intro id
    simp [balanced.holds id]
  simpa [holders, inFlight] using same.length_eq

theorem inFlight_add_ended (balanced : Balanced granted ended executor) :
    executor.inFlight + ended.length = granted.length := by
  have back : ended.Perm (granted.filter ended.contains) := by
    rw [List.perm_ext_iff_of_nodup balanced.endedOnce (balanced.once.sublist List.filter_sublist)]
    intro id
    simpa using balanced.sound id
  rw [balanced.inFlight_eq, back.length_eq, ← List.countP_eq_length_filter,
    ← List.countP_eq_length_filter, List.length_eq_countP_add_countP ended.contains (l := granted)]
  simp [Nat.add_comm]

end Balanced

namespace Course

variable {capacity : Nat} {granted ended : List Nat}

theorem balanced (course : Course capacity granted ended executor) :
    Balanced granted ended executor := by
  induction course with
  | start => exact .start capacity
  | next _ step ih => exact ih.step step

theorem capacity_eq (course : Course capacity granted ended executor) :
    executor.capacity = capacity := by
  induction course with
  | start => rfl
  | next _ step ih => rw [step.capacity, ih]

end Course

/-- Permits are conserved. -/
structure Conserved (capacity : Nat) (granted ended : List Nat) (executor : Executor ω ρ) :
    Prop where
  inFlight : executor.inFlight = (granted.filter fun id => !ended.contains id).length
  /-- Nobody gets two permits, and none is given back twice or without having been granted. -/
  once : granted.Nodup ∧ ended.Nodup ∧ ∀ id ∈ ended, id ∈ granted
  /-- A semaphore that is taken from at every grant and given back to at every end says the same,
  and is never asked for more than it has. -/
  counted : granted.length ≤ capacity + ended.length ∧
    executor.inFlight = capacity - permitsLeft capacity granted ended
  bounded : executor.inFlight ≤ capacity
  waits : executor.queue ≠ [] → executor.inFlight = capacity
  settled : (∀ id ∈ granted, id ∈ ended) → executor.inFlight = 0

theorem permits_conserved {capacity : Nat} {granted ended : List Nat}
    (course : Course capacity granted ended executor) :
    Conserved capacity granted ended executor := by
  have balanced := course.balanced
  have total := balanced.inFlight_add_ended
  have bounded : executor.inFlight ≤ capacity := by
    rw [← course.capacity_eq]
    exact balanced.orderly.within
  refine {
    inFlight := balanced.inFlight_eq
    once := ⟨balanced.once, balanced.endedOnce, balanced.sound⟩
    counted := ⟨by omega, by rw [permitsLeft]; omega⟩
    bounded
    waits := fun waits => ?_
    settled := fun all => ?_ }
  · rw [← course.capacity_eq]
    exact balanced.orderly.full waits
  · rw [balanced.inFlight_eq, List.length_eq_zero_iff, List.filter_eq_nil_iff]
    exact fun id member => by simp [all id member]

/-- The second of two calls gets the permit when the first one, long given up, has ended. -/
theorem permits_conserved_passed_on : ∃ executor : Executor Unit Unit,
    Course 1 [0, 1] [0] executor ∧ Conserved 1 [0, 1] [0] executor := by
  have first : Course 1 [0] [] (Executor.submit (start 1 : Executor Unit Unit) 0 "stop" 5 ()) :=
    .next .start (.arrive _ 0 "stop" 5 ())
  have second := (first.next (.arrive _ 2 "start" 50 ())).next (.deadlines _ 5)
  have detached : (⟨⟨0, "stop", 5, 5⟩, false, ()⟩ : Running Unit) ∈ [_] := List.mem_singleton_self _
  have course : Course 1 [0, 1] [0] _ := second.next (.finish (.value ()) detached)
  exact ⟨_, course, permits_conserved course⟩

end ServiceHost.Executor
