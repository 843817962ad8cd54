import Mathlib.Data.List.Nodup
import ServiceHost.Proofs.Executor.Order
import ServiceHost.Proofs.Executor.Reference

/-! The calls that an executor has in hand, and those of them whose callers wait.

Permits pass through without a trace here: a call is in hand from the moment at which it is made
until its work ends or, if it never had a permit, until its deadline.
-/

set_option autoImplicit false

namespace ServiceHost.Executor

variable {ω ρ : Type} {executor : Executor ω ρ} {id now : Nat} {entry : Request × ω}

/-- The calls that hold a permit, and then those that wait for one. -/
def hand (executor : Executor ω ρ) : List (Request × ω) :=
  executor.running.map (fun call => (call.request, call.work)) ++ executor.queue

/-- The numbers of the calls in hand whose callers wait. -/
def pending (executor : Executor ω ρ) : List Nat :=
  (executor.running.filter Running.awaited).map (·.request.id) ++ executor.line

theorem mem_hand_of_running {call : Running ω} (member : call ∈ executor.running) :
    (call.request, call.work) ∈ executor.hand :=
  List.mem_append_left _ (List.mem_map_of_mem member)

theorem mem_hand_of_queue (member : entry ∈ executor.queue) : entry ∈ executor.hand :=
  List.mem_append_right _ member

theorem mem_hand : entry ∈ executor.hand ↔
    (∃ call ∈ executor.running, (call.request, call.work) = entry) ∨ entry ∈ executor.queue := by
  simp [hand]

theorem mem_pending : id ∈ executor.pending ↔
    (∃ call ∈ executor.running, call.awaited = true ∧ call.request.id = id) ∨
      ∃ call ∈ executor.queue, call.1.id = id := by
  simp [pending, line, and_assoc]

theorem hand_grantFree : executor.grantFree.hand = executor.hand := by
  simp only [hand, grantFree, grant_eq, List.map_append, List.map_map, List.append_assoc]
  -- What was admitted stands between those that go on and those that still wait.
  have admitted_id : (fun call : Running ω => (call.request, call.work)) ∘ admitted = id := rfl
  rw [admitted_id, List.map_id, List.take_append_drop]

theorem pending_grantFree : executor.grantFree.pending = executor.pending := by
  have awaited : ∀ calls : List (Request × ω), (calls.map admitted).filter Running.awaited =
      calls.map admitted := fun calls => by
    refine List.filter_eq_self.mpr fun call member => ?_
    obtain ⟨_, _, rfl⟩ := List.mem_map.mp member
    rfl
  simp only [pending, line, grantFree, grant_eq, List.filter_append, awaited, List.map_append,
    List.map_map, List.append_assoc]
  have numbers : (fun call : Running ω => call.request.id) ∘ admitted = fun call => call.1.id := rfl
  rw [numbers, ← List.map_append, List.take_append_drop]

/-! ## A call that comes -/

theorem hand_submit (now : Nat) (operation : String) (deadline : Nat) (work : ω) :
    (executor.submit now operation deadline work).hand =
      executor.hand ++ [(⟨executor.issued, operation, deadline, now + deadline⟩, work)] := by
  rw [submit, hand_grantFree]
  simp [hand]

theorem pending_submit (now : Nat) (operation : String) (deadline : Nat) (work : ω) :
    (executor.submit now operation deadline work).pending =
      executor.pending ++ [executor.issued] := by
  rw [submit, pending_grantFree]
  simp [pending, line]

/-- A call with a permit had it before, or was admitted from the line. -/
theorem running_submit {now : Nat} {operation : String} {deadline : Nat} {work : ω}
    {call : Running ω} (member : call ∈ (executor.submit now operation deadline work).running) :
    call ∈ executor.running ∨ call.awaited = true ∧ (call.request, call.work) ∈
      executor.queue ++ [(⟨executor.issued, operation, deadline, now + deadline⟩, work)] := by
  simp only [submit, grantFree, grant_eq, List.mem_append] at member
  rcases member with old | new
  · exact .inl old
  · obtain ⟨waiting, there, rfl⟩ := List.mem_map.mp new
    exact .inr ⟨rfl, List.mem_of_mem_take there⟩

theorem queue_submit {now : Nat} {operation : String} {deadline : Nat} {work : ω}
    (member : entry ∈ (executor.submit now operation deadline work).queue) :
    entry ∈ executor.queue ++
      [(⟨executor.issued, operation, deadline, now + deadline⟩, work)] := by
  simp only [submit, grantFree, grant_eq] at member
  exact List.mem_of_mem_drop member

/-! ## A call that ends -/

section

variable {answer : Request → Except CallError ρ}

theorem hand_conclude : (executor.conclude id answer).hand =
    (executor.running.filter fun call => !(call.request.id == id)).map
      (fun call => (call.request, call.work)) ++ executor.queue := by
  rw [conclude, hand_grantFree]
  rfl

theorem mem_hand_conclude (orderly : executor.Orderly) (holds : id ∈ executor.holders) :
    entry ∈ (executor.conclude id answer).hand ↔ entry ∈ executor.hand ∧ entry.1.id ≠ id := by
  have behind : entry ∈ executor.queue → entry.1.id ≠ id := fun waits =>
    Nat.ne_of_gt (orderly.older id holds entry.1.id (List.mem_map_of_mem waits))
  rw [hand_conclude, mem_hand, List.mem_append]
  simp only [List.mem_map, List.mem_filter, Bool.not_eq_true', beq_eq_false_iff_ne]
  constructor
  · rintro (⟨call, ⟨member, apart⟩, rfl⟩ | waits)
    · exact ⟨.inl ⟨call, member, rfl⟩, apart⟩
    · exact ⟨.inr waits, behind waits⟩
  · rintro ⟨⟨call, member, rfl⟩ | waits, apart⟩
    · exact .inl ⟨call, ⟨member, apart⟩, rfl⟩
    · exact .inr waits

theorem mem_pending_conclude (orderly : executor.Orderly) (holds : id ∈ executor.holders)
    {number : Nat} : number ∈ (executor.conclude id answer).pending ↔
      number ∈ executor.pending ∧ number ≠ id := by
  have behind : ∀ call ∈ executor.queue, call.1.id ≠ id := fun call waits =>
    Nat.ne_of_gt (orderly.older id holds call.1.id (List.mem_map_of_mem waits))
  rw [conclude, pending_grantFree, mem_pending, mem_pending]
  simp only [List.mem_filter, Bool.not_eq_true', beq_eq_false_iff_ne]
  constructor
  · rintro (⟨call, ⟨member, apart⟩, awaited, rfl⟩ | ⟨call, waits, rfl⟩)
    · exact ⟨.inl ⟨call, member, awaited, rfl⟩, apart⟩
    · exact ⟨.inr ⟨call, waits, rfl⟩, behind call waits⟩
  · rintro ⟨⟨call, member, awaited, rfl⟩ | ⟨call, waits, rfl⟩, apart⟩
    · exact .inl ⟨call, ⟨member, apart⟩, awaited, rfl⟩
    · exact .inr ⟨call, waits, rfl⟩

theorem running_conclude {call : Running ω} (member : call ∈ (executor.conclude id answer).running) :
    call ∈ executor.running ∨
      call.awaited = true ∧ (call.request, call.work) ∈ executor.queue := by
  obtain ⟨freed, running, _⟩ := executor.conclude_parts id answer
  rw [running] at member
  rcases List.mem_append.mp member with old | new
  · exact .inl (List.mem_filter.mp old).1
  · obtain ⟨waiting, there, rfl⟩ := List.mem_map.mp new
    exact .inr ⟨rfl, List.mem_of_mem_take there⟩

theorem queue_conclude (member : entry ∈ (executor.conclude id answer).queue) :
    entry ∈ executor.queue := by
  obtain ⟨freed, _, queue⟩ := executor.conclude_parts id answer
  exact List.mem_of_mem_drop (queue ▸ member)

theorem mem_answers_conclude {number : Nat} {told : Except CallError ρ} :
    (number, told) ∈ (executor.conclude id answer).answers ↔
      (number, told) ∈ executor.answers ∨
        ∃ call ∈ executor.running, call.awaited = true ∧ call.request.id = id ∧ number = id ∧
          told = answer call.request := by
  simp only [conclude, grantFree, List.mem_append, List.mem_map, List.mem_filter, beq_iff_eq,
    Prod.mk.injEq]
  refine or_congr_right ⟨?_, ?_⟩
  · rintro ⟨call, ⟨⟨member, rfl⟩, awaited⟩, rfl, rfl⟩
    exact ⟨call, member, awaited, rfl, rfl, rfl⟩
  · rintro ⟨call, member, awaited, rfl, rfl, rfl⟩
    exact ⟨call, ⟨⟨member, rfl⟩, awaited⟩, rfl, rfl⟩

theorem finish_eq_conclude (ending : Ending ρ) : executor.finish id ending =
    executor.conclude id fun request => ending.outcome request.operation := by
  cases ending <;> rfl

end

/-! ## Deadlines that have come -/

theorem mem_hand_of_expire (member : entry ∈ (executor.expire now).hand) :
    entry ∈ executor.hand := by
  rcases mem_hand.mp member with ⟨call, there, rfl⟩ | waits
  · obtain ⟨earlier, here, rfl⟩ := List.mem_map.mp there
    exact (mem_hand_of_running here : (earlier.request, earlier.work) ∈ _)
  · exact mem_hand_of_queue (List.mem_filter.mp waits).1

theorem running_expire {call : Running ω} (member : call ∈ (executor.expire now).running) :
    ∃ earlier ∈ executor.running, call = { earlier with
      awaited := earlier.awaited && !decide (earlier.request.expires ≤ now) } := by
  obtain ⟨earlier, here, rfl⟩ := List.mem_map.mp member
  exact ⟨earlier, here, rfl⟩

/-- Nobody waits any longer for a call whose deadline has come. -/
theorem pending_expire {number : Nat} (waits : number ∈ (executor.expire now).pending) :
    number ∈ executor.pending ∧
      ∃ entry ∈ executor.hand, entry.1.id = number ∧ now < entry.1.expires := by
  rcases mem_pending.mp waits with ⟨call, member, awaited, rfl⟩ | ⟨call, member, rfl⟩
  · obtain ⟨earlier, here, rfl⟩ := running_expire member
    simp only [Bool.and_eq_true, Bool.not_eq_true', decide_eq_false_iff_not, Nat.not_le] at awaited
    exact ⟨mem_pending.mpr (.inl ⟨earlier, here, awaited.1, rfl⟩),
      _, mem_hand_of_running here, rfl, awaited.2⟩
  · obtain ⟨here, later⟩ := List.mem_filter.mp member
    simp only [Bool.not_eq_true', decide_eq_false_iff_not, Nat.not_le] at later
    exact ⟨mem_pending.mpr (.inr ⟨call, here, rfl⟩), call, mem_hand_of_queue here, rfl, later⟩

/-- Whoever waits no longer was told so. -/
theorem told_of_expire {number : Nat} (waits : number ∈ executor.pending) :
    number ∈ (executor.expire now).pending ∨
      ∃ told, (number, told) ∈ (executor.expire now).answers := by
  rcases mem_pending.mp waits with ⟨call, member, awaited, rfl⟩ | ⟨call, member, rfl⟩
  · by_cases late : call.request.expires ≤ now
    · refine .inr ⟨.error call.request.timeout, List.mem_append_right _ (List.mem_map.mpr
        ⟨call.request, List.mem_append_right _ (List.mem_map_of_mem ?_), rfl⟩)⟩
      simp [member, awaited, late]
    · refine .inl (mem_pending.mpr (.inl ⟨_, List.mem_map_of_mem member, ?_, rfl⟩))
      simp [awaited, late]
  · by_cases late : call.1.expires ≤ now
    · refine .inr ⟨.error call.1.timeout, List.mem_append_right _ (List.mem_map.mpr
        ⟨call.1, List.mem_append_left _ (List.mem_map_of_mem ?_), rfl⟩)⟩
      simp [member, late]
    · refine .inl (mem_pending.mpr (.inr ⟨call, List.mem_filter.mpr ⟨member, ?_⟩, rfl⟩))
      simp [late]

theorem mem_answers_expire {number : Nat} {told : Except CallError ρ}
    (member : (number, told) ∈ (executor.expire now).answers) :
    (number, told) ∈ executor.answers ∨ ∃ request : Request,
      request.id = number ∧ request.expires ≤ now ∧ told = .error request.timeout ∧
      ((∃ call ∈ executor.running, call.awaited = true ∧ call.request = request) ∨
        ∃ call ∈ executor.queue, call.1 = request) := by
  rcases List.mem_append.mp member with old | new
  · exact .inl old
  · obtain ⟨request, there, same⟩ := List.mem_map.mp new
    obtain ⟨rfl, rfl⟩ := Prod.mk.inj same
    refine .inr ⟨request, rfl, ?_⟩
    rcases List.mem_append.mp there with late | detached
    · obtain ⟨call, here, rfl⟩ := List.mem_map.mp late
      obtain ⟨waits, expired⟩ := List.mem_filter.mp here
      exact ⟨by simpa using expired, rfl, .inr ⟨call, waits, rfl⟩⟩
    · obtain ⟨call, here, rfl⟩ := List.mem_map.mp detached
      obtain ⟨holds, both⟩ := List.mem_filter.mp here
      simp only [Bool.and_eq_true, decide_eq_true_eq] at both
      exact ⟨both.2, rfl, .inl ⟨call, holds, both.1, rfl⟩⟩

theorem lt_expires_of_queued {call : Request × ω} (timely : executor.overdue now = false)
    (member : call ∈ executor.queue) : now < call.1.expires := by
  simp only [overdue, Bool.or_eq_false_iff, List.any_eq_false, decide_eq_true_eq] at timely
  exact Nat.lt_of_not_le (timely.1 call member)

theorem lt_expires_of_awaited {call : Running ω} (timely : executor.overdue now = false)
    (member : call ∈ executor.running) (awaited : call.awaited = true) :
    now < call.request.expires := by
  simp only [overdue, Bool.or_eq_false_iff, List.any_eq_false, Bool.and_eq_true,
    decide_eq_true_eq, not_and] at timely
  exact Nat.lt_of_not_le (timely.2 call member awaited)

/-! ## A call that goes on -/

theorem running_continueWith {work : ω} {call : Running ω}
    (member : call ∈ (executor.continueWith id work).running) :
    call ∈ executor.running ∧ call.request.id ≠ id ∨
      ∃ earlier ∈ executor.running, earlier.request.id = id ∧ call = { earlier with work } := by
  obtain ⟨earlier, here, rfl⟩ := List.mem_map.mp member
  by_cases same : earlier.request.id = id
  · exact .inr ⟨earlier, here, same, by simp [same]⟩
  · exact .inl (by simpa [same] using here)

theorem pending_continueWith (id : Nat) (work : ω) :
    (executor.continueWith id work).pending = executor.pending := by
  let changed (call : Running ω) : Running ω :=
    if call.request.id == id then { call with work } else call
  have awaited : Running.awaited ∘ changed = Running.awaited := funext fun call => by
    simp only [changed, Function.comp_apply]
    split <;> rfl
  have number : (fun call : Running ω => call.request.id) ∘ changed = (·.request.id) :=
    funext fun call => by
      simp only [changed, Function.comp_apply]
      split <;> rfl
  change ((executor.running.map changed).filter Running.awaited).map _ ++ executor.line = _
  rw [List.filter_map, List.map_map, awaited, number, pending]

/-! ## No two calls in hand have one number -/

namespace Orderly

theorem numbers_nodup (orderly : executor.Orderly) : (executor.hand.map (·.1.id)).Nodup := by
  rw [hand, List.map_append, List.map_map, List.nodup_append]
  refine ⟨orderly.once, orderly.sorted.imp Nat.ne_of_lt, fun holder holds waiting waits => ?_⟩
  exact Nat.ne_of_lt (orderly.older holder holds waiting waits)

theorem eq_of_number (orderly : executor.Orderly) {other : Request × ω}
    (member : entry ∈ executor.hand) (there : other ∈ executor.hand)
    (same : entry.1.id = other.1.id) : entry = other :=
  List.inj_on_of_nodup_map orderly.numbers_nodup member there same

end Orderly

/-! ## What is owed -/

/-- Whether the caller of a call waits, or has an answer that it has not taken. -/
def Owes (executor : Executor ω ρ) (id : Nat) : Prop :=
  id ∈ executor.pending ∨ ∃ told, (id, told) ∈ executor.answers

/-- Nobody waits for a call who has its answer. -/
def Apart (executor : Executor ω ρ) : Prop :=
  ∀ entry ∈ executor.answers, entry.1 ∉ executor.pending

theorem lt_issued_of_pending (numbered : executor.Numbered) (waits : id ∈ executor.pending) :
    id < executor.issued := by
  rcases mem_pending.mp waits with ⟨call, member, _, rfl⟩ | ⟨call, member, rfl⟩
  · exact numbered.granted call member
  · exact numbered.queued call member

theorem Owes.lt_issued (owes : executor.Owes id) (numbered : executor.Numbered) :
    id < executor.issued := by
  rcases owes with waits | ⟨told, answered⟩
  · exact lt_issued_of_pending numbered waits
  · exact numbered.answered _ answered

theorem owes_submit {operation : String} {deadline : Nat} {work : ω} :
    (executor.submit now operation deadline work).Owes id ↔
      executor.Owes id ∨ id = executor.issued := by
  rw [Owes, pending_submit, List.mem_append, List.mem_singleton, or_right_comm]
  exact Iff.rfl

theorem owes_forget (apart : executor.Apart) {call : Nat} {told : Except CallError ρ}
    (answered : (call, told) ∈ executor.answers) (number : Nat) :
    (executor.forget call).Owes number ↔ executor.Owes number ∧ number ≠ call := by
  have taken : number ∈ executor.pending → number ≠ call := by
    rintro waits rfl
    exact apart _ answered waits
  constructor
  · rintro (waits | ⟨other, member⟩)
    · exact ⟨.inl waits, taken waits⟩
    · obtain ⟨there, differs⟩ := List.mem_filter.mp member
      exact ⟨.inr ⟨other, there⟩, by simpa using differs⟩
  · rintro ⟨waits | ⟨other, member⟩, differs⟩
    · exact .inl waits
    · exact .inr ⟨other, List.mem_filter.mpr ⟨member, by simpa using differs⟩⟩

theorem owes_conclude (orderly : executor.Orderly) {call : Running ω}
    (member : call ∈ executor.running) {answer : Request → Except CallError ρ} :
    (executor.conclude call.request.id answer).Owes id ↔ executor.Owes id := by
  have holds : call.request.id ∈ executor.holders := List.mem_map_of_mem member
  simp only [Owes, mem_pending_conclude orderly holds, mem_answers_conclude]
  constructor
  · rintro (⟨waits, _⟩ | ⟨told, old | ⟨other, running, awaited, same, rfl, rfl⟩⟩)
    · exact .inl waits
    · exact .inr ⟨told, old⟩
    · exact .inl (mem_pending.mpr (.inl ⟨other, running, awaited, same⟩))
  · rintro (waits | ⟨told, old⟩)
    · by_cases same : id = call.request.id
      · subst same
        -- Whoever waits for a call with a permit is told what it came to.
        rcases mem_pending.mp waits with ⟨other, running, awaited, own⟩ | ⟨other, queued, own⟩
        · exact .inr ⟨_, .inr ⟨other, running, awaited, own, rfl, rfl⟩⟩
        · have behind := orderly.older _ holds other.1.id (List.mem_map_of_mem queued)
          exact absurd own (Nat.ne_of_gt behind)
      · exact .inl ⟨waits, same⟩
    · exact .inr ⟨told, .inl old⟩

theorem owes_expire : (executor.expire now).Owes id ↔ executor.Owes id := by
  constructor
  · rintro (waits | ⟨told, member⟩)
    · exact .inl (pending_expire waits).1
    · rcases mem_answers_expire member with old | ⟨request, rfl, _, _, waited⟩
      · exact .inr ⟨told, old⟩
      · refine .inl (mem_pending.mpr ?_)
        rcases waited with ⟨call, running, awaited, rfl⟩ | ⟨call, queued, rfl⟩
        · exact .inl ⟨call, running, awaited, rfl⟩
        · exact .inr ⟨call, queued, rfl⟩
  · rintro (waits | ⟨told, member⟩)
    · exact told_of_expire waits
    · exact .inr ⟨told, List.mem_append_left _ member⟩

namespace Apart

theorem submit (apart : executor.Apart) (numbered : executor.Numbered) (now : Nat)
    (operation : String) (deadline : Nat) (work : ω) :
    (executor.submit now operation deadline work).Apart := by
  intro entry member waits
  rw [pending_submit, List.mem_append, List.mem_singleton] at waits
  rcases waits with old | new
  · exact apart entry member old
  · exact absurd new (Nat.ne_of_lt (numbered.answered entry member))

theorem forget (apart : executor.Apart) (call : Nat) : (executor.forget call).Apart :=
  fun entry member => apart entry (List.mem_filter.mp member).1

theorem conclude (apart : executor.Apart) (orderly : executor.Orderly)
    (holds : id ∈ executor.holders) (answer : Request → Except CallError ρ) :
    (executor.conclude id answer).Apart := by
  rintro ⟨number, told⟩ member waits
  rw [mem_pending_conclude orderly holds] at waits
  rcases mem_answers_conclude.mp member with old | ⟨_, _, _, _, same, _⟩
  · exact apart _ old waits.1
  · exact waits.2 same

theorem expire (apart : executor.Apart) (orderly : executor.Orderly) (now : Nat) :
    (executor.expire now).Apart := by
  rintro ⟨number, told⟩ member waits
  obtain ⟨waited, entry, there, same, early⟩ := pending_expire waits
  rcases mem_answers_expire member with old | ⟨request, own, late, _, was⟩
  · exact apart _ old waited
  · have here : ∃ work, (request, work) ∈ executor.hand := by
      rcases was with ⟨call, running, _, rfl⟩ | ⟨call, queued, rfl⟩
      · exact ⟨_, mem_hand_of_running running⟩
      · exact ⟨_, mem_hand_of_queue queued⟩
    obtain ⟨work, mine⟩ := here
    have equal := orderly.eq_of_number there mine (same.trans own.symm)
    rw [equal] at early
    exact absurd late (Nat.not_le_of_lt early)

end Apart

end ServiceHost.Executor
