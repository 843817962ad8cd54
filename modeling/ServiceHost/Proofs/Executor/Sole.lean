import ServiceHost.Executor.Queue

/-! The numbers of calls, and an executor that has no more than one call at a time. -/

set_option autoImplicit false

namespace ServiceHost.Executor

variable {ω ρ : Type} {executor : Executor ω ρ}

/-! ## Numbers -/

/-- No number of a call comes again. -/
structure Numbered (executor : Executor ω ρ) : Prop where
  queued : ∀ call ∈ executor.queue, call.1.id < executor.issued
  granted : ∀ call ∈ executor.running, call.request.id < executor.issued
  answered : ∀ entry ∈ executor.answers, entry.1 < executor.issued

theorem numbered_start (capacity : Nat) : (start capacity : Executor ω ρ).Numbered :=
  ⟨fun _ member => (by cases member), fun _ member => (by cases member),
    fun _ member => (by cases member)⟩

theorem grant_numbers {limit : Nat} (capacity : Nat) (queue : List (Request × ω))
    (running : List (Running ω)) (queued : ∀ call ∈ queue, call.1.id < limit)
    (granted : ∀ call ∈ running, call.request.id < limit) :
    (∀ call ∈ (grant capacity queue running).1, call.1.id < limit) ∧
      ∀ call ∈ (grant capacity queue running).2, call.request.id < limit := by
  induction queue generalizing running with
  | nil => exact ⟨queued, granted⟩
  | cons call rest ih =>
    obtain ⟨request, work⟩ := call
    unfold grant
    split
    · refine ih _ (fun call member => queued call (List.mem_cons_of_mem _ member)) ?_
      intro call member
      rcases List.mem_append.mp member with old | new
      · exact granted call old
      · rw [List.mem_singleton.mp new]
        exact queued _ (List.mem_cons_self ..)
    · exact ⟨queued, granted⟩

namespace Numbered

theorem grantFree (numbered : executor.Numbered) : executor.grantFree.Numbered := by
  obtain ⟨queued, granted⟩ := grant_numbers executor.capacity _ _ numbered.queued numbered.granted
  exact ⟨queued, granted, numbered.answered⟩

/-- A call that comes takes the next number. -/
theorem joined (numbered : executor.Numbered) (now : Nat) (operation : String) (deadline : Nat)
    (work : ω) :
    Numbered { executor with
      issued := executor.issued + 1
      queue := executor.queue ++
        [(⟨executor.issued, operation, deadline, now + deadline⟩, work)] } := by
  refine ⟨fun call member => ?_, fun call member => ?_, fun entry member => ?_⟩
  · rcases List.mem_append.mp member with old | new
    · exact Nat.lt_succ_of_lt (numbered.queued call old)
    · rw [List.mem_singleton.mp new]
      exact Nat.lt_succ_self _
  · exact Nat.lt_succ_of_lt (numbered.granted call member)
  · exact Nat.lt_succ_of_lt (numbered.answered entry member)

theorem submit (numbered : executor.Numbered) (now : Nat) (operation : String) (deadline : Nat)
    (work : ω) : (executor.submit now operation deadline work).Numbered :=
  (numbered.joined now operation deadline work).grantFree

theorem expire (numbered : executor.Numbered) (now : Nat) : (executor.expire now).Numbered := by
  refine ⟨fun call member => numbered.queued call (List.mem_filter.mp member).1,
    fun call member => ?_, fun entry member => ?_⟩
  · obtain ⟨earlier, there, rfl⟩ := List.mem_map.mp member
    exact numbered.granted earlier there
  -- An answer that came with a deadline has the number of a call that was queued or went on.
  · rcases List.mem_append.mp member with old | late
    · exact numbered.answered entry old
    · obtain ⟨request, there, rfl⟩ := List.mem_map.mp late
      rcases List.mem_append.mp there with queued | granted
      · obtain ⟨call, here, rfl⟩ := List.mem_map.mp queued
        exact numbered.queued call (List.mem_filter.mp here).1
      · obtain ⟨call, here, rfl⟩ := List.mem_map.mp granted
        exact numbered.granted call (List.mem_filter.mp here).1

theorem left (numbered : executor.Numbered) (id : Nat) (answer : Request → Except CallError ρ) :
    Numbered { executor with
      running := executor.running.filter fun call => !(call.request.id == id)
      answers := executor.answers ++
        ((executor.running.filter fun call => call.request.id == id).filter Running.awaited).map
          fun call => (call.request.id, answer call.request) } := by
  refine ⟨numbered.queued,
    fun call member => numbered.granted call (List.mem_filter.mp member).1,
    fun entry member => ?_⟩
  rcases List.mem_append.mp member with old | new
  · exact numbered.answered entry old
  · obtain ⟨call, there, rfl⟩ := List.mem_map.mp new
    exact numbered.granted call (List.mem_filter.mp (List.mem_filter.mp there).1).1

theorem conclude (numbered : executor.Numbered) (id : Nat)
    (answer : Request → Except CallError ρ) : (executor.conclude id answer).Numbered :=
  (numbered.left id answer).grantFree

theorem finish (numbered : executor.Numbered) (id : Nat) (ending : Ending ρ) :
    (executor.finish id ending).Numbered :=
  numbered.conclude id _

theorem continueWith (numbered : executor.Numbered) (id : Nat) (work : ω) :
    (executor.continueWith id work).Numbered := by
  refine ⟨numbered.queued, fun call member => ?_, numbered.answered⟩
  obtain ⟨earlier, there, rfl⟩ := List.mem_map.mp member
  have bound := numbered.granted earlier there
  split <;> exact bound

theorem forget (numbered : executor.Numbered) (id : Nat) : (executor.forget id).Numbered :=
  ⟨numbered.queued, numbered.granted,
    fun entry member => numbered.answered entry (List.mem_filter.mp member).1⟩

theorem unanswered (numbered : executor.Numbered) : executor.answer? executor.issued = none := by
  refine List.lookup_eq_none_iff.mpr fun entry member => ?_
  simpa using Nat.ne_of_gt (numbered.answered entry member)

end Numbered

/-! ## One call at a time -/

structure Idle (executor : Executor ω ρ) : Prop where
  queue : executor.queue = []
  running : executor.running = []

theorem Idle.forget (idle : executor.Idle) (id : Nat) : (executor.forget id).Idle :=
  ⟨idle.queue, idle.running⟩

/-- A call that is made while none is under way gets its permit at once. -/
theorem submit_of_idle (idle : executor.Idle) (permits : 0 < executor.capacity) (now : Nat)
    (operation : String) (deadline : Nat) (work : ω) :
    executor.submit now operation deadline work =
      { executor with
        issued := executor.issued + 1
        running := [⟨⟨executor.issued, operation, deadline, now + deadline⟩, true, work⟩] } := by
  simp [submit, grantFree, grant, idle.queue, idle.running, permits]

variable {call : Running ω}

theorem finish_of_sole (queue : executor.queue = []) (running : executor.running = [call])
    (awaited : call.awaited = true) (result : ρ) :
    executor.finish call.request.id (.value result) =
      { executor with
        running := []
        answers := executor.answers ++ [(call.request.id, .ok result)] } := by
  simp [finish, conclude, grantFree, grant, queue, running, awaited]

theorem continueWith_of_sole (running : executor.running = [call]) (work : ω) :
    executor.continueWith call.request.id work =
      { executor with running := [{ call with work }] } := by
  simp [continueWith, running]

theorem overdue_of_sole (queue : executor.queue = []) (running : executor.running = [call])
    (awaited : call.awaited = true) {now : Nat} (overdue : executor.overdue now = true) :
    call.request.expires ≤ now := by
  simpa [Executor.overdue, queue, running, awaited] using overdue

end ServiceHost.Executor
