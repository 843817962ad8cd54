import ServiceHost.Proofs.Executor.Sole

/-! The order in which calls get their permits.

Calls stand in line in the order of their numbers, and all that have a permit came before
all that wait. Nobody waits while a permit is free, and no call holds two.
-/

set_option autoImplicit false

namespace ServiceHost.Executor

variable {ω ρ : Type} {executor before after : Executor ω ρ} {id : Nat}

/-- The numbers of the calls that hold a permit. -/
def holders (executor : Executor ω ρ) : List Nat := executor.running.map (·.request.id)

/-- The numbers of the calls that wait for a permit, oldest first. -/
def line (executor : Executor ω ρ) : List Nat := executor.queue.map (·.1.id)

/-- What a call is that gets its permit. -/
def admitted (call : Request × ω) : Running ω := ⟨call.1, true, call.2⟩

/-- Free permits go to the front of the queue, one each. -/
theorem grant_eq (capacity : Nat) (queue : List (Request × ω)) (running : List (Running ω)) :
    grant capacity queue running =
      (queue.drop (capacity - running.length),
        running ++ (queue.take (capacity - running.length)).map admitted) := by
  induction queue generalizing running with
  | nil => simp [grant]
  | cons call rest ih =>
    obtain ⟨request, work⟩ := call
    unfold grant
    split
    · rename_i free
      obtain ⟨left, equation⟩ := Nat.exists_eq_add_of_lt free
      have more : capacity - running.length = left + 1 := by omega
      have fewer : capacity - (running ++ [(⟨request, true, work⟩ : Running ω)]).length = left := by
        simp only [List.length_append, List.length_singleton]
        omega
      rw [ih, fewer, more]
      simp [admitted]
    · have none : capacity - running.length = 0 := by omega
      simp [none]

theorem line_grantFree : executor.grantFree.line =
    executor.line.drop (executor.capacity - executor.running.length) := by
  simp [line, grantFree, grant_eq, List.map_drop]

theorem holders_grantFree : executor.grantFree.holders =
    executor.holders ++ executor.line.take (executor.capacity - executor.running.length) := by
  simp [holders, line, grantFree, grant_eq, List.map_take, admitted, Function.comp_def]

theorem line_submit (now : Nat) (operation : String) (deadline : Nat) (work : ω) :
    (executor.submit now operation deadline work).line =
      (executor.line ++ [executor.issued]).drop (executor.capacity - executor.running.length) := by
  rw [submit, line_grantFree]
  simp [line]

theorem holders_submit (now : Nat) (operation : String) (deadline : Nat) (work : ω) :
    (executor.submit now operation deadline work).holders = executor.holders ++
      (executor.line ++ [executor.issued]).take (executor.capacity - executor.running.length) := by
  rw [submit, holders_grantFree]
  simp [line, holders]

/-- Whoever waits gets a permit or stays in line. -/
theorem waiting_submit {now : Nat} {operation : String} {deadline : Nat} {work : ω}
    (waits : id ∈ executor.line ++ [executor.issued]) :
    id ∈ (executor.submit now operation deadline work).holders ∨
      id ∈ (executor.submit now operation deadline work).line := by
  rw [← List.take_append_drop (executor.capacity - executor.running.length)
    (executor.line ++ [executor.issued])] at waits
  rw [holders_submit, line_submit]
  exact (List.mem_append.mp waits).imp_left (List.mem_append_right _)

theorem submit_of_full (full : executor.running.length = executor.capacity) (now : Nat)
    (operation : String) (deadline : Nat) (work : ω) :
    executor.submit now operation deadline work =
      { executor with
        issued := executor.issued + 1
        queue := executor.queue ++
          [(⟨executor.issued, operation, deadline, now + deadline⟩, work)] } := by
  simp [submit, grantFree, grant_eq, full]

theorem holders_expire (now : Nat) : (executor.expire now).holders = executor.holders := by
  simp [holders, expire, Function.comp_def]

theorem line_expire (now : Nat) : (executor.expire now).line.Sublist executor.line :=
  List.filter_sublist.map _

theorem holders_continueWith (id : Nat) (work : ω) :
    (executor.continueWith id work).holders = executor.holders := by
  simp only [holders, continueWith, List.map_map]
  refine List.map_congr_left fun call _ => ?_
  simp only [Function.comp_apply]
  split <;> rfl

/-- The permit of a call that is over goes to the front of the line. -/
theorem conclude_parts (id : Nat) (answer : Request → Except CallError ρ) :
    ∃ freed, (executor.conclude id answer).running =
        (executor.running.filter fun call => !(call.request.id == id)) ++
          (executor.queue.take freed).map admitted ∧
      (executor.conclude id answer).queue = executor.queue.drop freed := by
  simp only [conclude, grantFree, grant_eq]
  exact ⟨_, rfl, rfl⟩

theorem holders_conclude (id : Nat) (answer : Request → Except CallError ρ) :
    ∃ freed, (executor.conclude id answer).holders =
        (executor.holders.filter fun holder => !(holder == id)) ++ executor.line.take freed ∧
      (executor.conclude id answer).line = executor.line.drop freed := by
  obtain ⟨freed, running, queue⟩ := executor.conclude_parts id answer
  refine ⟨freed, ?_, ?_⟩
  · simp [holders, line, running, admitted, List.filter_map, List.map_take, Function.comp_def]
  · simp [line, queue]

theorem conclude_holder_cases {ended : Nat} {answer : Request → Except CallError ρ}
    (holds : id ∈ (executor.conclude ended answer).holders) :
    (id ∈ executor.holders ∧ id ≠ ended) ∨ id ∈ executor.line := by
  obtain ⟨freed, holders, _⟩ := executor.holders_conclude ended answer
  rw [holders] at holds
  rcases List.mem_append.mp holds with stayed | passed
  · exact .inl (by simpa using stayed)
  · exact .inr (List.mem_of_mem_take passed)

theorem holds_conclude {ended : Nat} {answer : Request → Except CallError ρ}
    (held : id ∈ executor.holders) (going : id ≠ ended) :
    id ∈ (executor.conclude ended answer).holders := by
  obtain ⟨freed, holders, _⟩ := executor.holders_conclude ended answer
  rw [holders]
  exact List.mem_append_left _ (by simpa [held] using going)

theorem waits_of_conclude {ended : Nat} {answer : Request → Except CallError ρ}
    (waits : id ∈ (executor.conclude ended answer).line) : id ∈ executor.line := by
  obtain ⟨freed, _, line⟩ := executor.holders_conclude ended answer
  exact List.mem_of_mem_drop (line ▸ waits)

theorem waiting_conclude {ended : Nat} {answer : Request → Except CallError ρ}
    (waits : id ∈ executor.line) :
    id ∈ (executor.conclude ended answer).holders ∨
      id ∈ (executor.conclude ended answer).line := by
  obtain ⟨freed, holders, line⟩ := executor.holders_conclude ended answer
  rw [← List.take_append_drop freed executor.line] at waits
  rw [holders, line]
  exact (List.mem_append.mp waits).imp_left (List.mem_append_right _)

/-! ## Steps -/

inductive Event where
  | arrive
  | deadlines
  | goOn (id : Nat)
  /-- The work of a call has ended, or its task was dropped. -/
  | ended (id : Nat)
  | forget (id : Nat)

def Event.endings : Event → List Nat
  | .ended id => [id]
  | _ => []

/-- Everything that can happen to an executor, at whatever instant. -/
inductive Step : Executor ω ρ → Event → Executor ω ρ → Prop where
  | arrive (executor : Executor ω ρ) (now : Nat) (operation : String) (deadline : Nat) (work : ω) :
      Step executor .arrive (executor.submit now operation deadline work)
  | deadlines (executor : Executor ω ρ) (now : Nat) :
      Step executor .deadlines (executor.expire now)
  | goOn (executor : Executor ω ρ) (id : Nat) (work : ω) :
      Step executor (.goOn id) (executor.continueWith id work)
  | finish {executor : Executor ω ρ} {call : Running ω} (ending : Ending ρ) :
      call ∈ executor.running →
      Step executor (.ended call.request.id) (executor.finish call.request.id ending)
  | cancel {executor : Executor ω ρ} {call : Running ω} : call ∈ executor.running →
      Step executor (.ended call.request.id) (executor.cancel call.request.id)
  | forget (executor : Executor ω ρ) (id : Nat) : Step executor (.forget id) (executor.forget id)

theorem Step.capacity {event : Event} (step : Step before event after) :
    after.capacity = before.capacity := by
  cases step <;> rfl

/-! ## The order of the line -/

/-- The line, apart from permits that are still to be passed on. -/
structure Lined (executor : Executor ω ρ) : Prop where
  numbered : executor.Numbered
  sorted : executor.line.Pairwise (· < ·)
  older : ∀ holder ∈ executor.holders, ∀ waiting ∈ executor.line, holder < waiting
  once : executor.holders.Nodup
  within : executor.running.length ≤ executor.capacity

structure Orderly (executor : Executor ω ρ) : Prop extends Lined executor where
  full : executor.queue ≠ [] → executor.running.length = executor.capacity

namespace Lined

theorem lt_issued_of_holder (lined : executor.Lined) {id : Nat} (member : id ∈ executor.holders) :
    id < executor.issued := by
  obtain ⟨call, there, rfl⟩ := List.mem_map.mp member
  exact lined.numbered.granted call there

theorem lt_issued_of_waiting (lined : executor.Lined) {id : Nat} (member : id ∈ executor.line) :
    id < executor.issued := by
  obtain ⟨call, there, rfl⟩ := List.mem_map.mp member
  exact lined.numbered.queued call there

theorem grantFree (lined : executor.Lined) : executor.grantFree.Orderly := by
  have parts := List.take_append_drop (executor.capacity - executor.running.length) executor.line
  have sorted := lined.sorted
  rw [← parts, List.pairwise_append] at sorted
  obtain ⟨served, left, between⟩ := sorted
  exact {
    numbered := lined.numbered.grantFree
    sorted := by rwa [line_grantFree]
    older := by
      rw [holders_grantFree, line_grantFree]
      intro holder holds waiting waits
      rcases List.mem_append.mp holds with old | new
      · exact lined.older holder old waiting (List.mem_of_mem_drop waits)
      · exact between holder new waiting waits
    once := by
      rw [holders_grantFree, List.nodup_append]
      refine ⟨lined.once, served.imp Nat.ne_of_lt, fun holder old other new => ?_⟩
      exact Nat.ne_of_lt (lined.older holder old other (List.mem_of_mem_take new))
    within := by
      have := lined.within
      simp only [Executor.grantFree, grant_eq, List.length_append, List.length_map,
        List.length_take]
      omega
    full := by
      have := lined.within
      simp only [Executor.grantFree, grant_eq, List.length_append, List.length_map,
        List.length_take, ne_eq, List.drop_eq_nil_iff]
      omega }

end Lined

namespace Orderly

theorem start (capacity : Nat) : (start capacity : Executor ω ρ).Orderly where
  numbered := numbered_start capacity
  sorted := .nil
  older := fun _ member => (by cases member)
  once := .nil
  within := Nat.zero_le _
  full := fun waits => absurd rfl waits

/-- A call that comes while a permit is free gets it. -/
theorem submit_of_free (orderly : executor.Orderly)
    (free : executor.running.length < executor.capacity) (now : Nat) (operation : String)
    (deadline : Nat) (work : ω) :
    executor.submit now operation deadline work =
      { executor with
        issued := executor.issued + 1
        queue := []
        running := executor.running ++
          [⟨⟨executor.issued, operation, deadline, now + deadline⟩, true, work⟩] } := by
  have alone : executor.queue = [] :=
    Decidable.byContradiction fun waits => Nat.ne_of_lt free (orderly.full waits)
  simp [submit, grantFree, grant, alone, free]

/-- Only what holds a permit and what stands in line counts. -/
theorem of_sublist (orderly : executor.Orderly) (numbered : after.Numbered)
    (capacity : after.capacity = executor.capacity) (holders : after.holders = executor.holders)
    (line : after.line.Sublist executor.line) : after.Orderly where
  numbered := numbered
  sorted := orderly.sorted.sublist line
  older := fun holder holds waiting waits =>
    orderly.older holder (holders ▸ holds) waiting (line.subset waits)
  once := holders ▸ orderly.once
  within := by
    have same := congrArg List.length holders
    simp only [Executor.holders, List.length_map] at same
    rw [same, capacity]
    exact orderly.within
  full := by
    intro waits
    have same := congrArg List.length holders
    simp only [Executor.holders, List.length_map] at same
    rw [same, capacity]
    refine orderly.full fun empty => waits ?_
    simpa [Executor.line, empty] using line

theorem arrive (orderly : executor.Orderly) (now : Nat) (operation : String) (deadline : Nat)
    (work : ω) : (executor.submit now operation deadline work).Orderly := by
  refine Lined.grantFree
    ⟨orderly.numbered.joined now operation deadline work, ?_, ?_, orderly.once, orderly.within⟩
  · simp only [line, List.map_append, List.map_cons, List.map_nil, List.pairwise_append,
      List.mem_singleton, forall_eq]
    exact ⟨orderly.sorted, List.pairwise_singleton .., fun _ => orderly.lt_issued_of_waiting⟩
  · intro holder holds waiting waits
    simp only [line, List.map_append, List.mem_append, List.map_cons, List.map_nil,
      List.mem_singleton] at waits
    rcases waits with old | rfl
    · exact orderly.older holder holds waiting old
    · exact orderly.lt_issued_of_holder holds

theorem expire (orderly : executor.Orderly) (now : Nat) : (executor.expire now).Orderly :=
  orderly.of_sublist (orderly.numbered.expire now) rfl (holders_expire now) (line_expire now)

theorem continueWith (orderly : executor.Orderly) (id : Nat) (work : ω) :
    (executor.continueWith id work).Orderly :=
  orderly.of_sublist (orderly.numbered.continueWith id work) rfl (holders_continueWith id work)
    (.refl _)

theorem forget (orderly : executor.Orderly) (id : Nat) : (executor.forget id).Orderly :=
  orderly.of_sublist (orderly.numbered.forget id) rfl rfl (.refl _)

theorem conclude (orderly : executor.Orderly) (id : Nat)
    (answer : Request → Except CallError ρ) : (executor.conclude id answer).Orderly := by
  have fewer : ((executor.running.filter fun call => !(call.request.id == id)).map
      (·.request.id)).Sublist executor.holders := List.filter_sublist.map _
  refine Lined.grantFree
    ⟨orderly.numbered.left id answer, orderly.sorted, ?_, orderly.once.sublist fewer, ?_⟩
  · exact fun holder holds => orderly.older holder (fewer.subset holds)
  · exact Nat.le_trans (List.length_filter_le ..) orderly.within

theorem step (orderly : before.Orderly) {event : Event} (step : Step before event after) :
    after.Orderly := by
  cases step with
  | arrive => exact orderly.arrive ..
  | deadlines => exact orderly.expire _
  | goOn => exact orderly.continueWith ..
  | finish | cancel => exact orderly.conclude ..
  | forget => exact orderly.forget _

end Orderly

end ServiceHost.Executor
