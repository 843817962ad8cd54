import ServiceHost.Executor.Queue

/-! The work that an executor has in hand, with a permit or without. -/

set_option autoImplicit false

namespace ServiceHost.Executor

variable {ω ρ : Type} (executor : Executor ω ρ)

/-- The work of all calls that are queued or go on. -/
def bodies : List ω := executor.queue.map Prod.snd ++ executor.running.map Running.work

/-- A permit moves work from the queue to what goes on, and does nothing else. -/
theorem perm_grant (capacity : Nat) (queue : List (Request × ω)) (running : List (Running ω)) :
    ((grant capacity queue running).1.map Prod.snd ++
      (grant capacity queue running).2.map Running.work).Perm
      (queue.map Prod.snd ++ running.map Running.work) := by
  -- One permit after the other: the call at the front goes to the end of those that go on.
  induction queue generalizing running with
  | nil => exact .refl _
  | cons call rest ih =>
    obtain ⟨request, work⟩ := call
    unfold grant
    split
    · refine (ih _).trans ?_
      rw [List.map_append, ← List.append_assoc]
      exact List.perm_append_singleton ..
    · exact .refl _

theorem perm_grantFree : executor.grantFree.bodies.Perm executor.bodies :=
  perm_grant executor.capacity executor.queue executor.running

theorem perm_submit (now : Nat) (operation : String) (deadline : Nat) (work : ω) :
    (executor.submit now operation deadline work).bodies.Perm (work :: executor.bodies) := by
  refine (perm_grantFree _).trans ?_
  simp only [bodies, List.map_append, List.append_assoc, List.map_cons, List.map_nil]
  exact List.perm_middle

theorem sublist_expire (now : Nat) : (executor.expire now).bodies.Sublist executor.bodies := by
  refine List.Sublist.append (List.filter_sublist.map _) ?_
  simp [expire, Function.comp_def]

/-- What is in hand without the calls of one number. -/
def without (id : Nat) : List ω :=
  executor.queue.map Prod.snd ++
    (executor.running.filter fun call => !(call.request.id == id)).map Running.work

theorem perm_finish (id : Nat) (ending : Ending ρ) :
    (executor.finish id ending).bodies.Perm (executor.without id) :=
  perm_grantFree _

theorem sublist_without (id : Nat) : (executor.without id).Sublist executor.bodies :=
  List.Sublist.append (List.Sublist.refl _) (List.filter_sublist.map _)

theorem mem_of_mem_submit {now : Nat} {operation : String} {deadline : Nat} {work body : ω}
    (member : body ∈ (executor.submit now operation deadline work).bodies) :
    body = work ∨ body ∈ executor.bodies :=
  List.mem_cons.mp ((executor.perm_submit now operation deadline work).mem_iff.mp member)

theorem mem_of_mem_finish {id : Nat} {ending : Ending ρ} {body : ω}
    (member : body ∈ (executor.finish id ending).bodies) : body ∈ executor.bodies :=
  (executor.sublist_without id).subset ((executor.perm_finish id ending).mem_iff.mp member)

theorem mem_of_mem_continueWith {id : Nat} {work body : ω}
    (member : body ∈ (executor.continueWith id work).bodies) :
    body = work ∨ body ∈ executor.bodies := by
  rcases List.mem_append.mp member with queued | granted
  · exact .inr (List.mem_append_left _ queued)
  · simp only [continueWith, List.map_map, List.mem_map, Function.comp_apply] at granted
    obtain ⟨call, there, rfl⟩ := granted
    split
    · exact .inl rfl
    · exact .inr (List.mem_append_right _ (List.mem_map_of_mem there))

/-! ## Counting -/

variable (wanted : ω → Bool)

theorem countP_submit (now : Nat) (operation : String) (deadline : Nat) (work : ω) :
    (executor.submit now operation deadline work).bodies.countP wanted =
      executor.bodies.countP wanted + if wanted work then 1 else 0 := by
  rw [(executor.perm_submit now operation deadline work).countP_eq, List.countP_cons]

theorem countP_expire_le (now : Nat) :
    (executor.expire now).bodies.countP wanted ≤ executor.bodies.countP wanted :=
  (executor.sublist_expire now).countP_le

theorem countP_finish_le (id : Nat) (ending : Ending ρ) :
    (executor.finish id ending).bodies.countP wanted ≤ executor.bodies.countP wanted := by
  rw [(executor.perm_finish id ending).countP_eq]
  exact (executor.sublist_without id).countP_le

theorem countP_finish_lt {call : Running ω} (ending : Ending ρ) (member : call ∈ executor.running)
    (counts : wanted call.work = true) :
    (executor.finish call.request.id ending).bodies.countP wanted <
      executor.bodies.countP wanted := by
  rw [(executor.perm_finish call.request.id ending).countP_eq]
  simp only [without, bodies, List.countP_append, List.countP_map, List.countP_filter]
  -- Around the call itself nothing counts for more than before, and the call no longer counts.
  have fewer : executor.running.countP
      (fun other => (wanted ∘ Running.work) other && !(other.request.id == call.request.id)) <
        executor.running.countP (wanted ∘ Running.work) := by
    obtain ⟨before, after, split⟩ := List.append_of_mem member
    have smaller : ∀ calls : List (Running ω), calls.countP
        (fun other => (wanted ∘ Running.work) other && !(other.request.id == call.request.id)) ≤
          calls.countP (wanted ∘ Running.work) := fun calls =>
      List.countP_mono_left fun other _ both => (Bool.and_eq_true_iff.mp both).1
    rw [split, List.countP_append, List.countP_append, List.countP_cons, List.countP_cons]
    have left := smaller before
    have right := smaller after
    have counted : (wanted ∘ Running.work) call = true := counts
    rw [if_pos counted, if_neg (by simp)]
    omega
  omega

theorem countP_continueWith_le {id : Nat} {work : ω} (other : wanted work = false) :
    (executor.continueWith id work).bodies.countP wanted ≤ executor.bodies.countP wanted := by
  have smaller : ∀ calls : List (Running ω),
      (calls.map fun call => if call.request.id == id then { call with work } else call).countP
        (wanted ∘ Running.work) ≤ calls.countP (wanted ∘ Running.work) := by
    intro calls
    induction calls with
    | nil => exact Nat.le_refl _
    | cons call rest ih =>
      rw [List.map_cons, List.countP_cons, List.countP_cons]
      by_cases same : (call.request.id == id) = true
      -- The call that goes on is not counted any more; it may have been counted before.
      · have uncounted : (wanted ∘ Running.work) { call with work } = false := other
        rw [if_pos same, uncounted, if_neg Bool.false_ne_true]
        omega
      · rw [if_neg same]
        omega
  have running := smaller executor.running
  simp only [bodies, continueWith, List.countP_append, List.countP_map] at running ⊢
  omega

end ServiceHost.Executor
