import Mathlib.Data.List.Nodup
import ServiceHost.Proofs.Executor.Schedule

/-! What one turn shows.

A deadline answers the callers that it meets and shows nothing else. Work that ends shows
its end, and its answer if its caller still waits.
-/

set_option autoImplicit false

namespace ServiceHost

/-- Where numbers come once, the one number picks the one member. -/
theorem filter_eq_singleton {α : Type} {number : α → Nat} {members : List α} {member : α}
    (once : (members.map number).Nodup) (there : member ∈ members) :
    (members.filter fun other => number other == number member) = [member] := by
  induction members with
  | nil => cases there
  | cons first rest ih =>
    obtain ⟨fresh, once⟩ := List.nodup_cons.mp once
    rcases List.mem_cons.mp there with rfl | there
    · have others : (rest.filter fun other => number other == number member) = [] := by
        refine List.filter_eq_nil_iff.mpr fun other among same => fresh ?_
        rw [← beq_iff_eq.mp same]
        exact List.mem_map_of_mem among
      simp [others]
    · have differs : number first ≠ number member :=
        fun same => fresh (same ▸ List.mem_map_of_mem there)
      simp [differs, ih once there]

namespace Calls

variable {ρ : Type} {id now : Nat} {executor : Executor (Progress ρ) ρ}

/-! ## Deadlines -/

/-- The callers that a deadline answers. -/
def late (executor : Executor (Progress ρ) ρ) (now : Nat) : List Request :=
  (executor.queue.filter fun call => call.1.expires ≤ now).map (·.1) ++
    (executor.running.filter fun call => call.awaited && call.request.expires ≤ now).map (·.request)

def timeouts (requests : List Request) : List (Happening ρ) :=
  requests.map fun request => .answered request.id (.error request.timeout)

theorem replies_expire : replies executor (executor.expire now) = timeouts (late executor now) := by
  simp only [replies, Executor.expire, List.drop_left, List.map_map]
  rfl

theorem late_nodup (orderly : executor.Orderly) : ((late executor now).map (·.id)).Nodup := by
  have once : (executor.line ++ executor.holders).Nodup := by
    refine List.nodup_append.mpr ⟨orderly.sorted.imp Nat.ne_of_lt, orderly.once, ?_⟩
    exact fun waiting waits holder holds => Nat.ne_of_gt (orderly.older holder holds waiting waits)
  refine once.sublist ?_
  simp only [late, List.map_append, List.map_map]
  exact (List.filter_sublist.map _).append (List.filter_sublist.map _)

theorem mem_late_of_queued {call : Request × Progress ρ} (member : call ∈ executor.queue)
    (expired : call.1.expires ≤ now) : call.1 ∈ late executor now :=
  List.mem_append_left _
    (List.mem_map_of_mem (List.mem_filter.mpr ⟨member, by simpa using expired⟩))

theorem mem_late_of_awaited {call : Running (Progress ρ)} (member : call ∈ executor.running)
    (awaited : call.awaited = true) (expired : call.request.expires ≤ now) :
    call.request ∈ late executor now :=
  List.mem_append_right _
    (List.mem_map_of_mem (List.mem_filter.mpr ⟨member, by simpa [awaited] using expired⟩))

theorem late_cases {request : Request} (member : request ∈ late executor now) :
    request.expires ≤ now ∧
      ((∃ call ∈ executor.queue, call.1 = request) ∨
        ∃ call ∈ executor.running, call.request = request ∧ call.awaited = true) := by
  rcases List.mem_append.mp member with queued | granted
  · obtain ⟨call, there, rfl⟩ := List.mem_map.mp queued
    obtain ⟨there, expired⟩ := List.mem_filter.mp there
    exact ⟨by simpa using expired, .inl ⟨call, there, rfl⟩⟩
  · obtain ⟨call, there, rfl⟩ := List.mem_map.mp granted
    obtain ⟨there, both⟩ := List.mem_filter.mp there
    obtain ⟨awaited, expired⟩ := Bool.and_eq_true_iff.mp both
    exact ⟨by simpa using expired, .inr ⟨call, there, rfl, awaited⟩⟩

theorem not_late_of_queued (orderly : executor.Orderly) {call : Request × Progress ρ}
    (member : call ∈ executor.queue) (timely : now < call.1.expires) :
    ∀ request ∈ late executor now, request.id ≠ call.1.id := by
  intro request there same
  obtain ⟨expired, ⟨other, among, rfl⟩ | ⟨other, among, rfl, _⟩⟩ := late_cases there
  · have := List.inj_on_of_nodup_map (orderly.sorted.imp Nat.ne_of_lt) among member same
    subst this
    omega
  · have := orderly.older _ (List.mem_map_of_mem among) _ (List.mem_map_of_mem member)
    omega

theorem not_late_of_granted (orderly : executor.Orderly) {call : Running (Progress ρ)}
    (member : call ∈ executor.running) (timely : call.awaited = true → now < call.request.expires) :
    ∀ request ∈ late executor now, request.id ≠ call.request.id := by
  intro request there same
  obtain ⟨expired, ⟨other, among, rfl⟩ | ⟨other, among, rfl, awaited⟩⟩ := late_cases there
  · have := orderly.older _ (List.mem_map_of_mem member) _ (List.mem_map_of_mem among)
    omega
  · have := List.inj_on_of_nodup_map orderly.once among member same
    subst this
    have := timely awaited
    omega

theorem not_late_of_absent (waits : id ∉ executor.line) (holds : id ∉ executor.holders) :
    ∀ request ∈ late executor now, request.id ≠ id := by
  rintro request there rfl
  obtain ⟨_, ⟨other, among, rfl⟩ | ⟨other, among, rfl, _⟩⟩ := late_cases there
  · exact waits (List.mem_map_of_mem among)
  · exact holds (List.mem_map_of_mem among)

theorem noted_timeouts (id now : Nat) (requests : List Request) :
    let shown : Log ρ := noted now (timeouts requests)
    shown.begun id = [] ∧ shown.ended id = [] ∧
      shown.answers id = (requests.filter fun request => request.id == id).map fun request =>
        (now, .error request.timeout) := by
  refine ⟨?_, ?_, ?_⟩
  · simp [noted, timeouts, Log.begun, List.filterMap_map, Function.comp_def]
  · simp [noted, timeouts, Log.ended, List.filterMap_map, Function.comp_def]
  · induction requests with
    | nil => rfl
    | cons request rest ih =>
      simp only [noted, timeouts, Log.answers, List.map_cons, List.filterMap_cons,
        List.filter_cons, beq_iff_eq] at ih ⊢
      split <;> simp_all

/-- Nothing is shown of a call that no deadline meets. -/
theorem blank_expire (absent : ∀ request ∈ late executor now, request.id ≠ id) :
    (noted now (replies executor (executor.expire now))).Blank id := by
  rw [replies_expire]
  obtain ⟨begun, ended, answers⟩ := noted_timeouts (ρ := ρ) id now (late executor now)
  refine ⟨begun, ended, ?_⟩
  rw [answers, List.map_eq_nil_iff, List.filter_eq_nil_iff]
  exact fun request member => by simpa using absent request member

theorem noted_expire (orderly : executor.Orderly) {request : Request}
    (member : request ∈ late executor now) :
    let shown := noted now (replies executor (executor.expire now))
    shown.begun request.id = [] ∧ shown.ended request.id = [] ∧
      shown.answers request.id = [(now, .error request.timeout)] := by
  rw [replies_expire]
  obtain ⟨begun, ended, answers⟩ := noted_timeouts (ρ := ρ) request.id now (late executor now)
  refine ⟨begun, ended, ?_⟩
  rw [answers, filter_eq_singleton (late_nodup orderly) member]
  rfl

/-! ## Work -/

theorem blank_began {other : Nat} (differs : other ≠ id) :
    (noted now [(.began other : Happening ρ)]).Blank id := by
  constructor <;> simp [noted, Log.begun, Log.ended, Log.answers, differs]

theorem replies_finish (orderly : executor.Orderly) {call : Running (Progress ρ)}
    (member : call ∈ executor.running) (ending : Ending ρ) :
    replies executor (executor.finish call.request.id ending) =
      if call.awaited then
        [.answered call.request.id (ending.outcome call.request.operation)]
      else [] := by
  have alone := filter_eq_singleton orderly.once member
  simp only [replies, Executor.finish, Executor.conclude, Executor.grantFree, List.drop_left, alone]
  cases awaited : call.awaited <;> cases ending <;> simp [awaited, Ending.outcome]

theorem blank_finish (now : Nat) (orderly : executor.Orderly) {call : Running (Progress ρ)}
    (member : call ∈ executor.running) (ending : Ending ρ) (differs : call.request.id ≠ id) :
    (noted now (.ended call.request.id ::
      replies executor (executor.finish call.request.id ending))).Blank id := by
  rw [replies_finish orderly member]
  cases call.awaited <;> constructor <;>
    simp [noted, Log.begun, Log.ended, Log.answers, differs]

theorem noted_finish (now : Nat) (orderly : executor.Orderly) {call : Running (Progress ρ)}
    (member : call ∈ executor.running) (ending : Ending ρ) :
    let shown := noted now (.ended call.request.id ::
      replies executor (executor.finish call.request.id ending))
    shown.begun call.request.id = [] ∧ shown.ended call.request.id = [now] ∧
      shown.answers call.request.id =
        if call.awaited then [(now, ending.outcome call.request.operation)] else [] := by
  rw [replies_finish orderly member]
  cases call.awaited <;> simp [noted, Log.begun, Log.ended, Log.answers]

end Calls

end ServiceHost
