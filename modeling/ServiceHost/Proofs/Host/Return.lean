import Mathlib.Algebra.Order.BigOperators.Group.List
import Mathlib.Algebra.Order.Ring.Nat
import ServiceHost.Proofs.Host.Deadlines

/-! That operations return: from wherever they wait there is a way to their ends, on which nobody
launches anything and every event comes at its time.
-/

set_option autoImplicit false

namespace ServiceHost

theorem length_lt_of_gone {α : Type} {fewer all : List α} {entry : α} (once : fewer.Nodup)
    (subset : fewer ⊆ all) (member : entry ∈ all) (gone : entry ∉ fewer) :
    fewer.length < all.length :=
  (List.subperm_of_subset (List.nodup_cons.mpr ⟨gone, once⟩)
    (List.cons_subset.mpr ⟨member, subset⟩)).length_le

theorem Service.exists_begin (service : Service) (now : Nat) (query : Query) :
    ∃ phase after, service.goOn now query .fresh = some (phase, after) := by
  cases service with
  | threaded | scripted => exact ⟨_, _, rfl⟩

namespace Executor

variable {ω ρ : Type} {executor later : Executor ω ρ} {now id : Nat}

theorem Orderly.pending_nodup (orderly : executor.Orderly) : executor.pending.Nodup := by
  refine orderly.numbers_nodup.sublist ?_
  rw [pending, hand, List.map_append, List.map_map]
  exact (List.filter_sublist.map _).append (.refl _)

/-- A call that is waited for beyond its deadline. -/
theorem exists_late (overdue : executor.overdue now = true) :
    ∃ entry ∈ executor.hand, entry.1.id ∈ executor.pending ∧ entry.1.expires ≤ now := by
  simp only [Executor.overdue, Bool.or_eq_true, List.any_eq_true, Bool.and_eq_true,
    decide_eq_true_eq] at overdue
  rcases overdue with ⟨call, waits, expired⟩ | ⟨call, running, awaited, expired⟩
  · exact ⟨call, mem_hand_of_queue waits, mem_pending.mpr (.inr ⟨call, waits, rfl⟩), expired⟩
  · exact ⟨_, mem_hand_of_running running,
      mem_pending.mpr (.inl ⟨call, running, awaited, rfl⟩), expired⟩

/-- Once a deadline is over, fewer callers wait. -/
theorem length_pending_expire_lt (orderly : executor.Orderly)
    (overdue : executor.overdue now = true) :
    (executor.expire now).pending.length < executor.pending.length := by
  obtain ⟨entry, member, waits, expired⟩ := exists_late overdue
  refine length_lt_of_gone (orderly.expire now).pending_nodup
    (fun _ still => (pending_expire still).1) waits fun still => ?_
  obtain ⟨_, other, there, same, early⟩ := pending_expire still
  rw [orderly.eq_of_number there member same] at early
  exact Nat.not_le_of_lt early expired

theorem hand_expire_sublist (executor : Executor ω ρ) (now : Nat) :
    (executor.expire now).hand.Sublist executor.hand := by
  simp only [hand, expire, List.map_map, Function.comp_def]
  exact (List.Sublist.refl _).append List.filter_sublist

/-- The next deadline is that of a call that is waited for, and it is over when it comes. -/
theorem overdue_of_deadline? {instant : Nat} (next : executor.deadline? = some instant) :
    executor.overdue instant = true := by
  simp only [Executor.overdue, Bool.or_eq_true, List.any_eq_true, Bool.and_eq_true,
    decide_eq_true_eq]
  rcases earlier_cases next with waiting | awaited
  · obtain ⟨call, member, expires⟩ := List.mem_map.mp (earliest_mem waiting)
    exact .inl ⟨call, member, Nat.le_of_eq (Option.some.inj expires)⟩
  · obtain ⟨call, member, expires⟩ := List.mem_map.mp (earliest_mem awaited)
    split at expires
    · exact .inr ⟨call, member, ‹_›, Nat.le_of_eq (Option.some.inj expires)⟩
    · cases expires

theorem overdue_of_le {instant : Nat} (overdue : executor.overdue instant = true)
    (later : instant ≤ now) : executor.overdue now = true := by
  simp only [Executor.overdue, Bool.or_eq_true, List.any_eq_true, Bool.and_eq_true,
    decide_eq_true_eq] at overdue ⊢
  rcases overdue with ⟨call, waits, expired⟩ | ⟨call, running, awaited, expired⟩
  · exact .inl ⟨call, waits, Nat.le_trans expired later⟩
  · exact .inr ⟨call, running, awaited, Nat.le_trans expired later⟩

end Executor

namespace System

variable {before after last : System Answer} {stages later : Nat → Option Stage} {event : Event}
  {moments : List Moment} {place call : Nat}

/-- The calls in hand whose work has not begun. -/
def unbegun (executor : Executor Body (Except ServiceError Reply)) : List (Request × Body) :=
  executor.hand.filter fun entry => entry.2.phase.isFresh

/-- A call that has begun does not begin again. -/
theorem length_unbegun_moved_lt {executor : Executor Body (Except ServiceError Reply)}
    (orderly : executor.Orderly) {call : Running Body} (member : call ∈ executor.running)
    (fresh : call.work.phase.isFresh = true) {phase : Phase} (cold : phase.isFresh = false)
    (later : (moved executor call phase).Orderly) :
    (unbegun (moved executor call phase)).length < (unbegun executor).length := by
  have old : ∀ entry ∈ unbegun (moved executor call phase),
      entry ∈ unbegun executor ∧ entry.1.id ≠ call.request.id := by
    intro entry there
    obtain ⟨there, begun⟩ := List.mem_filter.mp there
    rcases Turn.mem_hand_moved orderly member there with ⟨earlier, apart⟩ | ⟨rfl, _⟩
    · exact ⟨List.mem_filter.mpr ⟨earlier, begun⟩, apart⟩
    · cases cold.symm.trans begun
  refine length_lt_of_gone ((later.numbers_nodup.of_map _).filter _)
    (fun entry still => (old entry still).1)
    (List.mem_filter.mpr ⟨Executor.mem_hand_of_running member, fresh⟩)
    fun still => (old _ still).2 rfl

theorem length_pending_moved_le {executor : Executor Body (Except ServiceError Reply)}
    (orderly : executor.Orderly) {call : Running Body} (member : call ∈ executor.running)
    (phase : Phase) (later : (moved executor call phase).Orderly) :
    (moved executor call phase).pending.length ≤ executor.pending.length := by
  refine (List.subperm_of_subset later.pending_nodup fun id waits => ?_).length_le
  cases told : phase.ending? with
  | some ending =>
    obtain rfl := Phase.ending?_eq_some.mp told
    rw [moved_of_ended] at waits
    exact ((Executor.mem_pending_conclude orderly (List.mem_map_of_mem member)).mp waits).1
  | none => rwa [moved_of_going _ _ told, Executor.pending_continueWith] at waits

/-- The calls that may still be made by the procedures that wait. -/
def outlook (system : System Answer) (stages : Nat → Option Stage) : Nat :=
  ((List.range system.procedures.length).map fun place => (stages place).elim 0 Stage.calls).sum

/-- What there is still to be done until no procedure waits. -/
def effort (system : System Answer) (stages : Nat → Option Stage) : Nat :=
  4 * system.outlook stages + 2 * system.executor.pending.length +
    (unbegun system.executor).length + (!system.executor.overdue system.now).toNat

theorem Step.outlook_lt (step : before.Step stages (.resume place) after later) :
    after.outlook later < before.outlook stages := by
  cases step with
  | stir stirs => cases stirs
  | @resume _ number stage answer halt host stands waits told part =>
    have bound := (List.getElem?_eq_some_iff.mp waits).1
    have fewer : halt.stage?.elim 0 Stage.calls < stage.calls := by
      cases halt with
      | ended => exact stage.calls_pos
      | waits => exact part.calls_lt
    simp only [outlook, List.length_set]
    refine List.sum_lt_sum _ _ (fun other _ => ?_) ⟨place, List.mem_range.mpr bound, ?_⟩
    · by_cases same : other = place
      · subst same
        rw [Stage.put_self, stands]
        exact Nat.le_of_lt fewer
      · rw [Stage.put_of_ne same]
    · rw [Stage.put_self, stands]
      exact fewer

/-- A procedure that goes on makes one more call at most. -/
theorem Step.calls_le (step : before.Step stages (.resume place) after later) :
    after.executor.pending.length ≤ before.executor.pending.length + 1 ∧
      (unbegun after.executor).length ≤ (unbegun before.executor).length + 1 := by
  cases step with
  | stir stirs => cases stirs
  | @resume _ number _ _ halt =>
    cases halt with
    | ended => exact ⟨Nat.le_succ _, Nat.le_succ _⟩
    | waits service stage =>
      simp only [arrived, Executor.pending_submit, unbegun, Executor.hand_submit,
        List.filter_append, List.length_append, List.length_singleton]
      refine ⟨Nat.le_refl _, Nat.add_le_add_left ?_ _⟩
      exact List.length_filter_le _ [_]

theorem Step.effort_resume (step : before.Step stages (.resume place) after later)
    (timely : before.executor.overdue before.now = false) :
    after.effort later < before.effort stages := by
  have fewer := step.outlook_lt
  have calls := step.calls_le
  have slack := Bool.toNat_le (!after.executor.overdue after.now)
  simp only [effort, timely, Bool.not_false, Bool.toNat_true]
  omega

theorem Step.effort_expire (step : before.Step stages .expire after later)
    (orderly : before.executor.Orderly) : after.effort later < before.effort stages := by
  cases step with
  | stir stirs => cases stirs
  | expire overdue =>
    have fewer := Executor.length_pending_expire_lt orderly overdue
    have same : (unbegun (before.executor.expire before.now)).length ≤
        (unbegun before.executor).length :=
      ((before.executor.hand_expire_sublist before.now).filter _).length_le
    have slack := Bool.toNat_le (!(before.executor.expire before.now).overdue before.now)
    simp only [effort, outlook, overdue, Bool.not_true, Bool.toNat_false]
    omega

theorem Step.effort_serve (step : before.Step stages (.serve place) after later)
    (orderly : before.executor.Orderly) {call : Running Body}
    (there : before.executor.running[place]? = some call)
    (fresh : call.work.phase.isFresh = true)
    (timely : before.executor.overdue before.now = false) :
    after.effort later < before.effort stages := by
  have kept := step.turn.orderly orderly
  cases step with
  | stir stirs => cases stirs
  | @serve _ other service changed phase here found goes =>
    cases there.symm.trans here
    have running := List.mem_of_getElem? there
    have fewer := length_unbegun_moved_lt orderly running fresh (Service.not_fresh goes) kept
    have same := length_pending_moved_le orderly running phase kept
    have slack := Bool.toNat_le (!(moved before.executor call phase).overdue before.now)
    simp only [effort, outlook, timely, withService, Bool.not_false, Bool.toNat_true]
    omega

/-- When nobody can go on, the next deadline comes. -/
theorem Step.effort_wait {instant : Nat} (step : before.Step stages (.wait instant) after later)
    (timely : before.executor.overdue before.now = false)
    (next : before.executor.deadline? = some instant) : after.effort later < before.effort stages := by
  cases step with
  | stir stirs => cases stirs
  | wait =>
    simp only [effort, outlook, timely, Executor.overdue_of_deadline? next]
    simp

/-- The service of a call that has not begun can begin with it. -/
theorem exists_goOn_of_fresh {ρ : Type} {system : System ρ} {call : Running Body}
    (bound : call.work.service < system.host.services.length)
    (fresh : call.work.phase.isFresh = true) :
    ∃ service phase changed, system.host.service? call.work.service = some service ∧
      service.goOn system.now call.work.query call.work.phase = some (phase, changed) := by
  rw [Phase.eq_fresh fresh]
  obtain ⟨service, found⟩ := Host.exists_service? bound
  obtain ⟨phase, changed, goes⟩ := service.exists_begin system.now call.work.query
  exact ⟨service, phase, changed, found, goes⟩

/-- A call that has a permit can begin. -/
theorem Books.begins (books : Books moments last stages) {call : Running Body}
    (running : call ∈ last.executor.running) (fresh : call.work.phase.isFresh = true) :
    ∃ place, last.executor.running[place]? = some call ∧
      (last.after? (.serve place)).isSome = true := by
  obtain ⟨place, there⟩ := List.getElem?_of_mem running
  obtain ⟨inquiry, asked, _, own, _⟩ :=
    books.entered.hand _ (Executor.mem_hand_of_running running)
  have bound := books.seated.known inquiry asked
  rw [← own] at bound
  obtain ⟨service, phase, changed, found, goes⟩ := exists_goOn_of_fresh bound fresh
  exact ⟨place, there, by simp [after?, there, serveCall?, found, goes]⟩

/-- When nobody can go on, there is a deadline ahead. -/
theorem Books.exists_deadline (books : Books moments last stages)
    (timely : last.executor.overdue last.now = false)
    (waits : last.call? place = some call) (untold : last.executor.answer? call = none) :
    ∃ instant, last.executor.deadline? = some instant ∧ last.now ≤ instant := by
  have owed := (books.posted.owed call).mpr ⟨place, waits⟩
  have pending : call ∈ last.executor.pending := by
    refine owed.resolve_right fun ⟨told, answered⟩ => ?_
    rw [Executor.answer?, List.lookup_eq_none_iff] at untold
    simpa using untold _ answered
  obtain ⟨_, _, _, instant, next, _⟩ := deadline?_le pending
  refine ⟨instant, next, Nat.le_of_not_lt fun past => ?_⟩
  have overdue := Executor.overdue_of_le (Executor.overdue_of_deadline? next) (Nat.le_of_lt past)
  cases timely.symm.trans overdue

theorem rests_of_idle
    (untold : ∀ place call, last.call? place = some call → last.executor.answer? call = none)
    (begun : ∀ call ∈ last.executor.running, call.work.phase.isFresh = false) :
    last.rests = true := by
  simp only [rests, Bool.and_eq_true, List.all_eq_true]
  refine ⟨fun progression member => ?_, fun call running => by simp [begun call running]⟩
  obtain ⟨place, there⟩ := List.getElem?_of_mem member
  split
  · exact Option.isNone_iff_eq_none.mpr (untold place _ (call?_of_waiting there))
  · rfl

/-- As long as a procedure waits, something may happen by which there is less to be done. -/
theorem Books.goes_on (books : Books moments last stages) (waits : last.call? place = some call) :
    ∃ event after, last.after? event = some after ∧ last.keepsTime event = true ∧
      (∀ operation, event ≠ .launch operation) ∧
      ∀ later, last.Step stages event after later → after.effort later < last.effort stages := by
  have orderly := books.entered.orderly
  cases timely : last.executor.overdue last.now with
  | true =>
    exact ⟨.expire, _, by simp [after?, expire?, timely]; rfl, rfl, by simp,
      fun later step => step.effort_expire orderly⟩
  | false =>
    by_cases told : ∃ place call, last.call? place = some call ∧
      (last.executor.answer? call).isSome = true
    · obtain ⟨place, call, waits, told⟩ := told
      obtain ⟨next, there⟩ := call?_eq_some.mp waits
      obtain ⟨answer, told⟩ := Option.isSome_iff_exists.mp told
      exact ⟨.resume place, _, by simp [after?, there, resumeAt?, told]; rfl,
        by simp [keepsTime, timely], by simp, fun later step => step.effort_resume timely⟩
    by_cases begins : ∃ call ∈ last.executor.running, call.work.phase.isFresh = true
    · obtain ⟨call, running, fresh⟩ := begins
      obtain ⟨place, there, done⟩ := books.begins running fresh
      obtain ⟨after, done⟩ := Option.isSome_iff_exists.mp done
      exact ⟨.serve place, after, done, by simp [keepsTime, timely], by simp,
        fun later step => step.effort_serve orderly there fresh timely⟩
    -- Nobody can go on, so time passes up to the next deadline.
    · have untold : ∀ place call, last.call? place = some call →
          last.executor.answer? call = none := fun place call waits =>
        Option.isNone_iff_eq_none.mp (by simpa using fun some => told ⟨place, call, waits, some⟩)
      obtain ⟨instant, next, ahead⟩ := books.exists_deadline timely waits (untold _ _ waits)
      refine ⟨.wait instant, _, by simp [after?, ahead]; rfl, ?_, by simp,
        fun later step => step.effort_wait timely next⟩
      simp only [keepsTime, timely, next, Bool.not_false, Bool.true_and, Option.all_some,
        Nat.le_refl, decide_true, Bool.and_true]
      refine rests_of_idle untold fun call running => ?_
      exact Bool.eq_false_iff.mpr fun fresh => begins ⟨call, running, fresh⟩

/-- Whoever waits has a way to its end. Nobody has to launch anything for it, and every event on it
comes at a time at which it may. -/
theorem Books.returns (books : Books moments last stages) :
    ∃ more after, History last more after ∧ Timely more ∧
      (∀ moment ∈ more, ∀ operation, moment.event ≠ .launch operation) ∧
      ∀ place, after.call? place = none := by
  -- There is less to be done with every event.
  generalize bound : last.effort stages = effort
  induction effort using Nat.strong_induction_on generalizing moments last stages with
  | _ effort ih =>
    by_cases waits : ∃ place call, last.call? place = some call
    · obtain ⟨place, call, waits⟩ := waits
      obtain ⟨event, next, done, keeps, quiet, less⟩ := books.goes_on waits
      obtain ⟨later, step⟩ := books.tracks.exists_step done
      obtain ⟨more, after, history, timely, silent, idle⟩ :=
        ih _ (bound ▸ less later step) (books.step step) rfl
      refine ⟨⟨last, event, next⟩ :: more, after, (History.start.next done).append history,
        ?_, ?_, idle⟩
      · exact List.forall_mem_cons.mpr ⟨keeps, timely⟩
      · exact List.forall_mem_cons.mpr ⟨quiet, silent⟩
    · refine ⟨[], last, .start, fun _ member => (by cases member), fun _ member => (by cases member),
        fun place => Option.eq_none_iff_forall_ne_some.mpr fun call some => waits ⟨place, call, some⟩⟩

end System
end ServiceHost
