import ServiceHost.Proofs.Host.Course
import ServiceHost.Proofs.Host.Stamps

/-! What services are asked, and answer, before a server is put around them.

Whoever is to wrap a service has asked it for its id. A service with a run loop answers that in one
go and with the id that it has for ever, however long the call has waited for its permit.
-/

set_option autoImplicit false

namespace ServiceHost

/-- An operation that is to wrap a service asks it for its id first. -/
theorem Operation.Section.inquires {operation : Operation} {host after : Host} {halt : Halt}
    {id : ServiceId} (part : operation.Section host halt after)
    (wraps : halt.stage?.bind Stage.wraps? = some id) (now number : Nat) :
    halt.inquiry? now number = some ⟨now, number, id, .instanceId⟩ := by
  cases part with
  | made =>
    cases wraps
    rfl
  | removes _ sweep | shuts sweep =>
    rw [sweep.not_wraps] at wraps
    cases wraps
  | rejected | absent | spares | kills | calls | refused | rests | killsServer | configures =>
    cases wraps

/-- A question for the id is over after one go. -/
theorem Threaded.goOn_instanceId {service : Threaded} {now : Nat} {phase : Phase}
    {changed : Service}
    (goes : (Service.threaded service).goOn now .instanceId .fresh = some (phase, changed)) :
    phase = .ended (.value (.ok (.id service.id))) := by
  cases goes
  rfl

namespace System

variable {before after last : System Answer} {stages later : Nat → Option Stage} {event : Event}
  {moments : List Moment} {id : ServiceId} {place : Nat}

/-- Whoever is to wrap a service was so before and goes on waiting, or has just been launched and
asks the service that was made for it. -/
theorem Step.wraps_cases (step : before.Step stages event after later)
    (tracks : before.Tracks stages) (entered : Entered moments before)
    (wraps : (later place).bind Stage.wraps? = some id) :
    ((stages place).bind Stage.wraps? = some id ∧ event.resumes place = false ∧
        after.call? place = before.call? place) ∨
      (id = before.host.services.length ∧ after.call? place = some before.executor.issued ∧
        (⟨before, event, after⟩ : Moment).asked? =
          some ⟨before.now, before.executor.issued, id, .instanceId⟩) := by
  have old : (stages place).bind Stage.wraps? = some id → event.resumes place = false →
      (stages place).bind Stage.wraps? = some id ∧ event.resumes place = false ∧
        after.call? place = before.call? place := by
    intro waits other
    obtain ⟨stage, stands, _⟩ := Option.bind_eq_some_iff.mp waits
    obtain ⟨call, there⟩ := tracks.waits place stage stands
    exact ⟨waits, other, (step.stands (List.getElem?_eq_some_iff.mp there).1 other).1⟩
  cases step with
  | @launch operation halt host part =>
    by_cases new : place = before.procedures.length
    · subst new
      rw [Stage.put_self] at wraps
      have asks := part.inquires wraps before.now before.executor.issued
      refine .inr ⟨(part.makes wraps).1, (call?_launched before host halt).trans ?_,
        (entered.asked?_launched operation host halt).trans asks⟩
      obtain ⟨stage, waits, _⟩ := Option.bind_eq_some_iff.mp wraps
      rw [waits, Option.map_some]
    · rw [Stage.put_of_ne new] at wraps
      exact .inl (old wraps rfl)
  | @resume resumed _ _ _ _ _ _ _ _ part =>
    by_cases same : place = resumed
    · subst same
      rw [Stage.put_self, part.not_wraps] at wraps
      cases wraps
    · rw [Stage.put_of_ne same] at wraps
      exact .inl (old wraps (by simpa [Event.resumes] using Ne.symm same))
  | stir stirs =>
    refine .inl (old wraps ?_)
    cases event with
    | resume => cases stirs
    | _ => rfl
  | serve | expire | take | drop | wait => exact .inl (old wraps rfl)

/-- What has ended is a call that was served. -/
theorem Moment.exists_served {moment : Moment} {ended : Returned}
    (ends : moment.returned? = some ended) :
    ∃ call ∈ moment.before.executor.running, call.request.id = ended.number ∧
      ∃ service changed, moment.before.host.service? call.work.service = some service ∧
        service.goOn moment.before.now call.work.query call.work.phase =
          some (.ended ended.ending, changed) := by
  simp only [Moment.returned?, Option.bind_eq_bind, Option.bind_eq_some_iff, Option.pure_def,
    Option.some.injEq] at ends
  obtain ⟨call, served, service, found, ⟨phase, changed⟩, goes, ending, past, rfl⟩ := ends
  obtain rfl : phase = .ended ending := Phase.ending?_eq_some.mp past
  exact ⟨call, Moment.mem_of_served? served, rfl, service, changed, found, goes⟩

/-- The questions for ids: who has asked them, and what services with run loops answer. -/
structure Probed (moments : List Moment) (system : System Answer)
    (stages : Nat → Option Stage) : Prop where
  asked : ∀ place id call, (stages place).bind Stage.wraps? = some id →
    system.call? place = some call → ∃ inquiry ∈ System.asked moments,
      inquiry.number = call ∧ inquiry.service = id ∧ inquiry.query = .instanceId
  fresh : ∀ call ∈ system.executor.running, call.work.query = .instanceId →
    call.work.phase.isFresh = true
  told : ∀ inquiry ∈ System.asked moments, inquiry.query = .instanceId →
    ∀ ended ∈ returned moments, ended.number = inquiry.number →
      ended.ending = .value (.ok (.id (system.host.nameOf inquiry.service)))

namespace Probed

theorem start (host : Host) (capacity : Nat) :
    Probed [] (.start host capacity) fun _ => none where
  asked _ _ _ wraps := by cases wraps
  fresh _ member := by cases member
  told _ member := by cases member

/-- What a question for an id comes to now is the id. -/
theorem returns (probed : Probed moments before stages) (entered : Entered moments before)
    (plain : before.host.Plain) {inquiry : Inquiry} {ended : Returned}
    (stands : inquiry ∈ System.asked moments) (asks : inquiry.query = .instanceId)
    (ends : (⟨before, event, after⟩ : Moment).returned? = some ended)
    (same : ended.number = inquiry.number) :
    ended.ending = .value (.ok (.id (before.host.nameOf inquiry.service))) := by
  obtain ⟨call, running, number, service, changed, found, goes⟩ := Moment.exists_served ends
  obtain ⟨_, own, query⟩ :=
    entered.of_number (Executor.mem_hand_of_running running) stands (number.trans same)
  replace own : call.work.service = inquiry.service := own
  replace query : call.work.query = inquiry.query := query
  obtain ⟨inner, rfl, _⟩ := plain _ _ found
  have unbegun := Phase.eq_fresh (probed.fresh call running (query.trans asks))
  rw [query, asks, unbegun] at goes
  rw [← own, Host.nameOf_eq found, Phase.ended.inj (Threaded.goOn_instanceId goes)]

theorem step (probed : Probed moments before stages) (books : Books moments before stages)
    (sound : before.Sound) (plain : after.host.Plain)
    (step : before.Step stages event after later) :
    Probed (moments ++ [⟨before, event, after⟩]) after later where
  asked place id call wraps waits := by
    rcases step.wraps_cases books.tracks books.entered wraps with
      ⟨earlier, _, same⟩ | ⟨_, issued, made⟩
    · obtain ⟨inquiry, stands, rest⟩ := probed.asked place id call earlier (same ▸ waits)
      exact ⟨inquiry, Worked.asked_subset stands, rest⟩
    · cases issued.symm.trans waits
      refine ⟨⟨before.now, before.executor.issued, id, .instanceId⟩, ?_, rfl, rfl, rfl⟩
      rw [asked_append, made]
      exact List.mem_append_right _ List.mem_cons_self
  fresh call member asks := by
    cases step.turn.permit books.entered books.worked member with
    | @kept earlier here request work => exact work ▸ probed.fresh earlier here (work ▸ asks)
    | granted _ _ fresh => exact fresh
    | @served _ earlier service _ _ there found goes going _ _ query =>
      have unbegun :=
        Phase.eq_fresh (probed.fresh earlier (List.mem_of_getElem? there) (query.trans asks))
      obtain ⟨inner, rfl, _⟩ := step.plain sound plain _ _ found
      rw [query, asks, unbegun] at goes
      rw [Threaded.goOn_instanceId goes] at going
      cases going
  told inquiry member asks ended ends same := by
    have known : ended.number < before.executor.issued := by
      rw [returned_append, List.mem_append, Option.mem_toList] at ends
      rcases ends with old | new
      · obtain ⟨start, begins, number⟩ := List.mem_map.mp (books.worked.preceded ended old)
        obtain ⟨other, stands, counts, _⟩ := books.worked.known start begins
        exact number ▸ counts ▸ books.entered.number_lt stands
      · obtain ⟨call, running, number, _⟩ := Moment.exists_served new
        exact number ▸ books.entered.lt_issued (Executor.mem_hand_of_running running)
    have stands : inquiry ∈ System.asked moments := by
      rw [asked_append, List.mem_append, Option.mem_toList] at member
      refine member.resolve_right fun made => ?_
      rw [same, Moment.number_of_asked? made] at known
      exact Nat.lt_irrefl _ known
    rw [step.nameOf sound plain (books.seated.known inquiry stands)]
    rw [returned_append, List.mem_append, Option.mem_toList] at ends
    rcases ends with old | new
    · exact probed.told inquiry stands asks ended old same
    · exact probed.returns books.entered (step.plain sound plain) stands asks new same

/-- A service that is to be wrapped and gives an answer gives its id. -/
theorem answer (probed : Probed moments last stages) (books : Books moments last stages)
    {number : Nat} {told : Except ServiceError Reply}
    (wraps : (stages place).bind Stage.wraps? = some id) (waits : last.call? place = some number)
    (answered : last.executor.answer? number = some (.ok told)) :
    told = .ok (.id (last.host.nameOf id)) := by
  obtain ⟨inquiry, stands, same, rfl, asks⟩ := probed.asked place id number wraps waits
  obtain ⟨other, there, rfl, comes⟩ := books.comes answered
  obtain rfl := books.entered.eq_of_number stands there same
  generalize outcome : (Except.ok told : CallAnswer) = answer at comes
  cases comes with
  | late => cases outcome
  | @returned ended member own _ =>
    rw [probed.told inquiry stands asks ended member own] at outcome
    cases outcome
    rfl

end Probed

end System
end ServiceHost
