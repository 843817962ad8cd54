import ServiceHost.Proofs.Host.Dialogue
import ServiceHost.Proofs.Host.Granted

/-! Calls that get their permits early enough.

A stop waits for its run no longer than the grace, and a call may take as long as its deadline says.
So a call that has not waited for its permit too long has its answer in time, whatever the run of
its service does.
-/

set_option autoImplicit false

namespace ServiceHost.System

variable {before after last : System Answer} {stages later : Nat → Option Stage} {event : Event}
  {moments : List Moment} {moment : Moment} {call : Running Body} {id : ServiceId}
  {inquiry : Inquiry} {now : Nat}

/-- A service has a run loop, if it was made at all. -/
def Looped (id : ServiceId) (system : System Answer) : Prop :=
  ∀ service, system.host.service? id = some service → ∃ inner, service = .threaded inner

/-- No call of a service waits for its permit so long that less than the grace of a stop is left.
Whoever asks for the id of the service may wait. -/
def Swift (id : ServiceId) (moments : List Moment) (last : System Answer) : Prop :=
  ∀ inquiry ∈ asked moments, inquiry.service = id → inquiry.query ≠ .instanceId →
    ∀ system ∈ moments.map Moment.before ++ [last], inquiry.number ∈ system.executor.line →
      system.now < inquiry.instant + (callDeadline - stopGrace)

instance (id : ServiceId) (moments : List Moment) (last : System Answer) :
    Decidable (Swift id moments last) :=
  inferInstanceAs (Decidable (∀ inquiry ∈ asked moments, inquiry.service = id →
    inquiry.query ≠ .instanceId → ∀ system ∈ moments.map Moment.before ++ [last],
      inquiry.number ∈ system.executor.line →
        system.now < inquiry.instant + (callDeadline - stopGrace)))

/-- A history in which the calls of a service with a run loop get their permits early enough. -/
structure Tended (id : ServiceId) (moments : List Moment) (system : System Answer) : Prop where
  looped : Looped id system
  mindful : Mindful id moments
  swift : Swift id moments system

/-- A service that has a run loop had one before, if it was made. -/
theorem Step.looped (step : before.Step stages event after later) (looped : Looped id after) :
    Looped id before := by
  intro service found
  obtain ⟨changed, there⟩ := Host.exists_service?
    (Nat.lt_of_lt_of_le (Host.lt_of_service? found) step.services_le)
  obtain ⟨inner, rfl⟩ := looped changed there
  rcases step.kinds there with ⟨absent, _⟩ | ⟨earlier, same⟩
  · cases absent.symm.trans found
  · exact ⟨earlier, Option.some.inj (found.symm.trans same)⟩

namespace Tended

theorem earlier (tended : Tended id (moments ++ [⟨before, event, after⟩]) after)
    (step : before.Step stages event after later) : Tended id moments before where
  looped := step.looped tended.looped
  mindful := tended.mindful.of_append.1
  swift inquiry member own asks system among := by
    refine tended.swift inquiry (Worked.asked_subset member) own asks system ?_
    rw [List.map_append]
    exact List.mem_append_left _ among

/-- A call in the line has more than the grace before it. -/
theorem early (tended : Tended id moments last) (entered : Entered moments last)
    {entry : Request × Body} (waits : entry ∈ last.executor.queue) (own : entry.2.service = id)
    (asks : entry.2.query ≠ .instanceId) : last.now + stopGrace < entry.1.expires := by
  obtain ⟨inquiry, stands, heads, service, query⟩ :=
    entered.hand entry (Executor.mem_hand_of_queue waits)
  have line : inquiry.number ∈ last.executor.line :=
    List.mem_map.mpr ⟨entry, waits, congrArg Request.id heads⟩
  have soon := tended.swift inquiry stands (service ▸ own) (query ▸ asks) last
    (List.mem_append_right _ List.mem_cons_self) line
  rw [heads]
  simp only [Inquiry.request, Inquiry.deadline, callDeadline, stopGrace] at soon ⊢
  omega

end Tended

/-- How a call with a permit stands that is in time: it has not begun and has more than the grace
before it, or it is a stop whose grace ends before the deadline. -/
inductive InTime (moments : List Moment) (now : Nat) (call : Running Body) : Prop where
  | fresh :
      call.work.phase.isFresh = true → now + stopGrace < call.request.expires →
      InTime moments now call
  | stops {start : Inquiry} {generation : Nat} :
      start ∈ begun moments → start.number = call.request.id →
      call.work.phase = .stopping generation (start.instant + stopGrace) →
      now ≤ start.instant + stopGrace → start.instant + stopGrace < call.request.expires →
      InTime moments now call

theorem InTime.lt (timed : InTime moments now call) : now < call.request.expires := by
  cases timed with
  | fresh _ early => omega
  | stops _ _ _ soon early => omega

/-- The calls of a service are in time: those that go on, and those that have ended. -/
structure Punctual (id : ServiceId) (moments : List Moment) (system : System Answer) : Prop where
  running : ∀ call ∈ system.executor.running, call.work.service = id →
    call.work.query ≠ .instanceId → InTime moments system.now call
  answered : ∀ inquiry ∈ asked moments, inquiry.service = id → inquiry.query ≠ .instanceId →
    (∃ ended ∈ returned moments, ended.number = inquiry.number ∧
        ended.instant < inquiry.deadline) ∨
      ∃ body, (inquiry.request, body) ∈ system.executor.hand

namespace Punctual

theorem start (host : Host) (capacity : Nat) : Punctual id [] (.start host capacity) where
  running _ member := by cases member
  answered _ member := by cases member

/-- A call that keeps its permit is in time still. -/
theorem kept (books : Books moments before stages) (minds : before.minds id event = true)
    (turn : before.Turn event after) (member : call ∈ before.executor.running)
    (own : call.work.service = id)
    (timed : InTime moments before.now call) {later : Running Body}
    (request : call.request = later.request) (work : call.work = later.work) :
    InTime (moments ++ [⟨before, event, after⟩]) after.now later := by
  cases timed with
  | fresh fresh early =>
    rcases turn.now_cases with now | rfl
    · exact .fresh (work ▸ fresh) (by rw [now, ← request]; exact early)
    · cases fresh.symm.trans (books.not_fresh_of_wait minds member own)
  | @stops start generation begun same phase soon early =>
    have bound : after.now ≤ start.instant + stopGrace := by
      rcases turn.now_cases with now | rfl
      · exact now ▸ soon
      · exact (minds_of_wait minds member own).2 _ (by rw [phase]; rfl)
    refine .stops ?_ (request ▸ same) (work ▸ phase) bound (request ▸ early)
    rw [begun_append]
    exact List.mem_append_left _ begun

theorem goes (tended : Tended id moments before) (sound : before.Sound) {place : Nat}
    {earlier : Running Body} {service changed : Service}
    (there : before.executor.running[place]? = some earlier) (own : earlier.work.service = id)
    (found : before.host.service? earlier.work.service = some service)
    (goes : service.goOn before.now earlier.work.query earlier.work.phase =
      some (call.work.phase, changed))
    (going : call.work.phase.ending? = none) (request : earlier.request = call.request)
    (now : after.now = before.now) (timed : InTime moments before.now earlier) :
    InTime (moments ++ [⟨before, .serve place, after⟩]) after.now call := by
  obtain ⟨inner, rfl⟩ := tended.looped service (own ▸ found)
  obtain ⟨⟨phase, next⟩, went, equation⟩ := Option.map_eq_some_iff.mp goes
  obtain ⟨same, _⟩ := Prod.mk.inj equation
  have turn := sound.turn (List.mem_of_getElem? there) found went
  rcases turn.phase_cases with ⟨reply, ended⟩ | ⟨generation, stopping, fresh⟩
  · rw [← same, show phase = _ from ended] at going
    cases going
  · have begins : Inquiry.mk before.now earlier.request.id earlier.work.service earlier.work.query ∈
        begun (moments ++ [⟨before, .serve place, after⟩]) := by
      rw [begun_append, Moment.begun?_of_serve there, fresh]
      exact List.mem_append_right _ List.mem_cons_self
    cases timed with
    | fresh _ early =>
      exact .stops begins (congrArg Request.id request) (same.symm.trans stopping)
        (by rw [now]; exact Nat.le_add_right ..) (request ▸ early)
    | stops _ _ phase => cases phase.symm.trans fresh

/-- What is served of a call before its deadline comes in time. -/
theorem answers (punctual : Punctual id moments before) (books : Books moments before stages)
    (tended : Tended id (moments ++ [⟨before, event, after⟩]) after)
    (step : before.Step stages event after later)
    (member : inquiry ∈ asked (moments ++ [⟨before, event, after⟩])) (own : inquiry.service = id)
    (asks : inquiry.query ≠ .instanceId) :
    (∃ ended ∈ returned (moments ++ [⟨before, event, after⟩]),
        ended.number = inquiry.number ∧ ended.instant < inquiry.deadline) ∨
      ∃ body, (inquiry.request, body) ∈ after.executor.hand := by
  have entered := books.entered
  rw [asked_append, List.mem_append, Option.mem_toList] at member
  rcases member with old | new
  · rcases punctual.answered inquiry old own asks with ⟨ended, there, number, soon⟩ | ⟨body, here⟩
    · exact .inl ⟨ended, returned_grows there _, number, soon⟩
    · rcases step.turn.stays entered.orderly here with stays | ⟨waits, late⟩ |
        ⟨served, running, number, ended, told, counts⟩
      · exact .inr stays
      · obtain ⟨_, service, query⟩ := entered.of_number here old rfl
        have early := (tended.earlier step).early entered waits (service.trans own) (query ▸ asks)
        omega
      · obtain ⟨heads, service, query⟩ :=
          entered.of_number (Executor.mem_hand_of_running running) old number
        have soon := (punctual.running served running (service.trans own) (query ▸ asks)).lt
        refine .inl ⟨ended, mem_returned _ told, counts, ?_⟩
        rw [Moment.instant_of_returned? told]
        exact Nat.lt_of_lt_of_eq soon (congrArg Request.expires heads)
  · rcases entered.turn_cases step.turn with ⟨silent, _⟩ | ⟨service, query, made, _, hand⟩
    · cases silent.symm.trans new
    · cases made.symm.trans new
      exact .inr ⟨_, by rw [hand]; exact List.mem_append_right _ List.mem_cons_self⟩

theorem step (punctual : Punctual id moments before) (books : Books moments before stages)
    (sound : before.Sound) (tended : Tended id (moments ++ [⟨before, event, after⟩]) after)
    (step : before.Step stages event after later) :
    Punctual id (moments ++ [⟨before, event, after⟩]) after where
  running call member own asks := by
    have earlier_tended := tended.earlier step
    have minds := tended.mindful.of_append.2
    cases step.turn.permit books.entered books.worked member with
    | @kept earlier here request work =>
      exact kept books minds step.turn here (work ▸ own)
        (punctual.running earlier here (work ▸ own) (work ▸ asks)) request work
    | granted _ now fresh from_ =>
      refine .fresh fresh ?_
      rw [now]
      rcases from_ with waits | new
      · exact earlier_tended.early books.entered waits own asks
      · rw [new]
        exact Nat.add_lt_add_left (by decide) _
    | @served place earlier service changed serves there found went going request same query now =>
      subst serves
      have timed := punctual.running earlier (List.mem_of_getElem? there) (same.trans own)
        (query ▸ asks)
      exact goes earlier_tended sound there (same.trans own) found went going request now timed
  answered inquiry member own asks := punctual.answers books tended step member own asks

end Punctual

/-- As long as the calls of a service get their permits early enough, they are in time. -/
theorem History.punctual {host : Host} {capacity : Nat} (unused : host.Unused)
    (history : History (.start host capacity) moments last) (tended : Tended id moments last) :
    Punctual id moments last := by
  obtain ⟨_, _, _, punctual⟩ := (Books.start unused capacity).onward history
    (fun done system _ => system.Sound ∧ (Tended id done system → Punctual id done system))
    ⟨(Trail.sound unused .start).1, fun _ => .start host capacity⟩
    fun _ _ books step ⟨sound, punctual⟩ => ⟨step.sound sound, fun tended =>
      (punctual (tended.earlier step)).step books sound tended step⟩
  exact punctual tended

/-- What such a call comes to is what its work has come to. -/
theorem Punctual.comes (punctual : Punctual id moments last) (entered : Entered moments last)
    (tended : Tended id moments last) (stands : inquiry ∈ asked moments)
    (own : inquiry.service = id) (asks : inquiry.query ≠ .instanceId) {answer : CallAnswer}
    (comes : Comes moments now inquiry answer) (past : now ≤ last.now) :
    ∃ ended ∈ returned moments, ended.number = inquiry.number ∧
      answer = ended.ending.outcome inquiry.query.operation := by
  cases comes with
  | @returned ended member same => exact ⟨ended, member, same, rfl⟩
  | late expired others =>
    -- The deadline has come, but the call has ended before, or is in time still.
    rcases punctual.answered inquiry stands own asks with
      ⟨ended, there, number, soon⟩ | ⟨body, here⟩
    · exact absurd soon (Nat.not_lt_of_le (others ended there number))
    · obtain ⟨_, service, query⟩ := entered.of_number here stands rfl
      have early : last.now < inquiry.deadline := by
        rcases Executor.mem_hand.mp here with ⟨call, running, equal⟩ | waits
        · obtain ⟨request, rfl⟩ := Prod.mk.inj equal
          have timed := (punctual.running call running (service.trans own) (query ▸ asks)).lt
          rwa [request] at timed
        · have timed := tended.early entered waits (service.trans own) (query ▸ asks)
          exact Nat.lt_of_le_of_lt (Nat.le_add_right ..) timed
      omega

end ServiceHost.System
