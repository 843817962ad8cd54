import ServiceHost.Proofs.Executor.Hand
import ServiceHost.Proofs.Host.History

/-! The books of the calls that a host makes of its services: when each of them was made, when its
work began, what that came to and when, and what the caller was told.

Calls are numbered in the order in which they are made. The work of a call begins once and ends
once; its caller is told what it came to, or that it came too late.
-/

set_option autoImplicit false

namespace ServiceHost

/-- A call, at an instant: that at which it was made, or at which its work began. -/
structure Inquiry where
  instant : Nat
  number : Nat
  service : ServiceId
  query : Query
  deriving DecidableEq, Repr

/-- The instant up to which a call that is made may take. -/
def Inquiry.deadline (inquiry : Inquiry) : Nat := inquiry.instant + callDeadline

def Inquiry.request (inquiry : Inquiry) : Request :=
  ⟨inquiry.number, inquiry.query.operation, callDeadline, inquiry.deadline⟩

/-- What the work of a call came to, at the instant at which it ended. -/
structure Returned where
  instant : Nat
  number : Nat
  ending : Ending (Except ServiceError Reply)
  deriving DecidableEq, Repr

def Phase.ending? : Phase → Option (Ending (Except ServiceError Reply))
  | ended ending => some ending
  | _ => none

theorem Phase.ending?_eq_some {phase : Phase} {ending : Ending (Except ServiceError Reply)} :
    phase.ending? = some ending ↔ phase = .ended ending := by
  cases phase <;> simp [ending?]

namespace System

namespace Moment

/-- The call that was made. -/
def asked? (moment : Moment) : Option Inquiry :=
  (moment.after.executor.hand.find? fun call =>
    call.1.id == moment.before.executor.issued).map fun call =>
      ⟨moment.before.now, moment.before.executor.issued, call.2.service, call.2.query⟩

/-- The call that was served. -/
def served? (moment : Moment) : Option (Running Body) :=
  match moment.event with
  | .serve place => moment.before.executor.running[place]?
  | _ => none

/-- The call whose work began. -/
def begun? (moment : Moment) : Option Inquiry :=
  (moment.served?.filter fun call => call.work.phase.isFresh).map fun call =>
    ⟨moment.before.now, call.request.id, call.work.service, call.work.query⟩

/-- The call whose work ended. -/
def returned? (moment : Moment) : Option Returned := do
  let call ← moment.served?
  let service ← moment.before.host.service? call.work.service
  let (phase, _) ← service.goOn moment.before.now call.work.query call.work.phase
  return ⟨moment.before.now, call.request.id, ← phase.ending?⟩

end Moment

def asked (moments : List Moment) : List Inquiry := moments.filterMap Moment.asked?

def begun (moments : List Moment) : List Inquiry := moments.filterMap Moment.begun?

def returned (moments : List Moment) : List Returned := moments.filterMap Moment.returned?

variable {before after last : System Answer} {stages later : Nat → Option Stage} {event : Event}
  {moments past : List Moment} {moment : Moment}

theorem asked_append (past : List Moment) (moment : Moment) :
    asked (past ++ [moment]) = asked past ++ moment.asked?.toList := by
  cases made : moment.asked? <;> simp [asked, made]

theorem begun_append (past : List Moment) (moment : Moment) :
    begun (past ++ [moment]) = begun past ++ moment.begun?.toList := by
  cases made : moment.begun? <;> simp [begun, made]

theorem returned_append (past : List Moment) (moment : Moment) :
    returned (past ++ [moment]) = returned past ++ moment.returned?.toList := by
  cases made : moment.returned? <;> simp [returned, made]

theorem returned_grows {past : List Moment} {ended : Returned} (member : ended ∈ returned past)
    (more : List Moment) : ended ∈ returned (past ++ more) := by
  rw [returned, List.filterMap_append]
  exact List.mem_append_left _ member

theorem mem_returned {ended : Returned} (past : List Moment) (told : moment.returned? = some ended) :
    ended ∈ returned (past ++ [moment]) := by
  rw [returned_append, told]
  exact List.mem_append_right _ List.mem_cons_self

theorem Moment.number_of_asked? {inquiry : Inquiry} (made : moment.asked? = some inquiry) :
    inquiry.number = moment.before.executor.issued := by
  obtain ⟨_, _, rfl⟩ := Option.map_eq_some_iff.mp made
  rfl

theorem Moment.instant_of_asked? {inquiry : Inquiry} (made : moment.asked? = some inquiry) :
    inquiry.instant = moment.before.now := by
  obtain ⟨_, _, rfl⟩ := Option.map_eq_some_iff.mp made
  rfl

/-! ## What an event does to the calls -/

theorem moved_of_going (executor : Executor Body (Except ServiceError Reply)) (call : Running Body)
    {phase : Phase} (going : phase.ending? = none) :
    moved executor call phase =
      executor.continueWith call.request.id { call.work with phase } := by
  cases phase with
  | ended => cases going
  | fresh | planned | stopping => rfl

theorem moved_of_ended (executor : Executor Body (Except ServiceError Reply)) (call : Running Body)
    (ending : Ending (Except ServiceError Reply)) :
    moved executor call (.ended ending) = executor.conclude call.request.id fun request =>
      ending.outcome request.operation := Executor.finish_eq_conclude ending

/-- What becomes of the calls by one event. -/
inductive Turn (before : System Answer) : Event → System Answer → Prop where
  /-- No call but that an answer may have been taken. -/
  | rests {event : Event} {after : System Answer}
      {answers : List (Nat × Except CallError (Except ServiceError Reply))} :
      (∀ place, event ≠ .serve place) → answers.Sublist before.executor.answers →
      after.executor = { before.executor with answers } → after.now = before.now →
      Turn before event after
  | asks {event : Event} {after : System Answer}
      {answers : List (Nat × Except CallError (Except ServiceError Reply))}
      (service : ServiceId) (query : Query) :
      (∀ place, event ≠ .serve place) →
      before.keepsTime event = !before.executor.overdue before.now →
      answers.Sublist before.executor.answers →
      after.executor = Executor.submit { before.executor with answers } before.now query.operation
        callDeadline ⟨service, query, .fresh⟩ → after.now = before.now →
      Turn before event after
  | serves {place : Nat} {after : System Answer} {call : Running Body} {service changed : Service}
      {phase : Phase} :
      before.executor.running[place]? = some call →
      before.host.service? call.work.service = some service →
      service.goOn before.now call.work.query call.work.phase = some (phase, changed) →
      after.executor = moved before.executor call phase → after.now = before.now →
      Turn before (.serve place) after
  | expires {after : System Answer} :
      after.executor = before.executor.expire before.now → after.now = before.now →
      Turn before .expire after
  | waits {instant : Nat} {after : System Answer} :
      before.now ≤ instant → after.executor = before.executor → after.now = instant →
      Turn before (.wait instant) after

theorem Step.turn (step : before.Step stages event after later) : before.Turn event after := by
  cases step with
  | @launch operation halt host part =>
    cases halt with
    | ended => exact .rests (by simp) (.refl _) rfl rfl
    | waits service stage => exact .asks service stage.query (by simp) rfl (.refl _) rfl rfl
  | @resume place call stage answer halt host =>
    cases halt with
    | ended => exact .rests (by simp) List.filter_sublist rfl rfl
    | waits service stage =>
      exact .asks service stage.query (by simp) rfl List.filter_sublist rfl rfl
  | serve there found goes => exact .serves there found goes rfl rfl
  | stir stirs =>
    refine .rests (fun place same => ?_) (.refl _) rfl rfl
    subst same
    cases stirs
  | take | drop => exact .rests (by simp) (.refl _) rfl rfl
  | expire => exact .expires rfl rfl
  | wait since => exact .waits since rfl rfl

namespace Turn

theorem now_le (turn : before.Turn event after) : before.now ≤ after.now := by
  cases turn with
  | rests _ _ _ now | asks _ _ _ _ _ _ now | serves _ _ _ _ now | expires _ now =>
    exact Nat.le_of_eq now.symm
  | waits since _ now => exact now ▸ since

theorem served?_of_ne (other : ∀ place, event ≠ .serve place) :
    (⟨before, event, after⟩ : Moment).served? = none := by
  cases event with
  | serve place => exact absurd rfl (other place)
  | _ => rfl

/-- The calls in hand after a call went on: the others as they were, and the call if it goes on. -/
theorem mem_hand_moved {executor : Executor Body (Except ServiceError Reply)}
    (orderly : executor.Orderly) {call : Running Body} (member : call ∈ executor.running)
    {phase : Phase} {entry : Request × Body} (there : entry ∈ (moved executor call phase).hand) :
    (entry ∈ executor.hand ∧ entry.1.id ≠ call.request.id) ∨
      entry = (call.request, { call.work with phase }) ∧ phase.ending? = none := by
  have holds : call.request.id ∈ executor.holders := List.mem_map_of_mem member
  have goes : ∀ work, entry ∈ (executor.continueWith call.request.id work).hand →
      (entry ∈ executor.hand ∧ entry.1.id ≠ call.request.id) ∨ entry = (call.request, work) := by
    intro work there
    rcases Executor.mem_hand.mp there with ⟨other, running, rfl⟩ | waits
    · rcases Executor.running_continueWith running with ⟨here, apart⟩ | ⟨earlier, here, same, rfl⟩
      · exact .inl ⟨Executor.mem_hand_of_running here, apart⟩
      · have equal := orderly.eq_of_number (Executor.mem_hand_of_running here)
          (Executor.mem_hand_of_running member) same
        exact .inr (by rw [(Prod.mk.inj equal).1])
    · refine .inl ⟨Executor.mem_hand_of_queue waits, ?_⟩
      exact Nat.ne_of_gt (orderly.older _ holds entry.1.id (List.mem_map_of_mem waits))
  cases phase with
  | ended ending =>
    rw [moved_of_ended] at there
    exact .inl ((Executor.mem_hand_conclude orderly holds).mp there)
  | fresh | planned | stopping => exact (goes _ there).imp_right fun same => ⟨same, rfl⟩

theorem orderly (turn : before.Turn event after) (orderly : before.executor.Orderly) :
    after.executor.Orderly := by
  have fewer : ∀ {answers : List (Nat × Except CallError (Except ServiceError Reply))},
      answers.Sublist before.executor.answers →
      Executor.Orderly { before.executor with answers } := fun fewer =>
    orderly.of_sublist ⟨orderly.numbered.queued, orderly.numbered.granted,
      fun entry member => orderly.numbered.answered entry (fewer.subset member)⟩ rfl rfl (.refl _)
  cases turn with
  | rests _ taken same => exact same ▸ fewer taken
  | asks service query _ _ taken same => exact same ▸ (fewer taken).arrive ..
  | @serves _ _ _ _ _ phase _ _ _ same =>
    rw [same]
    cases phase with
    | ended =>
      rw [moved_of_ended]
      exact orderly.conclude ..
    | fresh | planned | stopping => exact orderly.continueWith ..
  | expires same => exact same ▸ orderly.expire _
  | waits _ same => exact same ▸ orderly

end Turn

/-! ## The calls that were made -/

/-- Every call in hand stands in the book of the calls that were made, under its number. -/
structure Entered (moments : List Moment) (system : System Answer) : Prop where
  orderly : system.executor.Orderly
  numbers : (asked moments).map Inquiry.number = List.range system.executor.issued
  hand : ∀ call ∈ system.executor.hand, ∃ inquiry ∈ asked moments,
    call.1 = inquiry.request ∧ call.2.service = inquiry.service ∧ call.2.query = inquiry.query
  past : ∀ inquiry ∈ asked moments, inquiry.instant ≤ system.now

namespace Entered

theorem start (host : Host) (capacity : Nat) : Entered [] (.start host capacity) where
  orderly := .start capacity
  numbers := rfl
  hand _ member := by cases member
  past _ member := by cases member

theorem lt_issued (entered : Entered moments before) {call : Request × Body}
    (member : call ∈ before.executor.hand) : call.1.id < before.executor.issued := by
  rcases Executor.mem_hand.mp member with ⟨holder, there, rfl⟩ | waits
  · exact entered.orderly.numbered.granted holder there
  · exact entered.orderly.numbered.queued call waits

theorem number_lt (entered : Entered moments before) {inquiry : Inquiry}
    (member : inquiry ∈ asked moments) : inquiry.number < before.executor.issued := by
  have there : inquiry.number ∈ (asked moments).map Inquiry.number := List.mem_map_of_mem member
  rw [entered.numbers] at there
  exact List.mem_range.mp there

/-- A number is that of one call. -/
theorem eq_of_number (entered : Entered moments before) {first second : Inquiry}
    (left : first ∈ asked moments) (right : second ∈ asked moments)
    (same : first.number = second.number) : first = second := by
  have once : ((asked moments).map Inquiry.number).Nodup := by
    rw [entered.numbers]
    exact List.nodup_range
  exact List.inj_on_of_nodup_map once left right same

theorem asked?_eq_none (entered : Entered moments before)
    (old : ∀ call ∈ after.executor.hand, ∃ body, (call.1, body) ∈ before.executor.hand) :
    (⟨before, event, after⟩ : Moment).asked? = none := by
  refine Option.map_eq_none_iff.mpr (List.find?_eq_none.mpr fun call member => ?_)
  obtain ⟨body, there⟩ := old call member
  simpa using Nat.ne_of_lt (entered.lt_issued there)

theorem asked?_of_submit (entered : Entered moments before) {service : ServiceId} {query : Query}
    {answers : List (Nat × Except CallError (Except ServiceError Reply))}
    (same : after.executor = Executor.submit { before.executor with answers } before.now
      query.operation callDeadline ⟨service, query, .fresh⟩) :
    (⟨before, event, after⟩ : Moment).asked? =
      some ⟨before.now, before.executor.issued, service, query⟩ := by
  have none_old : before.executor.hand.find?
      (fun call => call.1.id == before.executor.issued) = none :=
    List.find?_eq_none.mpr fun call member => by simpa using Nat.ne_of_lt (entered.lt_issued member)
  unfold Moment.asked?
  rw [same, Executor.hand_submit]
  change ((before.executor.hand ++ _).find? _).map _ = _
  rw [List.find?_append, none_old]
  simp

theorem hand_cases (entered : Entered moments before) (turn : before.Turn event after) :
    (after.executor.issued = before.executor.issued ∧
      ∀ call ∈ after.executor.hand, ∃ body, (call.1, body) ∈ before.executor.hand ∧
        call.2.service = body.service ∧ call.2.query = body.query) ∨
    ∃ answers service query, after.executor = Executor.submit { before.executor with answers }
      before.now (Query.operation query) callDeadline ⟨service, query, .fresh⟩ := by
  cases turn with
  | rests _ _ same | waits _ same =>
    refine .inl ⟨by rw [same], fun call member => ⟨call.2, ?_, rfl, rfl⟩⟩
    rw [same] at member
    exact member
  | expires same =>
    refine .inl ⟨by rw [same]; rfl, fun call member => ⟨call.2, ?_, rfl, rfl⟩⟩
    rw [same] at member
    exact Executor.mem_hand_of_expire member
  | @serves _ _ call _ _ phase there _ _ same =>
    have running := List.mem_of_getElem? there
    refine .inl ⟨by rw [same]; cases phase <;> rfl, fun entry member => ?_⟩
    rw [same] at member
    rcases Turn.mem_hand_moved entered.orderly running member with ⟨old, _⟩ | ⟨rfl, _⟩
    · exact ⟨entry.2, old, rfl, rfl⟩
    · exact ⟨call.work, Executor.mem_hand_of_running running, rfl, rfl⟩
  | asks service query _ _ _ same => exact .inr ⟨_, service, query, same⟩

/-- One call is made at most, and all others stand in the book already. -/
theorem turn_cases (entered : Entered moments before) (turn : before.Turn event after) :
    ((⟨before, event, after⟩ : Moment).asked? = none ∧
      after.executor.issued = before.executor.issued ∧
      ∀ call ∈ after.executor.hand, ∃ body, (call.1, body) ∈ before.executor.hand ∧
        call.2.service = body.service ∧ call.2.query = body.query) ∨
    ∃ service query, (⟨before, event, after⟩ : Moment).asked? =
        some ⟨before.now, before.executor.issued, service, query⟩ ∧
      after.executor.issued = before.executor.issued + 1 ∧
      after.executor.hand = before.executor.hand ++
        [(Inquiry.request ⟨before.now, before.executor.issued, service, query⟩,
          ⟨service, query, .fresh⟩)] := by
  rcases entered.hand_cases turn with ⟨issued, old⟩ | ⟨answers, service, query, same⟩
  · refine .inl ⟨entered.asked?_eq_none fun call member => ?_, issued, old⟩
    exact (old call member).imp fun _ both => both.1
  · refine .inr ⟨service, query, entered.asked?_of_submit same, by rw [same]; rfl, ?_⟩
    rw [same, Executor.hand_submit]
    rfl

theorem turn (entered : Entered moments before) (turn : before.Turn event after) :
    Entered (moments ++ [⟨before, event, after⟩]) after := by
  have past : ∀ inquiry ∈ asked moments, inquiry.instant ≤ after.now := fun inquiry member =>
    Nat.le_trans (entered.past inquiry member) turn.now_le
  rcases entered.turn_cases turn with ⟨none, issued, old⟩ | ⟨service, query, made, issued, hand⟩
  · have same : asked (moments ++ [⟨before, event, after⟩]) = asked moments := by
      rw [asked_append, none, Option.toList_none, List.append_nil]
    refine ⟨turn.orderly entered.orderly, ?_, fun call member => ?_, same ▸ past⟩
    · rw [same, issued, entered.numbers]
    · obtain ⟨body, there, service, query⟩ := old call member
      obtain ⟨inquiry, stands, request, own, asks⟩ := entered.hand _ there
      exact ⟨inquiry, same ▸ stands, request, service.trans own, query.trans asks⟩
  -- The new call takes the next number, and stands at the end of the book.
  · have longer : asked (moments ++ [⟨before, event, after⟩]) =
        asked moments ++ [⟨before.now, before.executor.issued, service, query⟩] := by
      rw [asked_append, made, Option.toList_some]
    refine ⟨turn.orderly entered.orderly, ?_, fun call member => ?_, fun inquiry member => ?_⟩
    · rw [longer, List.map_append, entered.numbers, issued, List.range_succ]
      rfl
    · rw [hand, List.mem_append, List.mem_singleton] at member
      rw [longer]
      rcases member with old | rfl
      · obtain ⟨inquiry, stands, heads⟩ := entered.hand call old
        exact ⟨inquiry, List.mem_append_left _ stands, heads⟩
      · exact ⟨_, List.mem_append_right _ List.mem_cons_self, rfl, rfl, rfl⟩
    · rw [longer, List.mem_append, List.mem_singleton] at member
      rcases member with old | rfl
      · exact past inquiry old
      · exact turn.now_le

end Entered

/-! ## The work of the calls -/

theorem Moment.begun?_of_serve {place : Nat} {call : Running Body}
    (there : before.executor.running[place]? = some call) :
    (⟨before, .serve place, after⟩ : Moment).begun? =
      if call.work.phase.isFresh then
        some ⟨before.now, call.request.id, call.work.service, call.work.query⟩
      else none := by
  simp only [begun?, served?, there, Option.filter_some]
  cases call.work.phase.isFresh <;> rfl

theorem Moment.returned?_of_serve {place : Nat} {call : Running Body} {service changed : Service}
    {phase : Phase} (there : before.executor.running[place]? = some call)
    (found : before.host.service? call.work.service = some service)
    (goes : service.goOn before.now call.work.query call.work.phase = some (phase, changed)) :
    (⟨before, .serve place, after⟩ : Moment).returned? =
      phase.ending?.map fun ending => ⟨before.now, call.request.id, ending⟩ := by
  cases told : phase.ending? <;> simp [returned?, served?, there, found, goes, told]

theorem Moment.instant_of_returned? {ended : Returned} (told : moment.returned? = some ended) :
    ended.instant = moment.before.now := by
  simp only [returned?, Option.bind_eq_bind, Option.bind_eq_some_iff, Option.pure_def,
    Option.some.injEq] at told
  obtain ⟨_, _, _, _, _, _, _, _, rfl⟩ := told
  rfl

/-- What is added to a log without repetition must not stand in it. -/
theorem nodup_append_toList {α : Type} {log : List α} {new? : Option α} (once : log.Nodup)
    (absent : ∀ new, new? = some new → new ∉ log) : (log ++ new?.toList).Nodup := by
  cases new? with
  | none => rwa [Option.toList_none, List.append_nil]
  | some new => exact List.concat_eq_append ▸ once.concat (absent new rfl)

/-- The work of a call begins when it leaves its fresh phase, and it ends once. -/
structure Worked (moments : List Moment) (system : System Answer) : Prop where
  fresh : ∀ call ∈ system.executor.hand,
    call.2.phase.isFresh = true ↔ call.1.id ∉ (begun moments).map Inquiry.number
  going : ∀ call ∈ system.executor.hand, call.1.id ∉ (returned moments).map Returned.number
  queued : ∀ call ∈ system.executor.queue, call.2.phase.isFresh = true
  known : ∀ start ∈ begun moments, ∃ inquiry ∈ asked moments, start.number = inquiry.number ∧
    start.service = inquiry.service ∧ start.query = inquiry.query
  preceded : ∀ ended ∈ returned moments, ended.number ∈ (begun moments).map Inquiry.number
  once : ((begun moments).map Inquiry.number).Nodup
  last : ((returned moments).map Returned.number).Nodup
  past : ∀ ended ∈ returned moments, ended.instant ≤ system.now

namespace Worked

theorem start (host : Host) (capacity : Nat) : Worked [] (.start host capacity) where
  fresh _ member := by cases member
  going _ member := by cases member
  queued _ member := by cases member
  known _ member := by cases member
  preceded _ member := by cases member
  once := .nil
  last := .nil
  past _ member := by cases member

theorem asked_subset {moments : List Moment} {moment : Moment} {inquiry : Inquiry}
    (member : inquiry ∈ asked moments) : inquiry ∈ asked (moments ++ [moment]) := by
  rw [asked_append]
  exact List.mem_append_left _ member

/-- While no work goes on, the books stay as they are. -/
theorem idles (worked : Worked moments before) (entered : Entered moments before)
    (other : ∀ place, event ≠ .serve place) (since : before.now ≤ after.now)
    (hand : ∀ call ∈ after.executor.hand, call ∈ before.executor.hand ∨
      call.1.id = before.executor.issued ∧ call.2.phase = .fresh)
    (queue : ∀ call ∈ after.executor.queue, call ∈ before.executor.queue ∨
      call.2.phase = .fresh) :
    Worked (moments ++ [⟨before, event, after⟩]) after := by
  have idle : (⟨before, event, after⟩ : Moment).served? = none := Turn.served?_of_ne other
  have began : begun (moments ++ [⟨before, event, after⟩]) = begun moments := by
    simp [begun_append, Moment.begun?, idle]
  have ended : returned (moments ++ [⟨before, event, after⟩]) = returned moments := by
    simp [returned_append, Moment.returned?, idle]
  -- No call that was only just made can stand in the books of the work.
  have unknown : before.executor.issued ∉ (begun moments).map Inquiry.number := by
    intro there
    obtain ⟨start, member, same⟩ := List.mem_map.mp there
    obtain ⟨inquiry, stands, number, _⟩ := worked.known start member
    exact absurd (entered.number_lt stands) (by omega)
  have unended : before.executor.issued ∉ (returned moments).map Returned.number := by
    intro there
    obtain ⟨ending, member, same⟩ := List.mem_map.mp there
    exact unknown (same ▸ worked.preceded ending member)
  constructor
  case fresh =>
    intro call member
    rw [began]
    rcases hand call member with old | ⟨new, fresh⟩
    · exact worked.fresh call old
    · rw [new, fresh]
      exact ⟨fun _ => unknown, fun _ => rfl⟩
  case going =>
    intro call member
    rw [ended]
    rcases hand call member with old | ⟨new, _⟩
    · exact worked.going call old
    · exact new ▸ unended
  case queued =>
    intro call member
    rcases queue call member with old | fresh
    · exact worked.queued call old
    · rw [fresh]
      rfl
  case known =>
    rw [began]
    intro start member
    obtain ⟨inquiry, stands, same⟩ := worked.known start member
    exact ⟨inquiry, asked_subset stands, same⟩
  case preceded => exact ended ▸ began ▸ worked.preceded
  case once => exact began ▸ worked.once
  case last => exact ended ▸ worked.last
  case past => exact ended ▸ fun ending member => Nat.le_trans (worked.past ending member) since

section Serve

variable {place : Nat} {call : Running Body} {service changed : Service} {phase : Phase}

theorem numbers_begun_serve (there : before.executor.running[place]? = some call) :
    (begun (moments ++ [⟨before, .serve place, after⟩])).map Inquiry.number =
      (begun moments).map Inquiry.number ++
        (if call.work.phase.isFresh then some call.request.id else none).toList := by
  rw [begun_append, Moment.begun?_of_serve there, List.map_append]
  split <;> rfl

theorem numbers_returned_serve (there : before.executor.running[place]? = some call)
    (found : before.host.service? call.work.service = some service)
    (goes : service.goOn before.now call.work.query call.work.phase = some (phase, changed)) :
    (returned (moments ++ [⟨before, .serve place, after⟩])).map Returned.number =
      (returned moments).map Returned.number ++
        (phase.ending?.map fun _ => call.request.id).toList := by
  rw [returned_append, Moment.returned?_of_serve there found goes, List.map_append]
  cases phase.ending? <;> rfl

/-- Whether it begins now or has begun before, a call that is served stands in the book of those
that began. -/
theorem begins (worked : Worked moments before)
    (there : before.executor.running[place]? = some call) :
    call.request.id ∈ (begun (moments ++ [⟨before, .serve place, after⟩])).map Inquiry.number := by
  have mine := Executor.mem_hand_of_running (List.mem_of_getElem? there)
  rw [numbers_begun_serve there, List.mem_append]
  cases fresh : call.work.phase.isFresh with
  | true => exact .inr List.mem_cons_self
  | false =>
    refine .inl (Decidable.byContradiction fun absent => ?_)
    cases fresh.symm.trans ((worked.fresh _ mine).mpr absent)

/-- Of the calls that are left in hand, only the one that was served has begun. -/
theorem fresh_of_served (worked : Worked moments before) (orderly : before.executor.Orderly)
    (there : before.executor.running[place]? = some call) (cold : phase.isFresh = false)
    {entry : Request × Body} (member : entry ∈ (moved before.executor call phase).hand) :
    entry.2.phase.isFresh = true ↔
      entry.1.id ∉ (begun (moments ++ [⟨before, .serve place, after⟩])).map Inquiry.number := by
  rcases Turn.mem_hand_moved orderly (List.mem_of_getElem? there) member with
    ⟨old, apart⟩ | ⟨rfl, _⟩
  · rw [worked.fresh entry old, numbers_begun_serve there, List.mem_append, not_or]
    refine ⟨fun absent => ⟨absent, ?_⟩, And.left⟩
    split <;> simp [apart]
  · simp only [cold, Bool.false_eq_true, false_iff, Classical.not_not]
    exact worked.begins there

/-- A call that is left in hand has not ended. -/
theorem going_of_served (worked : Worked moments before) (orderly : before.executor.Orderly)
    (there : before.executor.running[place]? = some call)
    (found : before.host.service? call.work.service = some service)
    (goes : service.goOn before.now call.work.query call.work.phase = some (phase, changed))
    {entry : Request × Body} (member : entry ∈ (moved before.executor call phase).hand) :
    entry.1.id ∉
      (returned (moments ++ [⟨before, .serve place, after⟩])).map Returned.number := by
  have running := List.mem_of_getElem? there
  rw [numbers_returned_serve there found goes, List.mem_append, not_or]
  rcases Turn.mem_hand_moved orderly running member with ⟨old, apart⟩ | ⟨rfl, goes⟩
  · refine ⟨worked.going entry old, ?_⟩
    cases phase.ending? <;> simp [apart]
  · have absent := worked.going _ (Executor.mem_hand_of_running running)
    exact ⟨absent, by simp [goes]⟩

theorem serves (worked : Worked moments before) (entered : Entered moments before)
    (there : before.executor.running[place]? = some call)
    (found : before.host.service? call.work.service = some service)
    (goes : service.goOn before.now call.work.query call.work.phase = some (phase, changed))
    (same : after.executor = moved before.executor call phase) (now : after.now = before.now) :
    Worked (moments ++ [⟨before, .serve place, after⟩]) after := by
  have mine := Executor.mem_hand_of_running (List.mem_of_getElem? there)
  constructor
  case fresh =>
    intro entry member
    exact worked.fresh_of_served entered.orderly there (Service.not_fresh goes) (same ▸ member)
  case going =>
    intro entry member
    exact worked.going_of_served entered.orderly there found goes (same ▸ member)
  case queued =>
    intro entry member
    rw [same] at member
    cases phase with
    | ended ending =>
      rw [moved_of_ended] at member
      exact worked.queued entry (Executor.queue_conclude member)
    | fresh | planned | stopping => exact worked.queued entry member
  case known =>
    intro start member
    rw [begun_append, Moment.begun?_of_serve there, List.mem_append, Option.mem_toList] at member
    rcases member with old | new
    · obtain ⟨inquiry, stands, same⟩ := worked.known start old
      exact ⟨inquiry, asked_subset stands, same⟩
    · obtain ⟨_, same⟩ := Option.ite_none_right_eq_some.mp new
      cases same
      obtain ⟨inquiry, stands, request, service, query⟩ := entered.hand _ mine
      exact ⟨inquiry, asked_subset stands, congrArg Request.id request, service, query⟩
  case preceded =>
    intro ending member
    rw [returned_append, Moment.returned?_of_serve there found goes, List.mem_append,
      Option.mem_toList] at member
    rcases member with old | new
    · rw [numbers_begun_serve there]
      exact List.mem_append_left _ (worked.preceded ending old)
    · obtain ⟨_, _, rfl⟩ := Option.map_eq_some_iff.mp new
      exact worked.begins there
  case once =>
    rw [numbers_begun_serve there]
    refine nodup_append_toList worked.once fun number begins => ?_
    obtain ⟨fresh, same⟩ := Option.ite_none_right_eq_some.mp begins
    cases same
    exact (worked.fresh _ mine).mp fresh
  case last =>
    rw [numbers_returned_serve there found goes]
    refine nodup_append_toList worked.last fun number ends => ?_
    obtain ⟨_, _, rfl⟩ := Option.map_eq_some_iff.mp ends
    exact worked.going _ mine
  case past =>
    intro ending member
    rw [returned_append, List.mem_append, Option.mem_toList] at member
    rcases member with old | new
    · exact now ▸ worked.past ending old
    · rw [Moment.instant_of_returned? new]
      exact Nat.le_of_eq now.symm

end Serve

theorem turn (worked : Worked moments before) (entered : Entered moments before)
    (turn : before.Turn event after) : Worked (moments ++ [⟨before, event, after⟩]) after := by
  have since := turn.now_le
  cases turn with
  | rests other _ same =>
    refine worked.idles entered other since (fun call member => .inl ?_) fun call member => .inl ?_
    all_goals
      rw [same] at member
      exact member
  | asks service query other _ _ same =>
    refine worked.idles entered other since (fun call member => ?_) fun call member => ?_
    · rw [same, Executor.hand_submit, List.mem_append, List.mem_singleton] at member
      rcases member with old | rfl
      · exact .inl old
      · exact .inr ⟨rfl, rfl⟩
    · rw [same] at member
      rcases List.mem_append.mp (Executor.queue_submit member) with old | new
      · exact .inl old
      · exact .inr (by rw [List.mem_singleton.mp new])
  | serves there found goes same now => exact worked.serves entered there found goes same now
  | expires same =>
    refine worked.idles entered (by simp) since (fun call member => .inl ?_)
      fun call member => .inl ?_
    all_goals rw [same] at member
    · exact Executor.mem_hand_of_expire member
    · exact (List.mem_filter.mp member).1
  | waits _ same =>
    refine worked.idles entered (by simp) since (fun call member => .inl ?_)
      fun call member => .inl ?_
    all_goals
      rw [same] at member
      exact member

end Worked

end System
end ServiceHost
