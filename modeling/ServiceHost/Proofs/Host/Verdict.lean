import ServiceHost.Proofs.Host.Completion
import ServiceHost.Proofs.Host.Return

/-! What a call through a server comes to, and what its caller is told.

A call succeeds if the service's own call has returned well before the deadline. Every other call
fails, for a reason that hangs on the service alone.
-/

set_option autoImplicit false

namespace ServiceHost

/-- Whether a refusal is for the state that a service is in. -/
def ServiceError.conflicts : ServiceError → Bool
  | lifecycle .alreadyRunning | lifecycle (.invalidTransition ..) => true
  | _ => false

theorem HostError.ofService_eq (operation : String) (cause : ServiceError) :
    ofService operation cause =
      if cause.conflicts then .stateConflict operation cause.message
      else .execution operation cause.message := by
  rcases cause with (_ | _ | _) | _ <;> rfl

/-- Whether a reply is of the kind that a call asks for. -/
def Query.takes : Query → Reply → Bool
  | control _, _ => true
  | state, .state _ => true
  | instanceId, .id _ => true
  | _, _ => false

/-- Whether a call that comes to an end comes to a reply of its kind, if to any reply. -/
def Query.fits (query : Query) : Ending (Except ServiceError Reply) → Bool
  | .value (.ok reply) => query.takes reply
  | _ => true

/-- Whether a caller is told of a success. -/
def Answer.grants : Answer → Bool
  | flag value => value
  | state told => told.isSome
  | id told => told.isSome
  | _ => false

theorem Answer.grants_ofReply (query : Query) (reply : Option Reply) :
    (ofReply query reply).grants = reply.any query.takes := by
  rcases query with control | _ | _ <;> rcases reply with _ | (_ | _ | _) <;> rfl

namespace System

variable {last : System Answer} {moments : List Moment} {now : Nat} {inquiry : Inquiry}
  {result : Except HostError Reply} {completion : Completion}

/-- What a call comes to for its server, by what the service's own call has come to. -/
inductive Verdict (moments : List Moment) (inquiry : Inquiry) : Except HostError Reply → Prop where
  | answered {ended : Returned} {reply : Reply} :
      ended ∈ returned moments → ended.number = inquiry.number →
      (Timely moments → ended.instant < inquiry.deadline) →
      ended.ending = .value (.ok reply) → Verdict moments inquiry (.ok reply)
  | conflict {ended : Returned} {cause : ServiceError} :
      ended ∈ returned moments → ended.number = inquiry.number →
      (Timely moments → ended.instant < inquiry.deadline) →
      ended.ending = .value (.error cause) → cause.conflicts = true →
      Verdict moments inquiry (.error (.stateConflict inquiry.query.operation cause.message))
  | failed {ended : Returned} {cause : ServiceError} :
      ended ∈ returned moments → ended.number = inquiry.number →
      (Timely moments → ended.instant < inquiry.deadline) →
      ended.ending = .value (.error cause) → cause.conflicts = false →
      Verdict moments inquiry (.error (.execution inquiry.query.operation cause.message))
  | panicked {ended : Returned} {payload : Payload} :
      ended ∈ returned moments → ended.number = inquiry.number →
      (Timely moments → ended.instant < inquiry.deadline) →
      ended.ending = .panicked payload →
      Verdict moments inquiry
        (.error (.execution inquiry.query.operation s!"panicked: {payload.message}"))
  /-- However the service's own call ends later. -/
  | late :
      (∀ ended ∈ returned moments, ended.number = inquiry.number →
        inquiry.deadline ≤ ended.instant) →
      Verdict moments inquiry
        (.error (.timeout inquiry.query.operation (.ofMillis callDeadline)))

theorem Comes.verdict {answer : CallAnswer} (comes : Comes moments now inquiry answer) :
    Verdict moments inquiry (Server.result inquiry.query answer) := by
  cases comes with
  | @returned ended member same soon =>
    cases ending : ended.ending with
    | panicked payload => exact .panicked member same soon ending
    | value value =>
      cases value with
      | ok reply => exact .answered member same soon ending
      | error cause =>
        simp only [Ending.outcome, Server.result, HostError.ofService_eq]
        cases conflicts : cause.conflicts with
        | true => exact .conflict member same soon ending conflicts
        | false => exact .failed member same soon ending conflicts
  | late _ others => exact .late others

/-- The service's own call has returned well before the deadline. -/
def Succeeds (moments : List Moment) (inquiry : Inquiry) (reply : Reply) : Prop :=
  ∃ ended ∈ returned moments, ended.number = inquiry.number ∧
    ended.instant < inquiry.deadline ∧ ended.ending = .value (.ok reply)

theorem Verdict.eq_ok_iff (verdict : Verdict moments inquiry result) (worked : Worked moments last)
    (timely : Timely moments) (reply : Reply) :
    result = .ok reply ↔ Succeeds moments inquiry reply := by
  -- The work of a call ends once.
  have sole : ∀ {first second : Returned}, first ∈ returned moments → second ∈ returned moments →
      first.number = inquiry.number → second.number = inquiry.number → first = second :=
    fun there here one two => List.inj_on_of_nodup_map worked.last there here (one.trans two.symm)
  constructor
  · rintro rfl
    cases verdict with
    | answered member same soon ending => exact ⟨_, member, same, soon timely, ending⟩
  · rintro ⟨other, there, own, early, well⟩
    cases verdict with
    | answered member same _ ending =>
      cases sole member there same own
      cases ending.symm.trans well
      rfl
    | conflict member same _ ending | failed member same _ ending =>
      cases sole member there same own
      cases ending.symm.trans well
    | panicked member same _ ending =>
      cases sole member there same own
      cases ending.symm.trans well
    | late others => exact absurd early (Nat.not_lt_of_le (others other there own))

/-- Every service replies in kind: with a state to a question for its state, and with an id to one
for its id. The types of a service's calls leave it no other replies. -/
def InKind (moments : List Moment) : Prop :=
  ∀ inquiry ∈ asked moments, ∀ ended ∈ returned moments, ended.number = inquiry.number →
    inquiry.query.fits ended.ending = true

instance (moments : List Moment) : Decidable (InKind moments) :=
  inferInstanceAs (Decidable (∀ inquiry ∈ asked moments, ∀ ended ∈ returned moments,
    ended.number = inquiry.number → inquiry.query.fits ended.ending = true))

theorem Verdict.takes (verdict : Verdict moments inquiry result) (kind : InKind moments)
    (member : inquiry ∈ asked moments) {reply : Reply} (well : result = .ok reply) :
    inquiry.query.takes reply = true := by
  subst well
  cases verdict with
  | answered there same _ ending =>
    have fits := kind inquiry member _ there same
    rwa [ending] at fits

/-- A completed call was refused, or it has come to what became of the service's own call. -/
inductive Accounted (moments : List Moment) (completion : Completion) : Prop where
  | refused :
      completion.call = none → completion.result = Server.refusal completion.query →
      (∃ moment ∈ moments, moment.before.host.hasKilled completion.server = true) →
      Accounted moments completion
  | reached {moment : Moment} {inquiry : Inquiry} :
      moment ∈ moments → moment.asked? = some inquiry →
      moment.after.host.serviceOf completion.server = some inquiry.service →
      completion.call = some inquiry.number → completion.query = inquiry.query →
      Verdict moments inquiry completion.result → Accounted moments completion

theorem Settled.accounted (settled : Settled moments completion) (entered : Entered moments last)
    (attended : Attended moments last) : Accounted moments completion := by
  cases settled with
  | refused silent result killed => exact .refused silent result killed
  | @heard told member call made result =>
    obtain ⟨inquiry, stands, number, comes, _⟩ := attended.comes told member
    obtain ⟨moment, there, own, asked, same, query, through⟩ := made
    obtain rfl := entered.eq_of_number (List.mem_filterMap.mpr ⟨moment, there, asked⟩) stands
      (same.trans number.symm)
    refine .reached there asked through (by rw [call, same]) query.symm ?_
    rw [result, ← query]
    exact comes.verdict

theorem Accounted.verdict (accounted : Accounted moments completion)
    (entered : Entered moments last) (member : inquiry ∈ asked moments)
    (call : completion.call = some inquiry.number) :
    completion.query = inquiry.query ∧ Verdict moments inquiry completion.result := by
  cases accounted with
  | refused silent => cases silent.symm.trans call
  | @reached moment own there asked _ mine query verdict =>
    obtain rfl := entered.eq_of_number (List.mem_filterMap.mpr ⟨moment, there, asked⟩) member
      (Option.some.inj (mine.symm.trans call))
    exact ⟨query, verdict⟩

theorem Accounted.takes (accounted : Accounted moments completion) (kind : InKind moments)
    {reply : Reply} (well : completion.result = .ok reply) :
    completion.query.takes reply = true := by
  cases accounted with
  | refused _ refusal =>
    rw [refusal] at well
    generalize completion.query = query at well
    rcases query with control | _ | _ <;> cases well
    rfl
  | reached there asked _ _ query verdict =>
    rw [query]
    exact verdict.takes kind (List.mem_filterMap.mpr ⟨_, there, asked⟩) well

end System
end ServiceHost
