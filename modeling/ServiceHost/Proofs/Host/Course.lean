import ServiceHost.Proofs.Host.Verdict

/-! From a call through a server to its answer, whatever else happens between the two. -/

set_option autoImplicit false

namespace ServiceHost.System

/-- The place of the procedure that is launched in a moment. -/
def Moment.place (moment : Moment) : Nat := moment.before.procedures.length

variable {before after last : System Answer} {stages later : Nat → Option Stage}
  {event : Event} {moments : List Moment} {moment : Moment} {completions : List Completion}
  {place : Nat} {server : ServerId} {query : Query}

/-- A call is made through a server that there is. -/
structure Moment.Calls (moment : Moment) (server : ServerId) (query : Query) : Prop where
  launched : moment.event = .launch (.call server query)
  known : (moment.before.host.server? server).isSome = true

/-- A call through a server is made of its service. -/
structure Moment.Asks (moment : Moment) (server : ServerId) (query : Query) (inquiry : Inquiry) :
    Prop where
  held : moment.before.host.serviceOf server = some inquiry.service
  asked : moment.asked? = some inquiry
  query : inquiry.query = query
  now : inquiry.instant = moment.before.now

/-- The calls that the procedure in a place has completed. -/
def completedAt (place : Nat) (completions : List Completion) : List Completion :=
  completions.filter fun completion => completion.place = place

/-- What becomes of a call through a server, from the moment at which it is made. -/
inductive Course (system : System Answer) (stages : Nat → Option Stage)
    (completions : List Completion) (moment : Moment) (server : ServerId) (query : Query) :
    Prop where
  /-- The server was killed. Neither its service nor anything else is reached. -/
  | refused :
      moment.before.host.serviceOf server = none →
      moment.after.executor = moment.before.executor →
      moment.after.host.services = moment.before.host.services →
      system.call? moment.place = none →
      completedAt moment.place completions =
        [⟨moment.place, server, query, none, Server.refusal query⟩] →
      (∀ yield, system.yield? moment.place = some yield →
        yield = ⟨.ofReply query (Server.refusal query).toOption, none⟩) →
      Course system stages completions moment server query
  | waits {inquiry : Inquiry} :
      moment.Asks server query inquiry →
      stages moment.place = some (.calling server query) →
      system.call? moment.place = some inquiry.number →
      completedAt moment.place completions = [] →
      Course system stages completions moment server query
  | answered {inquiry : Inquiry} {result : Except HostError Reply} :
      moment.Asks server query inquiry →
      system.call? moment.place = none →
      completedAt moment.place completions =
        [⟨moment.place, server, query, some inquiry.number, result⟩] →
      (∀ yield, system.yield? moment.place = some yield →
        yield = ⟨.ofReply query result.toOption, none⟩) →
      Course system stages completions moment server query

theorem completedAt_append (place : Nat) (first second : List Completion) :
    completedAt place (first ++ second) = completedAt place first ++ completedAt place second :=
  List.filter_append ..

theorem completedAt_eq_nil (apart : ∀ completion ∈ completions, completion.place ≠ place) :
    completedAt place completions = [] :=
  List.filter_eq_nil_iff.mpr fun completion member => by simpa using apart completion member

/-- Only the procedure that goes on gives up its place. -/
theorem Step.stands (step : before.Step stages event after later)
    (bound : place < before.procedures.length) (other : event.resumes place = false) :
    after.call? place = before.call? place ∧
      ∀ yield, after.yield? place = some yield → before.yield? place = some yield := by
  have same : after.procedures[place]? = before.procedures[place]? →
      after.call? place = before.call? place ∧
        ∀ yield, after.yield? place = some yield → before.yield? place = some yield := by
    intro same
    rw [call?, call?, yield?, yield?, same]
    exact ⟨rfl, fun _ => id⟩
  cases step with
  | launch => exact same (List.getElem?_append_left bound)
  | @resume resumed =>
    have apart : resumed ≠ place := by simpa [Event.resumes] using other
    exact same (List.getElem?_set_ne apart)
  | serve | stir | expire | drop | wait => exact same rfl
  | @take taken name yield yielded =>
    by_cases own : taken = place
    · subst own
      refine ⟨call?_take yielded taken, fun yield told => ?_⟩
      simp [yield?, System.take, bound] at told
    · exact same (List.getElem?_set_ne own)

theorem Step.length_le (step : before.Step stages event after later) :
    before.procedures.length ≤ after.procedures.length := by
  cases step with
  | launch => simp
  | resume | take => simp [System.take]
  | serve | stir | expire | drop | wait => exact Nat.le_refl _

theorem length_lt_of_launch {operation : Operation}
    (step : before.Step stages (.launch operation) after later) :
    before.procedures.length < after.procedures.length := by
  cases step with
  | stir stirs => cases stirs
  | launch => simp

/-- Only a call that is refused at once, or the call of the procedure that goes on, is completed. -/
theorem place_of_completed {completion : Completion}
    (step : before.Step stages event after later)
    (member : completion ∈ Moment.completed ⟨before, event, after⟩ stages) :
    completion.place = before.procedures.length ∧ completion.place < after.procedures.length ∨
      event.resumes completion.place = true ∧ completion.place < before.procedures.length := by
  rcases step.completed_cases with none | ⟨server, query, rfl, _, done⟩ |
    ⟨place, number, stage, answer, rfl, _, waits, _, done⟩
  · rw [none] at member
    cases member
  · rw [done] at member
    cases List.mem_singleton.mp member
    exact .inl ⟨rfl, length_lt_of_launch step⟩
  · rw [done] at member
    obtain ⟨rfl, _⟩ := Stage.mem_completions member
    obtain ⟨next, there⟩ := call?_eq_some.mp waits
    exact .inr ⟨by simp [Event.resumes], (List.getElem?_eq_some_iff.mp there).1⟩

namespace Course

/-- Nothing comes of a call until its procedure goes on. -/
theorem stays (course : Course before stages completions moment server query)
    (tracks : before.Tracks stages) (step : before.Step stages event after later)
    (bound : moment.place < before.procedures.length)
    (other : event.resumes moment.place = false) :
    Course after later (completions ++ Moment.completed ⟨before, event, after⟩ stages) moment server
      query := by
  obtain ⟨calls, yields⟩ := step.stands bound other
  have unfiled : completedAt moment.place
      (Moment.completed ⟨before, event, after⟩ stages) = [] := by
    refine completedAt_eq_nil fun completion member here => ?_
    rcases place_of_completed step member with ⟨new, _⟩ | ⟨resumed, _⟩
    · omega
    · rw [here, other] at resumed
      cases resumed
  have same : completedAt moment.place
      (completions ++ Moment.completed ⟨before, event, after⟩ stages) =
        completedAt moment.place completions := by
    rw [completedAt_append, unfiled, List.append_nil]
  cases course with
  | refused killed executor services silent filed told =>
    exact .refused killed executor services (calls.trans silent) (same.trans filed)
      fun yield there => told yield (yields yield there)
  | waits asks stands waits filed =>
    exact .waits asks (step.keeps tracks stands other) (calls.trans waits) (same.trans filed)
  | answered asks silent filed told =>
    exact .answered asks (calls.trans silent) (same.trans filed)
      fun yield there => told yield (yields yield there)

/-- A call is completed when its procedure goes on. -/
theorem goes (course : Course before stages completions moment server query)
    (step : before.Step stages (.resume moment.place) after later) :
    Course after later
      (completions ++ Moment.completed ⟨before, .resume moment.place, after⟩ stages) moment server
        query := by
  cases step with
  | stir stirs => cases stirs
  | @resume _ number stage answer halt host stands waits told part =>
    have call := call?_of_waiting waits
    cases course with
    | refused _ _ _ silent | answered _ silent => cases silent.symm.trans call
    | @waits inquiry asks here calls filed =>
      cases here.symm.trans stands
      obtain rfl := Option.some.inj (calls.symm.trans call)
      have bound := (List.getElem?_eq_some_iff.mp waits).1
      cases part with
      | answered =>
        have filed : completedAt moment.place (completions ++ Moment.completed
            ⟨before, .resume moment.place, before.resumed moment.place inquiry.number
              (before.host.noted server query answer)
              (.ended ⟨.ofReply query (Server.replyOf answer), none⟩)⟩ stages) =
            [⟨moment.place, server, query, some inquiry.number, Server.result query answer⟩] := by
          rw [completedAt_append, filed, Moment.completed_of_resume stands call told]
          simp [Stage.completions, completedAt]
        refine .answered asks (call?_resumed call ..) filed fun yield yields => ?_
        · have ended := halt_of_yield? (before.answered _) (List.getElem?_set_self bound) yields
          rw [← Server.replyOf_eq]
          exact (Halt.ended.inj ended).symm

/-- A call is refused at once, or its procedure waits. -/
theorem begins (entered : Entered moments before)
    (places : ∀ completion ∈ completions, completion.place < before.procedures.length)
    (done : before.after? (.launch (.call server query)) = some after)
    (step : before.Step stages (.launch (.call server query)) after later)
    (known : (before.host.server? server).isSome = true) :
    Course after later
      (completions ++ Moment.completed ⟨before, .launch (.call server query), after⟩ stages)
      ⟨before, .launch (.call server query), after⟩ server query := by
  have unfiled : completedAt before.procedures.length completions = [] :=
    completedAt_eq_nil fun completion member => Nat.ne_of_lt (places completion member)
  cases held : before.host.serviceOf server with
  | none =>
    obtain rfl := after?_call_of_killed done held
    obtain ⟨entry, found⟩ := Option.isSome_iff_exists.mp known
    have bound := (List.getElem?_eq_some_iff.mp found).1
    refine .refused held rfl ?_ (call?_launched before ..) ?_ fun yield told => ?_
    · rcases query with control | _ | _ <;> rfl
    · rw [Moment.place, completedAt_append, unfiled, Moment.completed]
      simp [Host.hasKilled_of_bound bound held, completedAt]
    · have ended := halt_of_yield? before (List.getElem?_concat_length ..) told
      exact (Halt.ended.inj ended).symm
  | some service =>
    cases step with
    | stir stirs => cases stirs
    | @launch _ halt host part =>
      cases part with
      | rejected _ _ enters | made _ _ _ _ enters => cases enters
      | refused _ _ killed | rests killed => cases held.symm.trans killed
      | @calls _ _ own alive =>
        cases held.symm.trans alive
        refine .waits ⟨held, entered.asked?_launched _ _ _, rfl, rfl⟩ (Stage.put_self ..)
          (call?_launched before ..) ?_
        rw [Moment.place, completedAt_append, unfiled, Moment.completed]
        simp [Host.hasKilled_of_held held, completedAt]

end Course

/-- What has become of all calls that were made through servers. -/
structure Coursed (moments : List Moment) (system : System Answer) (stages : Nat → Option Stage)
    (completions : List Completion) : Prop where
  places : ∀ completion ∈ completions, completion.place < system.procedures.length
  since : ∀ moment ∈ moments, moment.event.launches = true →
    moment.place < system.procedures.length
  courses : ∀ moment ∈ moments, ∀ server query, moment.Calls server query →
    Course system stages completions moment server query

namespace Coursed

theorem start (host : Host) (capacity : Nat) :
    Coursed [] (.start host capacity) (fun _ => none) [] where
  places _ member := by cases member
  since _ member := by cases member
  courses _ member := by cases member

theorem step (coursed : Coursed moments before stages completions)
    (entered : Entered moments before) (tracks : before.Tracks stages)
    (done : before.after? event = some after) (step : before.Step stages event after later) :
    Coursed (moments ++ [⟨before, event, after⟩]) after later
      (completions ++ Moment.completed ⟨before, event, after⟩ stages) where
  places completion member := by
    rcases List.mem_append.mp member with old | new
    · exact Nat.lt_of_lt_of_le (coursed.places completion old) step.length_le
    · rcases place_of_completed step new with ⟨_, bound⟩ | ⟨_, bound⟩
      · exact bound
      · exact Nat.lt_of_lt_of_le bound step.length_le
  since moment member launches := by
    rcases List.mem_append.mp member with old | new
    · exact Nat.lt_of_lt_of_le (coursed.since moment old launches) step.length_le
    · cases List.mem_singleton.mp new
      cases event with
      | launch => exact length_lt_of_launch step
      | _ => cases launches
  courses moment member server query calls := by
    rcases List.mem_append.mp member with old | new
    · have bound := coursed.since moment old (by rw [calls.launched]; rfl)
      have course := coursed.courses moment old server query calls
      cases resumed : event.resumes moment.place with
      | false => exact course.stays tracks step bound resumed
      | true =>
        cases event <;> simp [Event.resumes] at resumed
        subst resumed
        exact course.goes step
    · cases List.mem_singleton.mp new
      obtain ⟨launched, known⟩ := calls
      cases launched
      exact Course.begins entered coursed.places done step known

end Coursed

theorem Chronicle.coursed {host : Host} {capacity : Nat} (unused : host.Unused)
    (chronicle : Chronicle (.start host capacity) moments last stages completions) :
    Coursed moments last stages completions := by
  induction chronicle with
  | start => exact .start host capacity
  | next chronicle done step ih =>
    exact ih.step (chronicle.books unused).entered chronicle.tracks done step

/-! ## What callers are told and what is recorded -/

theorem Answer.grants_ofReply_iff {result : Except HostError Reply}
    (kind : ∀ reply, result = .ok reply → query.takes reply = true) :
    (Answer.ofReply query result.toOption).grants = true ↔ ∃ reply, result = .ok reply := by
  rw [Answer.grants_ofReply]
  cases result with
  | error cause => simp [Except.toOption]
  | ok reply => simp [Except.toOption, kind reply rfl]

theorem call?_of_yield? {yield : Yield Answer} (yields : last.yield? place = some yield) :
    last.call? place = none := by
  rw [call?, yielded_of_yield? yields]

/-- Whoever has been told of a call has been told what it came to. -/
theorem Course.result (course : Course last stages completions moment server query)
    {yield : Yield Answer} (yields : last.yield? moment.place = some yield) :
    ∃ call result,
      completedAt moment.place completions = [⟨moment.place, server, query, call, result⟩] ∧
        yield.value = .ofReply query result.toOption := by
  cases course with
  | refused _ _ _ _ filed told => exact ⟨_, _, filed, congrArg Yield.value (told yield yields)⟩
  | waits _ _ waits => cases (call?_of_yield? yields).symm.trans waits
  | answered _ _ filed told => exact ⟨_, _, filed, congrArg Yield.value (told yield yields)⟩

theorem mem_of_completedAt {completion : Completion}
    (filed : completedAt place completions = [completion]) : completion ∈ completions := by
  have member : completion ∈ completedAt place completions := filed ▸ List.mem_cons_self
  exact List.mem_of_mem_filter member

/-- A call that succeeds leaves no error. -/
theorem Course.silent (course : Course last stages completions moment server query)
    {yield : Yield Answer} (yields : last.yield? moment.place = some yield)
    (granted : yield.value.grants = true) :
    faults server (completedAt moment.place completions) = [] := by
  obtain ⟨call, result, filed, told⟩ := course.result yields
  rw [filed]
  cases result with
  | ok reply => rfl
  | error cause =>
    rw [told, Answer.grants_ofReply] at granted
    cases granted

/-- A call that fails leaves one error. -/
theorem Course.records (course : Course last stages completions moment server query)
    (entered : Entered moments last) (there : moment ∈ moments)
    (accounted : ∀ completion ∈ completions, Accounted moments completion)
    (kind : InKind moments) {yield : Yield Answer}
    (yields : last.yield? moment.place = some yield) (failed : yield.value.grants = false) :
    ∃ cause, faults server (completedAt moment.place completions) = [cause] ∧
      (moment.before.host.serviceOf server = none ∧ cause = .killed query.operation ∨
        ∃ inquiry, moment.Asks server query inquiry ∧
          Verdict moments inquiry (.error cause)) := by
  cases course with
  | refused killed _ _ _ filed told =>
    rw [told yield yields] at failed
    refine ⟨.killed query.operation, ?_, .inl ⟨killed, rfl⟩⟩
    rw [filed]
    rcases query with control | _ | _
    · simp [faults, Completion.fault?, Server.refusal]
    · cases failed
    · simp [faults, Completion.fault?, Server.refusal]
  | waits _ _ waits => cases (call?_of_yield? yields).symm.trans waits
  | @answered inquiry result asks _ filed told =>
    have own := accounted _ (mem_of_completedAt filed)
    obtain ⟨_, verdict⟩ := own.verdict entered
      (List.mem_filterMap.mpr ⟨moment, there, asks.asked⟩) rfl
    cases result with
    | ok reply =>
      rw [told yield yields, Answer.grants_ofReply] at failed
      simp [Except.toOption, own.takes kind rfl] at failed
    | error cause =>
      refine ⟨cause, ?_, .inr ⟨inquiry, asks, verdict⟩⟩
      simp [filed, faults, Completion.fault?]

theorem Course.told (course : Course last stages completions moment server query)
    (accounts : Accounts moments last) (there : moment ∈ moments)
    (accounted : ∀ completion ∈ completions, Accounted moments completion)
    (timely : Timely moments) (kind : InKind moments) {yield : Yield Answer}
    (yields : last.yield? moment.place = some yield) :
    yield.value.grants = true ↔
      moment.before.host.serviceOf server = none ∧ query = .state ∨
        ∃ inquiry reply, moment.Asks server query inquiry ∧ Succeeds moments inquiry reply := by
  cases course with
  | refused killed _ _ _ _ told =>
    have unasked : ¬∃ inquiry reply, moment.Asks server query inquiry ∧
        Succeeds moments inquiry reply := by
      rintro ⟨inquiry, _, asks, _⟩
      cases killed.symm.trans asks.held
    rw [told yield yields, or_iff_left unasked, Answer.grants_ofReply]
    rcases query with control | _ | _ <;>
      simp [killed, Server.refusal, Except.toOption, Query.takes]
  | waits _ _ waits => cases (call?_of_yield? yields).symm.trans waits
  | @answered inquiry result asks _ filed told =>
    have own := accounted _ (mem_of_completedAt filed)
    obtain ⟨_, verdict⟩ := own.verdict accounts.entered
      (List.mem_filterMap.mpr ⟨moment, there, asks.asked⟩) rfl
    rw [told yield yields, Answer.grants_ofReply_iff fun reply well => own.takes kind well]
    constructor
    · rintro ⟨reply, well⟩
      exact .inr ⟨inquiry, reply, asks, (verdict.eq_ok_iff accounts.worked timely reply).mp well⟩
    · rintro (⟨killed, _⟩ | ⟨other, reply, made, well⟩)
      · cases asks.held.symm.trans killed
      · cases asks.asked.symm.trans made.asked
        exact ⟨reply, (verdict.eq_ok_iff accounts.worked timely reply).mpr well⟩

/-- The end of what a service does in the background leaves the errors alone. -/
theorem Chronicle.lastError_of_serve {host : Host} {capacity : Nat} (unused : host.Unused)
    (chronicle : Chronicle (.start host capacity) moments last stages completions)
    (there : moment ∈ moments) (serves : moment.event = .serve place) (server : ServerId) :
    moment.after.host.lastError server = moment.before.host.lastError server := by
  induction chronicle with
  | start => cases there
  | next chronicle done step ih =>
    rcases List.mem_append.mp there with old | new
    · exact ih old
    · cases List.mem_singleton.mp new
      cases serves
      exact step.lastError done (chronicle.manned unused) server

/-- The whole account of the calls through servers. -/
structure FullAccount (moments : List Moment) (system : System Answer)
    (stages : Nat → Option Stage) (completions : List Completion) : Prop where
  /-- A call is refused, waits or is answered. -/
  courses : ∀ moment ∈ moments, ∀ server query, moment.Calls server query →
    Course system stages completions moment server query
  /-- What was given up at its deadline is not completed again when it ends. -/
  once : (completions.filterMap Completion.call).Nodup
  accounted : ∀ completion ∈ completions, Accounted moments completion
  /-- A caller is told of a success if and only if the service's own call has returned well in time,
  or the state of a killed server was asked for. -/
  told : Timely moments → InKind moments → ∀ moment ∈ moments, ∀ server query yield,
    moment.Calls server query → system.yield? moment.place = some yield →
      (yield.value.grants = true ↔
        moment.before.host.serviceOf server = none ∧ query = .state ∨
          ∃ inquiry reply, moment.Asks server query inquiry ∧ Succeeds moments inquiry reply)
  /-- A call that succeeds records nothing. -/
  silent : ∀ moment ∈ moments, ∀ server query yield,
    moment.Calls server query → system.yield? moment.place = some yield →
      yield.value.grants = true → faults server (completedAt moment.place completions) = []
  /-- Any other call records one error: that the server was killed when the call was made, or what
  became of the service's own call. -/
  records : InKind moments → ∀ moment ∈ moments, ∀ server query yield,
    moment.Calls server query → system.yield? moment.place = some yield →
      yield.value.grants = false →
        ∃ cause, faults server (completedAt moment.place completions) = [cause] ∧
          (moment.before.host.serviceOf server = none ∧ cause = .killed query.operation ∨
            ∃ inquiry, moment.Asks server query inquiry ∧ Verdict moments inquiry (.error cause))
  /-- The last error is that of the failed call that was completed last. -/
  lastError : ∀ server, system.host.lastError server = (faults server completions).getLast?
  /-- The end of what a service does in the background records nothing. -/
  ends : ∀ moment ∈ moments, ∀ place server, moment.event = .serve place →
    moment.after.host.lastError server = moment.before.host.lastError server
  /-- Nobody waits beyond a deadline. -/
  prompt : Timely moments → ∀ place number, system.call? place = some number →
    ∃ inquiry ∈ asked moments, inquiry.number = number ∧ system.now ≤ inquiry.deadline
  /-- Nobody waits for ever. -/
  returns : ∃ more after, History system more after ∧ Timely more ∧
    (∀ moment ∈ more, ∀ operation, moment.event ≠ .launch operation) ∧
    ∀ place, after.call? place = none

/-- Whatever the services do and in whatever order it happens: callers are told of success exactly
if the service's own calls succeed in time, every failure is recorded once under its cause, and the
last error of a server is that of the failed call that was completed last. -/
theorem calls_accounted {host : Host} {capacity : Nat} (unused : host.Unused)
    (history : History (.start host capacity) moments last) :
    (∃ stages completions, Chronicle (.start host capacity) moments last stages completions) ∧
      ∀ stages completions, Chronicle (.start host capacity) moments last stages completions →
        FullAccount moments last stages completions := by
  refine ⟨history.exists_chronicle, fun stages completions chronicle => ?_⟩
  have books := chronicle.books unused
  have reckoned := chronicle.reckoned unused
  have coursed := chronicle.coursed unused
  have attended := history.attended unused
  have accounted : ∀ completion ∈ completions, Accounted moments completion :=
    fun completion member => (reckoned.settled completion member).accounted books.entered attended
  exact {
    courses := coursed.courses
    once := attended.once.sublist reckoned.once
    accounted
    told := fun timely kind moment there server query yield calls yields =>
      (coursed.courses moment there server query calls).told books.toAccounts there accounted timely
        kind yields
    silent := fun moment there server query yield calls yields =>
      (coursed.courses moment there server query calls).silent yields
    records := fun kind moment there server query yield calls yields =>
      (coursed.courses moment there server query calls).records books.entered there accounted kind
        yields
    lastError := reckoned.lastError
    ends := fun moment there place server serves =>
      chronicle.lastError_of_serve unused there serves server
    prompt := fun timely place number waits => by
      have owed := (books.posted.owed number).mpr ⟨place, waits⟩
      have bound := owed.lt_issued books.entered.orderly.numbered
      have stands : number ∈ (asked moments).map Inquiry.number := by
        rw [books.entered.numbers]
        exact List.mem_range.mpr bound
      obtain ⟨inquiry, member, rfl⟩ := List.mem_map.mp stands
      exact ⟨inquiry, member, rfl, books.early timely inquiry member owed⟩
    returns := books.returns }

/-- A service that refuses to pause and takes twenty seconds to stop. -/
def moody : Blueprint :=
  ⟨"moody", .scripted (fun query =>
    match query with
    | .instanceId => ⟨[], ⟨0, some (.value (.name "Moody:1"))⟩⟩
    | .state => ⟨[], ⟨0, some (.value .tell)⟩⟩
    | .control .stop => ⟨[], ⟨20000, some (.value (.become .stopped))⟩⟩
    | .control .pause => ⟨[], ⟨0, some (.value (.refuse (.lifecycle .alreadyRunning)))⟩⟩
    | .control control => ⟨[], ⟨0, some (.value (.become control.goal))⟩⟩) .stopped⟩

/-- While the stop goes on, a pause is refused. The stop is given up at its deadline, a start
succeeds, and the stop ends in the background. Then the server is killed and asked for its state. -/
def vexing : List Event :=
  [.launch (.load moody), .serve 0, .serve 0, .resume 0,
    .launch (.call 0 (.control .stop)), .serve 0,
    .launch (.call 0 (.control .pause)), .serve 1, .serve 1, .resume 2,
    .wait 15000, .expire, .resume 1,
    .launch (.call 0 (.control .start)), .serve 1, .serve 1, .resume 3,
    .wait 20000, .serve 0, .launch (.killServer 0), .launch (.call 0 .state)]

/-- Whether a procedure that calls through the first server from some moment on has yielded what
passes a check. -/
def tells (last : System Answer) (check : Answer → Bool) (moment : Moment) : Bool :=
  (moment.before.host.server? 0).isSome &&
    (last.yield? moment.place).any fun yield => check yield.value

theorem exists_call {events : List Event} (same : moments.map Moment.event = events)
    {check : Answer → Bool} {index : Nat} (here : (moments[index]?).any (tells last check) = true)
    (launches : events[index]? = some (.launch (.call 0 query))) :
    ∃ moment ∈ moments, ∃ yield, moment.Calls 0 query ∧ last.yield? moment.place = some yield ∧
      check yield.value = true := by
  obtain ⟨moment, there, tells⟩ := (Option.any_eq_true _ _).mp here
  obtain ⟨known, yields⟩ := Bool.and_eq_true_iff.mp tells
  obtain ⟨yield, yields, passes⟩ := (Option.any_eq_true _ _).mp yields
  refine ⟨moment, List.mem_of_getElem? there, yield, ⟨?_, known⟩, yields, passes⟩
  rw [← same, List.getElem?_map, there] at launches
  exact Option.some.inj launches

theorem calls_accounted_vexing :
    ∃ moments last stages completions, History bare moments last ∧ Timely moments ∧
      InKind moments ∧ Chronicle bare moments last stages completions ∧
      (faults 0 completions).getLast? = some (.timeout "stop" (.ofMillis callDeadline)) ∧
      (∃ moment ∈ moments, moment.Calls 0 (.control .start) ∧
        ∃ inquiry reply, moment.Asks 0 (.control .start) inquiry ∧ Succeeds moments inquiry reply) ∧
      (∃ moment ∈ moments, moment.Calls 0 (.control .pause) ∧
        (faults 0 (completedAt moment.place completions)).length = 1) ∧
      ∃ moment ∈ moments, moment.Calls 0 .state ∧
        faults 0 (completedAt moment.place completions) = [] := by
  obtain ⟨⟨moments, last⟩, charts, seen⟩ := Option.map_eq_some_iff.mp
    (by decide +kernel : (bare.chart? vexing).map (fun chart =>
      chart.1.all (fun moment => moment.before.keepsTime moment.event) &&
      decide (InKind chart.1) &&
      chart.2.host.lastError 0 == some (.timeout "stop" (.ofMillis callDeadline)) &&
      (chart.1[6]?).any (tells chart.2 fun answer => !answer.grants) &&
      (chart.1[13]?).any (tells chart.2 Answer.grants) &&
      (chart.1[20]?).any (tells chart.2 Answer.grants)) = some true)
  simp only [Bool.and_eq_true, List.all_eq_true, decide_eq_true_eq, beq_iff_eq] at seen
  obtain ⟨⟨⟨⟨⟨timely, kind⟩, recorded⟩, pauses⟩, starts⟩, asks⟩ := seen
  obtain ⟨history, same⟩ := History.of_chart? charts
  obtain ⟨⟨stages, completions, chronicle⟩, all⟩ := calls_accounted Host.unused_bare history
  have account := all stages completions chronicle
  refine ⟨moments, last, stages, completions, history, timely, kind, chronicle,
    (account.lastError 0).symm.trans recorded, ?starts, ?pauses, ?asks⟩
  case starts =>
    obtain ⟨moment, there, yield, calls, yields, granted⟩ := exists_call same starts rfl
    rcases (account.told timely kind moment there 0 _ yield calls yields).mp granted with
      ⟨_, other⟩ | succeeds
    · cases other
    · exact ⟨moment, there, calls, succeeds⟩
  case pauses =>
    obtain ⟨moment, there, yield, calls, yields, denied⟩ := exists_call same pauses rfl
    obtain ⟨cause, left, _⟩ := account.records kind moment there 0 _ yield calls yields
      (by simpa using denied)
    exact ⟨moment, there, calls, by rw [left]; rfl⟩
  case asks =>
    obtain ⟨moment, there, yield, calls, yields, granted⟩ := exists_call same asks rfl
    exact ⟨moment, there, calls, account.silent moment there 0 _ yield calls yields granted⟩

end ServiceHost.System
