import ServiceHost.Proofs.Host.Dialogue
import ServiceHost.Proofs.Host.LastError

/-! The calls through servers, in the order in which they are completed.

The last error of a server is that of the failed call that was completed last.
-/

set_option autoImplicit false

namespace ServiceHost

/-! ## The servers that calls go through -/

theorem Sweep.reaches {result : Answer} {ids : List String} {host after : Host}
    {service : ServiceId} {stage : Stage} {server : ServerId}
    (sweep : Sweep result ids host (.waits service stage) after)
    (through : stage.server? = some server) : after.serviceOf server = some service := by
  obtain ⟨id, own, rest, rfl, lists⟩ := sweep.waits_for
  cases through
  exact lists.held

theorem Operation.Section.reaches {operation : Operation} {host after : Host}
    {service : ServiceId} {stage : Stage} {server : ServerId}
    (part : operation.Section host (.waits service stage) after)
    (through : stage.server? = some server) : after.serviceOf server = some service := by
  cases part with
  | made => cases through
  | removes _ sweep | shuts sweep => exact sweep.reaches through
  | calls alive =>
    cases through
    exact alive

theorem Stage.Section.reaches {stage waiting : Stage} {answer : CallAnswer} {host after : Host}
    {service : ServiceId} {server : ServerId}
    (part : stage.Section host answer (.waits service waiting) after)
    (through : waiting.server? = some server) : after.serviceOf server = some service := by
  cases part with
  | starts =>
    cases through
    rw [Host.serviceOf_configure, Host.serviceOf_enter, Host.serviceOf_addServer, if_pos rfl]
    rfl
  | judged _ sweep | outrun _ _ sweep | stopped sweep => exact sweep.reaches through
  | stops _ alive =>
    cases through
    rwa [Host.serviceOf_noted]

namespace System

variable {before after last first : System Answer} {stages later : Nat → Option Stage}
  {event : Event} {moments : List Moment} {moment : Moment} {place number : Nat}
  {server : ServerId} {query : Query}

/-- A call with a number was made through a server, of the service that it was around then. -/
def Made (moments : List Moment) (number : Nat) (server : ServerId) (query : Query) : Prop :=
  ∃ moment ∈ moments, ∃ inquiry, moment.asked? = some inquiry ∧ inquiry.number = number ∧
    inquiry.query = query ∧ moment.after.host.serviceOf server = some inquiry.service

theorem Made.append (made : Made moments number server query) (moment : Moment) :
    Made (moments ++ [moment]) number server query := by
  obtain ⟨earlier, member, rest⟩ := made
  exact ⟨earlier, List.mem_append_left _ member, rest⟩

/-- Every procedure that waits has made the call of its stage, through the server of its stage. -/
structure Manned (moments : List Moment) (system : System Answer) (stages : Nat → Option Stage) :
    Prop where
  bound : ∀ place stage server, stages place = some stage → stage.server? = some server →
    server < system.host.servers.length
  made : ∀ place stage number server, stages place = some stage →
    system.call? place = some number → stage.server? = some server →
    Made moments number server stage.query

namespace Manned

theorem start (host : Host) (capacity : Nat) :
    Manned [] (.start host capacity) fun _ => none where
  bound _ _ _ stands := by cases stands
  made _ _ _ _ stands := by cases stands

theorem put (manned : Manned moments before stages) {halt : Halt}
    (asked : (⟨before, event, after⟩ : Moment).asked? =
      halt.inquiry? before.now before.executor.issued)
    (here : after.call? place = halt.stage?.map fun _ => before.executor.issued)
    (others : ∀ other, other ≠ place → after.call? other = before.call? other)
    (grows : before.host.servers.length ≤ after.host.servers.length)
    (reaches : ∀ service stage server, halt = .waits service stage →
      stage.server? = some server → after.host.serviceOf server = some service) :
    Manned (moments ++ [⟨before, event, after⟩]) after (Stage.put stages place halt.stage?) where
  bound other stage server stands through := by
    by_cases same : other = place
    · subst same
      rw [Stage.put_self] at stands
      cases halt with
      | ended => cases stands
      | waits service own =>
        cases stands
        exact Host.lt_of_serviceOf (reaches service stage server rfl through)
    · rw [Stage.put_of_ne same] at stands
      exact Nat.lt_of_lt_of_le (manned.bound other stage server stands through) grows
  made other stage number server stands waits through := by
    by_cases same : other = place
    · subst same
      rw [Stage.put_self] at stands
      cases halt with
      | ended => cases stands
      | waits service own =>
        cases stands
        cases here.symm.trans waits
        exact ⟨_, List.mem_append_right _ List.mem_cons_self, _, asked, rfl, rfl,
          reaches service stage server rfl through⟩
    · rw [Stage.put_of_ne same] at stands
      rw [others other same] at waits
      exact (manned.made other stage number server stands waits through).append _

theorem idles (manned : Manned moments before stages)
    (calls : ∀ place, after.call? place = before.call? place)
    (grows : before.host.servers.length ≤ after.host.servers.length) :
    Manned (moments ++ [⟨before, event, after⟩]) after stages where
  bound place stage server stands through :=
    Nat.lt_of_lt_of_le (manned.bound place stage server stands through) grows
  made place stage number server stands waits through := by
    rw [calls] at waits
    exact (manned.made place stage number server stands waits through).append _

theorem step (manned : Manned moments before stages) (entered : Entered moments before)
    (step : before.Step stages event after later) :
    Manned (moments ++ [⟨before, event, after⟩]) after later := by
  have grows := step.keepsIds.length_le
  cases step with
  | @launch operation halt host part =>
    refine manned.put (entered.asked?_launched operation host halt)
      (call?_of_progression before (List.getElem?_concat_length ..))
      (fun other apart => call?_of_append apart rfl) grows ?_
    rintro service own server rfl through
    simpa using part.reaches through
  | @resume place number stage answer halt host stands waits told part =>
    have bound := (List.getElem?_eq_some_iff.mp waits).1
    refine manned.put (entered.asked?_resumed place number host halt)
      (call?_of_progression (before.answered number) (List.getElem?_set_self bound))
      (fun other apart => call?_of_set apart rfl) grows ?_
    rintro service own server rfl through
    simpa using part.reaches through
  | serve | stir | expire | drop | wait => exact manned.idles (fun _ => rfl) grows
  | take yielded => exact manned.idles (call?_take yielded) grows

end Manned

/-! ## The log of what is completed -/

variable {completions : List Completion}

/-- The calls that are completed in a moment. -/
def Moment.completed (moment : Moment) (stages : Nat → Option Stage) : List Completion :=
  match moment.event with
  | .launch (.call server query) =>
    if moment.before.host.hasKilled server then
      [⟨moment.before.procedures.length, server, query, none, Server.refusal query⟩]
    else []
  | .resume place =>
    match stages place, moment.heard? with
    | some stage, some told => stage.completions moment.before.host place told.number told.answer
    | _, _ => []
  | _ => []

/-- The calls that were completed in a history, in their order. -/
inductive Chronicle (first : System Answer) :
    List Moment → System Answer → (Nat → Option Stage) → List Completion → Prop where
  | start : Chronicle first [] first (fun _ => none) []
  | next {moments : List Moment} {event : Event} {system after : System Answer}
      {stages later : Nat → Option Stage} {completions : List Completion} :
      Chronicle first moments system stages completions → system.after? event = some after →
      system.Step stages event after later →
      Chronicle first (moments ++ [⟨system, event, after⟩]) after later
        (completions ++ Moment.completed ⟨system, event, after⟩ stages)

theorem Chronicle.history (chronicle : Chronicle first moments last stages completions) :
    History first moments last := by
  induction chronicle with
  | start => exact .start
  | next _ done _ ih => exact ih.next done

theorem Chronicle.tracks {host : Host} {capacity : Nat}
    (chronicle : Chronicle (.start host capacity) moments last stages completions) :
    last.Tracks stages := by
  induction chronicle with
  | start => exact .start host capacity
  | next _ _ step ih => exact ih.step step

theorem History.exists_chronicle {host : Host} {capacity : Nat}
    (history : History (.start host capacity) moments last) :
    ∃ stages completions, Chronicle (.start host capacity) moments last stages completions := by
  induction history with
  | start => exact ⟨_, _, .start⟩
  | next _ done ih =>
    obtain ⟨stages, completions, chronicle⟩ := ih
    obtain ⟨later, step⟩ := chronicle.tracks.exists_step done
    exact ⟨later, _, chronicle.next done step⟩

theorem Moment.completed_of_stirs (stirs : event.stirs = true) :
    Moment.completed ⟨before, event, after⟩ stages = [] := by
  cases event with
  | go | reap | record => rfl
  | _ => cases stirs

theorem Moment.completed_of_resume {stage : Stage} {answer : CallAnswer}
    (stands : stages place = some stage) (waits : before.call? place = some number)
    (told : before.executor.answer? number = some answer) :
    Moment.completed ⟨before, .resume place, after⟩ stages =
      stage.completions before.host place number answer := by
  simp only [completed, stands, Moment.heard?_of_resume waits told]

/-- A call through a killed server is completed at once, and any other one when its procedure hears
of it. -/
theorem Step.completed_cases (step : before.Step stages event after later) :
    Moment.completed ⟨before, event, after⟩ stages = [] ∨
      (∃ server query, event = .launch (.call server query) ∧
        before.host.hasKilled server = true ∧ Moment.completed ⟨before, event, after⟩ stages =
          [⟨before.procedures.length, server, query, none, Server.refusal query⟩]) ∨
      ∃ place number stage answer, event = .resume place ∧ stages place = some stage ∧
        before.call? place = some number ∧ before.executor.answer? number = some answer ∧
        Moment.completed ⟨before, event, after⟩ stages =
          stage.completions before.host place number answer := by
  cases step with
  | @launch operation =>
    cases operation with
    | call server query =>
      simp only [Moment.completed]
      split
      · exact .inr (.inl ⟨server, query, rfl, ‹_›, rfl⟩)
      · exact .inl rfl
    | _ => exact .inl rfl
  | @resume place number stage answer _ _ stands waits told =>
    have call := call?_of_waiting waits
    exact .inr (.inr ⟨place, number, stage, answer, rfl, stands, call, told,
      Moment.completed_of_resume stands call told⟩)
  | serve | expire | drop | wait | take => exact .inl rfl
  | stir stirs => exact .inl (Moment.completed_of_stirs stirs)

/-- A call through a killed server leaves the services and the calls of all others alone. -/
theorem after?_call_of_killed (done : before.after? (.launch (.call server query)) = some after)
    (killed : before.host.serviceOf server = none) :
    after = before.launched (before.host.refused server query)
      (.ended ⟨.ofReply query (Server.refusal query).toOption, none⟩) :=
  Option.some.inj (done.symm.trans (after?_launch (Operation.run_call_of_killed query killed)))

/-- Only calls that fail leave errors with their servers, and only when they are completed. -/
theorem Step.lastError (step : before.Step stages event after later)
    (done : before.after? event = some after) (manned : Manned moments before stages)
    (other : ServerId) : after.host.lastError other =
      (faults other (Moment.completed ⟨before, event, after⟩ stages)).getLast?.or
        (before.host.lastError other) := by
  cases step with
  | @launch operation halt host part =>
    by_cases refused : ∃ server query, operation = .call server query ∧
      before.host.serviceOf server = none
    · obtain ⟨server, query, rfl, killed⟩ := refused
      rw [after?_call_of_killed done killed, launched]
      exact (congrArg (fun host => Host.lastError host other) (host_arrived ..)).trans
        (Host.lastError_refused killed before.procedures.length query other)
    · have reaches : ∀ server query, operation = .call server query →
          (before.host.serviceOf server).isSome = true := by
        rintro server query rfl
        refine Option.isSome_iff_ne_none.mpr fun killed => refused ⟨server, query, rfl, killed⟩
      have none_done : Moment.completed ⟨before, .launch operation, before.launched host halt⟩
          stages = [] := by
        cases operation with
        | call server query =>
          obtain ⟨service, held⟩ := Option.isSome_iff_exists.mp (reaches server query rfl)
          simp [Moment.completed, Host.hasKilled_of_held held]
        | _ => rfl
      calc (before.launched host halt).host.lastError other
          = host.lastError other := by rw [launched, host_arrived]
        _ = before.host.lastError other := part.lastError other reaches
        _ = (faults other (Moment.completed
              ⟨before, .launch operation, before.launched host halt⟩ stages)).getLast?.or
                (before.host.lastError other) := by
          rw [none_done]
          rfl
  | @resume place number stage answer halt host stands waits told part =>
    rw [Moment.completed_of_resume stands (call?_of_waiting waits) told, host_arrived]
    exact part.lastError (fun server => manned.bound place stage server stands) place number other
  | serve | expire | drop | wait | take => rfl
  | stir stirs =>
    rw [Moment.completed_of_stirs stirs]
    rfl

end System

/-! ## The books of what was completed -/

theorem Stage.mem_completions {stage : Stage} {host : Host} {place number : Nat}
    {answer : CallAnswer} {completion : Completion}
    (member : completion ∈ stage.completions host place number answer) :
    completion.place = place ∧ stage.server? = some completion.server ∧
      (completion.call = some number ∧ completion.query = stage.query ∧
          completion.result = Server.result completion.query answer ∨
        completion.call = none ∧ completion.result = Server.refusal completion.query ∧
          host.isKilled completion.server = true) := by
  cases stage with
  | wrapping => cases member
  | starting | stopping | calling =>
    cases List.mem_singleton.mp member
    exact ⟨rfl, rfl, .inl ⟨rfl, rfl, rfl⟩⟩
  | judging =>
    rcases List.mem_cons.mp member with rfl | refused
    · exact ⟨rfl, rfl, .inl ⟨rfl, rfl, rfl⟩⟩
    · split at refused
      · cases refused
      · rename_i awake
        cases List.mem_singleton.mp refused
        simp only [Bool.or_eq_true, not_or, Bool.not_eq_true', Bool.not_eq_false] at awake
        exact ⟨rfl, rfl, .inr ⟨rfl, rfl, awake.2⟩⟩

theorem Stage.calls_completions (stage : Stage) (host : Host) (place number : Nat)
    (answer : CallAnswer) :
    ((stage.completions host place number answer).filterMap Completion.call).Sublist [number] := by
  cases stage with
  | wrapping => exact List.nil_sublist _
  | starting | stopping | calling => exact .refl _
  | judging =>
    simp only [completions]
    split <;> exact .refl _

namespace System

variable {before after last first : System Answer} {stages later : Nat → Option Stage}
  {event : Event} {moments : List Moment} {completions : List Completion} {place number : Nat}
  {server : ServerId} {query : Query} {completion : Completion}

/-- A call through a killed server is refused, and any other one comes to what was heard of it. -/
inductive Settled (moments : List Moment) (completion : Completion) : Prop where
  | refused :
      completion.call = none → completion.result = Server.refusal completion.query →
      (∃ moment ∈ moments, moment.before.host.hasKilled completion.server = true) →
      Settled moments completion
  | heard {told : Heard} :
      told ∈ System.heard moments → completion.call = some told.number →
      Made moments told.number completion.server completion.query →
      completion.result = Server.result completion.query told.answer → Settled moments completion

theorem Settled.append (settled : Settled moments completion) (moment : Moment) :
    Settled (moments ++ [moment]) completion := by
  cases settled with
  | refused none same killed =>
    obtain ⟨earlier, member, gone⟩ := killed
    exact .refused none same ⟨earlier, List.mem_append_left _ member, gone⟩
  | heard told call made result =>
    refine .heard ?_ call (made.append moment) result
    rw [heard_append]
    exact List.mem_append_left _ told

/-- What is completed in a moment is settled then. -/
theorem settled_of_completed (step : before.Step stages event after later)
    (manned : Manned moments before stages)
    (member : completion ∈ Moment.completed ⟨before, event, after⟩ stages) :
    Settled (moments ++ [⟨before, event, after⟩]) completion := by
  have last : (⟨before, event, after⟩ : Moment) ∈ moments ++ [⟨before, event, after⟩] :=
    List.mem_append_right _ List.mem_cons_self
  rcases step.completed_cases with none | ⟨server, query, rfl, killed, done⟩ |
    ⟨place, number, stage, answer, rfl, stands, waits, told, done⟩
  · rw [none] at member
    cases member
  · rw [done] at member
    cases List.mem_singleton.mp member
    exact .refused rfl rfl ⟨_, last, killed⟩
  · rw [done] at member
    obtain ⟨_, through, ⟨own, asks, result⟩ | ⟨none, result, killed⟩⟩ :=
      Stage.mem_completions member
    · have hears : (⟨before.now, number, answer⟩ : Heard) ∈
          heard (moments ++ [⟨before, .resume place, after⟩]) := by
        rw [heard_append, Moment.heard?_of_resume waits told]
        exact List.mem_append_right _ List.mem_cons_self
      refine .heard hears own ?_ result
      rw [asks]
      exact (manned.made place stage number _ stands waits through).append _
    · refine .refused none result ⟨_, last, Host.hasKilled_of_bound ?_ ?_⟩
      · exact manned.bound place stage _ stands through
      · exact Option.isNone_iff_eq_none.mp killed

theorem calls_completed (step : before.Step stages event after later) :
    ((Moment.completed ⟨before, event, after⟩ stages).filterMap Completion.call).Sublist
      ((⟨before, event, after⟩ : Moment).heard?.toList.map Heard.number) := by
  rcases step.completed_cases with none | ⟨server, query, rfl, _, done⟩ |
    ⟨place, number, stage, answer, rfl, _, waits, told, done⟩
  · rw [none]
    exact List.nil_sublist _
  · rw [done]
    exact List.nil_sublist _
  · rw [done, Moment.heard?_of_resume waits told]
    exact stage.calls_completions ..

/-- What the completed calls have left with their servers, and where they come from. -/
structure Reckoned (moments : List Moment) (system : System Answer)
    (completions : List Completion) : Prop where
  lastError : ∀ server, system.host.lastError server = (faults server completions).getLast?
  settled : ∀ completion ∈ completions, Settled moments completion
  once : (completions.filterMap Completion.call).Sublist ((heard moments).map Heard.number)

theorem Reckoned.start {host : Host} (unused : host.Unused) (capacity : Nat) :
    Reckoned [] (.start host capacity) [] where
  lastError server := by
    change (host.servers[server]?).bind _ = _
    rw [unused.servers]
    rfl
  settled _ member := by cases member
  once := .refl _

theorem Reckoned.step (reckoned : Reckoned moments before completions)
    (manned : Manned moments before stages) (done : before.after? event = some after)
    (step : before.Step stages event after later) :
    Reckoned (moments ++ [⟨before, event, after⟩]) after
      (completions ++ Moment.completed ⟨before, event, after⟩ stages) where
  lastError server := by
    rw [step.lastError done manned, reckoned.lastError, faults_append, List.getLast?_append]
  settled completion member := by
    rcases List.mem_append.mp member with old | new
    · exact (reckoned.settled completion old).append _
    · exact settled_of_completed step manned new
  once := by
    rw [List.filterMap_append, heard_append, List.map_append]
    exact reckoned.once.append (calls_completed step)

section Chronicle

variable {host : Host} {capacity : Nat}

theorem Chronicle.books (unused : host.Unused)
    (chronicle : Chronicle (.start host capacity) moments last stages completions) :
    Books moments last stages := by
  induction chronicle with
  | start => exact .start unused capacity
  | next _ _ step ih => exact ih.step step

theorem Chronicle.manned (unused : host.Unused)
    (chronicle : Chronicle (.start host capacity) moments last stages completions) :
    Manned moments last stages := by
  induction chronicle with
  | start => exact .start host capacity
  | next chronicle _ step ih => exact ih.step (chronicle.books unused).entered step

theorem Chronicle.reckoned (unused : host.Unused)
    (chronicle : Chronicle (.start host capacity) moments last stages completions) :
    Reckoned moments last completions := by
  induction chronicle with
  | start => exact .start unused capacity
  | next chronicle done step ih => exact ih.step (chronicle.manned unused) done step

end Chronicle

end System
end ServiceHost
