import ServiceHost.Proofs.Host.Course
import ServiceHost.Proofs.Host.Grace
import ServiceHost.Proofs.Host.Shadow

/-! What a server adds to its service: nothing, as long as permits come early enough.

A call through the server comes to what the same call comes to that is made directly, at the instant
at which the one through the server gets its permit. The deadline of the call is longer than the
grace of a stop, so that it is the service that gives up a stop, and never the server.
-/

set_option autoImplicit false

namespace ServiceHost.System

variable {before after last middle origin : System Answer} {stages later : Nat → Option Stage}
  {event : Event} {moments past more : List Moment} {moment : Moment}
  {completions : List Completion} {id : ServiceId} {server : ServerId} {query : Query}
  {first alone : Alone} {made : List (Nat × Query)} {start inquiry : Inquiry}
  {value : Except ServiceError Reply}

/-! ## A server that was never killed -/

/-- A server that has a service had it before, if it was there. -/
theorem Step.had (step : before.Step stages event after later)
    (there : server < before.host.servers.length) (held : after.host.serviceOf server = some id) :
    before.host.serviceOf server = some id := by
  obtain ⟨place, origin⟩ := step.origin
  cases origin id (.server server) held with
  | kept earlier => exact earlier
  | passed => exact absurd there (Nat.lt_irrefl _)

/-- Servers stay, and a server that has a service has had it ever since. -/
structure Retains (moments : List Moment) (system : System Answer) : Prop where
  grows : ∀ moment ∈ moments,
    moment.before.host.servers.length ≤ system.host.servers.length ∧
      moment.after.host.servers.length ≤ system.host.servers.length
  held : ∀ server id, system.host.serviceOf server = some id → ∀ moment ∈ moments,
    (server < moment.before.host.servers.length →
        moment.before.host.serviceOf server = some id) ∧
      (server < moment.after.host.servers.length → moment.after.host.serviceOf server = some id)

theorem Retains.step (retains : Retains moments before)
    (step : before.Step stages event after later) :
    Retains (moments ++ [⟨before, event, after⟩]) after where
  grows moment member := by
    have grows := step.keepsIds.length_le
    rcases List.mem_append.mp member with old | new
    · obtain ⟨earlier, sooner⟩ := retains.grows moment old
      exact ⟨Nat.le_trans earlier grows, Nat.le_trans sooner grows⟩
    · cases List.mem_singleton.mp new
      exact ⟨grows, Nat.le_refl _⟩
  held server id held moment member := by
    rcases List.mem_append.mp member with old | new
    · obtain ⟨earlier, sooner⟩ := retains.grows moment old
      have same : ∀ {count : Nat}, count ≤ before.host.servers.length → server < count →
          before.host.serviceOf server = some id := fun fewer there =>
        step.had (Nat.lt_of_lt_of_le there fewer) held
      exact ⟨fun there => (retains.held server id (same earlier there) moment old).1 there,
        fun there => (retains.held server id (same sooner there) moment old).2 there⟩
    · cases List.mem_singleton.mp new
      exact ⟨fun there => step.had there held, fun _ => held⟩

theorem History.retains {host : Host} {capacity : Nat} (unused : host.Unused)
    (history : History (.start host capacity) moments last) : Retains moments last := by
  obtain ⟨_, _, retains⟩ := (Books.start unused capacity).onward history
    (fun done system _ => Retains done system)
    ⟨fun _ member => (by cases member), fun _ _ _ _ member => (by cases member)⟩
    fun _ _ _ step retains => retains.step step
  exact retains

/-! ## Calls through a server and direct calls -/

/-- What a call of a service has come to is what the direct call has come to that was made with the
same query, at the instant at which the call got its permit. -/
inductive Matches (id : ServiceId) (moments : List Moment) (made : List (Nat × Query))
    (alone : Alone) (number : Nat) (query : Query) (value : Except ServiceError Reply) : Prop where
  | beside {place : Nat} {start : Inquiry} :
      (begunOf id moments)[place]? = some start → start.number = number →
      GrantedAt moments number start.instant →
      made[place]? = some (start.instant, query) →
      alone.answer? place = some (.value value) →
      Matches id moments made alone number query value

/-- Work that has ended has come to the value that the direct call has come to. -/
theorem Mirrors.matches_ (mirrors : Mirrors id first moments last made alone)
    (books : Books moments last stages) (granted : Granted id moments last)
    (stands : inquiry ∈ asked moments) (own : inquiry.service = id) {ended : Returned}
    (member : ended ∈ returned moments) (number : ended.number = inquiry.number) :
    ∃ value, ended.ending = .value value ∧
      Matches id moments made alone inquiry.number inquiry.query value := by
  obtain ⟨start, began, same⟩ := List.mem_map.mp (books.worked.preceded ended member)
  obtain ⟨other, asked, counts, service, query⟩ := books.worked.known start began
  obtain rfl := books.entered.eq_of_number asked stands
    (counts.symm.trans (same.trans number))
  have mine := service.trans own
  have here := mem_begunOf.mpr ⟨began, mine⟩
  obtain ⟨place, there⟩ := List.getElem?_of_mem here
  obtain ⟨call, called, beside⟩ := forall₂_getElem? mirrors.calls there
  cases beside with
  | going running counted =>
    refine absurd ?_ (books.worked.going _ (Executor.mem_hand_of_running running))
    rw [counted, same]
    exact List.mem_map_of_mem member
  | @ended twin value told counted comes =>
    obtain rfl := List.inj_on_of_nodup_map books.worked.last told member (counted.trans same)
    refine ⟨value, comes, .beside there counts (counts ▸ granted.begun start began mine) ?_ ?_⟩
    · rw [mirrors.log, List.getElem?_map, there, ← query]
      rfl
    · rw [Alone.answer?, called]

/-- The error that a call leaves with its server that has come to a value. -/
def recorded (query : Query) : Except ServiceError Reply → List HostError
  | .ok _ => []
  | .error cause => [.ofService query.operation cause]

/-- What a caller is told of a call that has come to a value, and what is kept of it. -/
structure Tells (server : ServerId) (completions : List Completion) (place : Nat) (query : Query)
    (value : Except ServiceError Reply) (answer : Answer) : Prop where
  said : answer = .ofReply query value.toOption
  granted : ∀ control, query = .control control →
    (answer = .flag true ↔ ∃ reply, value = .ok reply)
  kept : faults server (completedAt place completions) = recorded query value

/-- Next to a server and the calls through it, the same calls of the service itself. -/
structure Transparent (origin : System Answer) (server : ServerId) (id : ServiceId)
    (moments : List Moment) (last : System Answer) (completions : List Completion)
    (first : Alone) (made : List (Nat × Query)) (alone : Alone) : Prop where
  /-- The service is made, and nobody has called it. -/
  new : Service.New (.threaded first.service)
  uncalled : first.calls = []
  /-- Every call is made directly when its work begins behind the host, which is when it has got its
  permit, and in between the service does what it does there. -/
  run : Alone.Run first made alone
  shadow : Shadow id first moments last made alone
  log : made = (begunOf id moments).map fun start => (start.instant, start.query)
  permits : ∀ start ∈ begunOf id moments, GrantedAt moments start.number start.instant
  /-- In the end the service is the same, with its state and all transitions that it has sent. -/
  shows_ : Shows id last alone
  /-- A call through the server has come to what the direct call has come to. -/
  completed : ∀ completion ∈ completions, completion.server = server →
    completion.query ≠ .instanceId → ∃ number value, completion.call = some number ∧
      Matches id moments made alone number completion.query value ∧
      completion.result = Server.result completion.query (.ok value)
  /-- The callers are told of that value, and if it is an error, it is recorded. -/
  told : ∀ moment ∈ moments, ∀ query yield, moment.Calls server query → query ≠ .instanceId →
    last.yield? moment.place = some yield → ∃ inquiry value, moment.asked? = some inquiry ∧
      Matches id moments made alone inquiry.number query value ∧
      Tells server completions moment.place query value yield.value
  lastError : last.host.lastError server = (faults server completions).getLast?
  /-- No call is given up at its deadline. -/
  unhurried : ∀ completion ∈ completions, completion.server = server →
    completion.query ≠ .instanceId → ∀ cause, completion.result = .error cause →
      cause.isTimeout = false
  /-- A stop whose run outlives the grace fails with what the service itself says of it. -/
  overstays : ∀ past more middle, moments = past ++ more → History origin past middle →
    History middle more last → ∀ moment ∈ past, ∀ start generation,
      moment.Brakes start generation → start.service = id → Outlives middle start generation →
      ∀ completion ∈ completions, completion.server = server →
        completion.call = some start.number → completion.result =
          .error (.execution "stop" (LifecycleError.stopTimedOut (.ofMillis stopGrace)).message)

/-! ## A server that adds nothing -/

theorem isTimeout_of_result {cause : HostError}
    (result : Server.result query (.ok value) = .error cause) : cause.isTimeout = false := by
  cases value with
  | ok reply => cases result
  | error failure =>
    cases result
    rcases failure with (_ | _ | _) | _ <;> rfl

theorem tells_of_result {yield : Yield Answer} {place : Nat} {call : Option Nat}
    (filed : completedAt place completions =
      [⟨place, server, query, call, Server.result query (.ok value)⟩])
    (told : yield = ⟨.ofReply query (Server.result query (.ok value)).toOption, none⟩) :
    Tells server completions place query value yield.value := by
  subst told
  refine ⟨?_, ?_, ?_⟩
  · cases value <;> rfl
  · rintro control rfl
    cases value <;> simp [Answer.ofReply, Server.result, Except.toOption]
  · rw [filed]
    cases value <;> simp [faults, Completion.fault?, Server.result, recorded]

/-- The server was around its service whenever it was there. -/
theorem Retains.eq_of_held (retains : Retains moments last)
    (held : last.host.serviceOf server = some id) (there : moment ∈ moments) {service : ServiceId}
    (through : moment.after.host.serviceOf server = some service) : service = id :=
  Option.some.inj (through.symm.trans
    ((retains.held server id held moment there).2 (Host.lt_of_serviceOf through)))

/-- A call through a server that was never killed has reached the service. -/
theorem Settled.of_held {completion : Completion} (settled : Settled moments completion)
    (retains : Retains moments last) (held : last.host.serviceOf completion.server = some id) :
    ∃ told ∈ System.heard moments, ∃ inquiry ∈ asked moments, inquiry.number = told.number ∧
      inquiry.service = id ∧ inquiry.query = completion.query ∧
      completion.call = some told.number ∧
      completion.result = Server.result completion.query told.answer := by
  cases settled with
  | refused _ _ killed =>
    obtain ⟨moment, there, killed⟩ := killed
    obtain ⟨entry, found, _⟩ := (Option.any_eq_true _ _).mp killed
    have bound := (List.getElem?_eq_some_iff.mp found).1
    rw [Host.hasKilled_of_held ((retains.held _ id held moment there).1 bound)] at killed
    cases killed
  | @heard told member call made result =>
    obtain ⟨moment, there, inquiry, asks, number, query, through⟩ := made
    exact ⟨told, member, inquiry, List.mem_filterMap.mpr ⟨moment, there, asks⟩, number,
      retains.eq_of_held held there through, query, call, result⟩

/-- All that is known of a service whose calls get their permits early enough. -/
structure Kept (id : ServiceId) (moments : List Moment) (last : System Answer)
    (stages : Nat → Option Stage) (first : Alone) (made : List (Nat × Query)) (alone : Alone) :
    Prop where
  books : Books moments last stages
  attended : Attended moments last
  retains : Retains moments last
  granted : Granted id moments last
  tended : Tended id moments last
  punctual : Punctual id moments last
  mirrors : Mirrors id first moments last made alone

namespace Kept

variable {completion : Completion}

/-- A call through the server comes to what its work comes to, and so does the direct call. -/
theorem completed (kept : Kept id moments last stages first made alone)
    (settled : Settled moments completion)
    (held : last.host.serviceOf completion.server = some id)
    (asks : completion.query ≠ .instanceId) :
    ∃ ended ∈ returned moments, ∃ value, completion.call = some ended.number ∧
      ended.ending = .value value ∧
      Matches id moments made alone ended.number completion.query value ∧
      completion.result = Server.result completion.query (.ok value) := by
  obtain ⟨told, hears, inquiry, stands, number, own, query, call, result⟩ :=
    settled.of_held kept.retains held
  obtain ⟨other, among, same, comes, _⟩ := kept.attended.comes told hears
  obtain rfl := kept.books.entered.eq_of_number among stands (same.trans number.symm)
  obtain ⟨ended, back, counts, answer⟩ := kept.punctual.comes kept.books.entered kept.tended stands
    own (query ▸ asks) comes (kept.attended.past told hears)
  obtain ⟨value, ending, matches_⟩ :=
    kept.mirrors.matches_ kept.books kept.granted stands own back counts
  rw [ending] at answer
  refine ⟨ended, back, value, ?_, ending, ?_, ?_⟩
  · rw [call, counts, number]
  · rwa [counts, ← query]
  · rw [result, answer]
    rfl

theorem told (kept : Kept id moments last stages first made alone)
    (reckoned : Reckoned moments last completions)
    (course : Course last stages completions moment server query) (there : moment ∈ moments)
    (calls : moment.Calls server query) (asks : query ≠ .instanceId)
    (held : last.host.serviceOf server = some id) {yield : Yield Answer}
    (yields : last.yield? moment.place = some yield) :
    ∃ inquiry value, moment.asked? = some inquiry ∧
      Matches id moments made alone inquiry.number query value ∧
      Tells server completions moment.place query value yield.value := by
  obtain ⟨entry, known⟩ := Option.isSome_iff_exists.mp calls.known
  have bound := (List.getElem?_eq_some_iff.mp known).1
  have alive := (kept.retains.held server id held moment there).1 bound
  cases course with
  | refused killed => cases killed.symm.trans alive
  | waits _ _ waits => cases (call?_of_yield? yields).symm.trans waits
  | @answered inquiry outcome reached _ filed told =>
    obtain ⟨ended, _, value, call, _, matches_, result⟩ :=
      kept.completed (reckoned.settled _ (mem_of_completedAt filed)) held asks
    dsimp only at call matches_ result
    subst result
    rw [← Option.some.inj call] at matches_
    exact ⟨inquiry, value, reached.asked, matches_, tells_of_result filed (told yield yields)⟩

/-- A call of a stop whose run has outlived the grace comes to what the service says of it. -/
theorem overstays (kept : Kept id moments last stages first made alone)
    (settled : Settled moments completion)
    (held : last.host.serviceOf completion.server = some id) (begins : start ∈ begun moments)
    (stop : start.query = .control .stop) (call : completion.call = some start.number)
    {ended : Returned} (back : ended ∈ returned moments) (number : ended.number = start.number)
    (told : ended.ending = .value overstayed) :
    completion.result =
      .error (.execution "stop" (LifecycleError.stopTimedOut (.ofMillis stopGrace)).message) := by
  have asks : completion.query = .control .stop := by
    obtain ⟨heard, _, inquiry, stands, same, _, query, called, _⟩ :=
      settled.of_held kept.retains held
    obtain ⟨other, among, counts, _, asked⟩ := kept.books.worked.known start begins
    have heads := Option.some.inj (called.symm.trans call)
    obtain rfl := kept.books.entered.eq_of_number among stands
      (counts.symm.trans (heads.symm.trans same.symm))
    rw [← query, ← asked, stop]
  obtain ⟨other, among, value, called, ending, _, result⟩ :=
    kept.completed settled held (by simp [asks])
  obtain rfl := List.inj_on_of_nodup_map kept.books.worked.last among back
    ((Option.some.inj (called.symm.trans call)).trans number.symm)
  cases ending.symm.trans told
  rw [result, asks]
  rfl

end Kept

theorem Chronicle.kept {host : Host} {capacity : Nat} (unused : host.Unused)
    (chronicle : Chronicle (.start host capacity) moments last stages completions)
    (tended : Tended id moments last) (held : last.host.serviceOf server = some id)
    {service : Threaded} (found : last.host.service? id = some (.threaded service)) :
    ∃ first made alone, Service.New (.threaded first.service) ∧ first.calls = [] ∧
      Kept id moments last stages first made alone := by
  have history := chronicle.history
  obtain ⟨first, made, alone, new, uncalled, mirrors⟩ :=
    history.mirrored unused tended.mindful held found
  exact ⟨first, made, alone, new, uncalled, {
    books := chronicle.books unused
    attended := history.attended unused
    retains := history.retains unused
    granted := history.granted unused tended.mindful
    tended
    punctual := history.punctual unused tended
    mirrors }⟩

/-- As long as the calls of a service get their permits early enough, its server adds nothing to
what the service itself does. -/
theorem server_transparent {host : Host} {capacity : Nat} (unused : host.Unused)
    (history : History (.start host capacity) moments last)
    (held : last.host.serviceOf server = some id) {service : Threaded}
    (found : last.host.service? id = some (.threaded service))
    (mindful : Mindful id moments) (swift : Swift id moments last) :
    (∃ stages completions, Chronicle (.start host capacity) moments last stages completions) ∧
      ∀ stages completions, Chronicle (.start host capacity) moments last stages completions →
        ∃ first made alone, Transparent (.start host capacity) server id moments last completions
          first made alone := by
  refine ⟨history.exists_chronicle, fun stages completions chronicle => ?_⟩
  have tended : Tended id moments last :=
    ⟨fun _ there => ⟨service, Option.some.inj (there.symm.trans found)⟩, mindful, swift⟩
  obtain ⟨first, made, alone, new, uncalled, kept⟩ := chronicle.kept unused tended held found
  have reckoned := chronicle.reckoned unused
  have coursed := chronicle.coursed unused
  refine ⟨first, made, alone, {
    new
    uncalled
    run := kept.mirrors.shadow.run
    shadow := kept.mirrors.shadow
    log := kept.mirrors.log
    permits := fun start member =>
      let ⟨began, own⟩ := mem_begunOf.mp member
      kept.granted.begun start began own
    shows_ := kept.mirrors.shadow.shows_
    completed := fun completion member own asks => ?completed
    told := fun moment there query yield calls asks yields => kept.told reckoned
      (coursed.courses moment there server query calls) there calls asks held yields
    lastError := reckoned.lastError server
    unhurried := fun completion member own asks cause failed => ?unhurried
    overstays := ?overstays }⟩
  case completed =>
    obtain ⟨ended, _, value, call, _, matches_, result⟩ :=
      kept.completed (reckoned.settled completion member) (own ▸ held) asks
    exact ⟨ended.number, value, call, matches_, result⟩
  case unhurried =>
    obtain ⟨_, _, value, _, _, _, result⟩ :=
      kept.completed (reckoned.settled completion member) (own ▸ held) asks
    exact isTimeout_of_result (result.symm.trans failed)
  case overstays =>
    rintro past more middle rfl early onward moment there start generation brakes own outlives
      completion member rfl call
    obtain ⟨ended, back, number, told⟩ :=
      early.overstays unused onward tended there brakes own outlives
    have begins : start ∈ begun (past ++ more) :=
      List.mem_filterMap.mpr ⟨moment, List.mem_append_left _ there, brakes.1⟩
    exact kept.overstays (reckoned.settled completion member) held begins brakes.2.1 call back
      number told

/-- A service whose run sleeps for twelve seconds before it looks at anything else. -/
def sleeper : Blueprint :=
  ⟨"sleeper", .threaded "Sleeper" "1" fun _ => ⟨[.sleep 12000], [], false⟩⟩

/-- Two stops overlap, and a question for the state waits four seconds for its permit. Then the
grace of the first stop is over. -/
def drowsy : List Event :=
  [.launch (.load sleeper), .serve 0, .resume 0,
    .launch (.call 0 (.control .start)), .serve 0, .resume 1, .go 0 0, .go 0 0,
    .launch (.call 0 (.control .stop)), .serve 0, .wait 4000,
    .launch (.call 0 (.control .stop)), .serve 1, .wait 6000, .launch (.call 0 .state),
    .wait 10000, .serve 0, .serve 1, .resume 2, .resume 4, .wait 12000]

/-- The run ends within the grace of the second stop. -/
def waking : List Event := [.go 0 0, .go 0 0, .record 0 1, .serve 0, .resume 3]

/-- Whether in a moment a stop of the first service begins that waits for the first run, which goes
on when the grace is over. -/
def stalls (middle : System Answer) (moment : Moment) : Bool :=
  moment.begun?.any fun start =>
    start.query == .control .stop && start.service == 0 &&
      decide (start.instant + stopGrace < middle.now) &&
      ((moment.before.host.threaded? 0).any fun service => service.lifecycle.task == some 1) &&
      (middle.host.threaded? 0).any fun service => !service.lifecycle.isFinished 1

theorem exists_stalled (here : moments.any (stalls middle) = true) :
    ∃ moment ∈ moments, ∃ start generation, moment.Brakes start generation ∧
      start.service = 0 ∧ Outlives middle start generation := by
  obtain ⟨moment, there, stalls⟩ := List.any_eq_true.mp here
  obtain ⟨start, begun, stalls⟩ := (Option.any_eq_true _ _).mp stalls
  simp only [Bool.and_eq_true, beq_iff_eq, decide_eq_true_eq, Option.any_eq_true,
    Bool.not_eq_true', Host.threaded?_eq_some] at stalls
  obtain ⟨⟨⟨⟨asks, own⟩, long⟩, service, found, task⟩, later, goes, unfinished⟩ := stalls
  exact ⟨moment, there, start, 1, ⟨begun, asks, service, own ▸ found, task⟩, own, long, later,
    own ▸ goes, unfinished⟩

theorem server_transparent_sleeper :
    ∃ past middle more last stages completions first made alone, History bare past middle ∧
      History middle more last ∧ Mindful 0 (past ++ more) ∧ Swift 0 (past ++ more) last ∧
      Chronicle bare (past ++ more) last stages completions ∧
      Transparent bare 0 0 (past ++ more) last completions first made alone ∧
      made = [(0, .instanceId), (0, .control .start), (0, .control .stop), (4000, .control .stop),
        (10000, .state)] ∧
      (∃ moment ∈ past, ∃ start generation, moment.Brakes start generation ∧
        start.service = 0 ∧ Outlives middle start generation) ∧
      last.host.lastError 0 =
        some (.execution "stop" (LifecycleError.stopTimedOut (.ofMillis stopGrace)).message) := by
  obtain ⟨⟨past, middle⟩, enters, rest⟩ := Option.bind_eq_some_iff.mp
    (by decide +kernel : ((bare.chart? drowsy).bind fun early =>
      (early.2.chart? waking).map fun onward =>
        decide (Mindful 0 (early.1 ++ onward.1)) &&
        decide (Swift 0 (early.1 ++ onward.1) onward.2) &&
        onward.2.host.serviceOf 0 == some 0 && (onward.2.host.threaded? 0).isSome &&
        early.1.any (stalls early.2) &&
        ((begunOf 0 (early.1 ++ onward.1)).map fun start => (start.instant, start.query)) ==
          [(0, .instanceId), (0, .control .start), (0, .control .stop), (4000, .control .stop),
            (10000, .state)] &&
        onward.2.host.lastError 0 ==
          some (.execution "stop" (LifecycleError.stopTimedOut (.ofMillis stopGrace)).message)) =
        some true)
  obtain ⟨⟨more, last⟩, goes, seen⟩ := Option.map_eq_some_iff.mp rest
  simp only [Bool.and_eq_true, decide_eq_true_eq, beq_iff_eq, Option.isSome_iff_exists,
    Host.threaded?_eq_some] at seen
  obtain ⟨⟨⟨⟨⟨⟨mindful, swift⟩, held⟩, service, found⟩, stalled⟩, calls⟩, failed⟩ := seen
  have early := (History.of_chart? enters).1
  have onward := (History.of_chart? goes).1
  obtain ⟨⟨stages, completions, chronicle⟩, all⟩ :=
    server_transparent Host.unused_bare (early.append onward) held found mindful swift
  obtain ⟨first, made, alone, transparent⟩ := all stages completions chronicle
  exact ⟨past, middle, more, last, stages, completions, first, made, alone, early, onward, mindful,
    swift, chronicle, transparent, transparent.log.trans calls, exists_stalled stalled, failed⟩

end ServiceHost.System
