import ServiceHost.Proofs.Host.Amid
import ServiceHost.Proofs.Host.Departure
import ServiceHost.Proofs.Host.Supply

/-! Additions: a service is supplied, asked for its id, entered under it, configured and started.

An addition ends with the new server at the end of the directory, or with the directory as it was.
Which of the two depends on the supply and on the answers of two calls.
-/

set_option autoImplicit false

namespace ServiceHost

/-- How far an addition is and what it has made of the host, by the answers of its calls. A service
that a server was put around is torn down again if the addition fails. -/
inductive Addition (source : Source) (config : Properties) (host now : Host) :
    List Exchange → Halt → Prop where
  | unresolved {cause : HostError} :
      source.supply host = .error cause → host.Amid now [] [] →
      now.service? host.services.length = none →
      Addition source config host now [] (.ended ⟨.entered (.error cause), none⟩)
  | asks {blueprint : Blueprint} {origin : String} :
      source.supply host = .ok (blueprint, origin) → host.Amid now [] [] →
      now.Treats host.services.length [] →
      Addition source config host now []
        (.waits host.services.length (.wrapping host.services.length origin (some config)))
  | unprobed {blueprint : Blueprint} {origin : String} {cause : CallError} :
      source.supply host = .ok (blueprint, origin) → host.Amid now [] [] →
      now.Treats host.services.length [] →
      Addition source config host now [⟨host.services.length, .instanceId, .error cause⟩]
        (.ended ⟨.entered (.error (.ofCall cause)), none⟩)
  | duplicate {blueprint : Blueprint} {origin : String} {answer : Except ServiceError Reply}
      {server : Server} :
      source.supply host = .ok (blueprint, origin) →
      server = Server.around host.services.length origin answer →
      host.directory.contains server.id = true →
      host.Amid now [] [{ server with service := none }] →
      now.Treats host.services.length [.killed] →
      Addition source config host now [⟨host.services.length, .instanceId, .ok answer⟩]
        (.ended ⟨.entered (.error (.duplicateInstance server.id)), none⟩)
  | starts {blueprint : Blueprint} {origin : String} {answer : Except ServiceError Reply}
      {server : Server} :
      source.supply host = .ok (blueprint, origin) →
      server = Server.around host.services.length origin answer →
      host.directory.get? server.id = none →
      host.Amid now [(server.id, host.servers.length)] [server] →
      now.Treats host.services.length [.configured config] →
      Addition source config host now [⟨host.services.length, .instanceId, .ok answer⟩]
        (.waits host.services.length (.starting host.servers.length))
  | unstarted {blueprint : Blueprint} {origin : String} {answer : Except ServiceError Reply}
      {server : Server} {failed : CallAnswer} {cause : HostError} :
      source.supply host = .ok (blueprint, origin) →
      server = Server.around host.services.length origin answer →
      host.directory.get? server.id = none →
      Server.failure? (.control .start) failed = some cause →
      host.Amid now [] [{ server with service := none, lastError := some cause }] →
      now.Treats host.services.length [.configured config, .killed] →
      Addition source config host now
        [⟨host.services.length, .instanceId, .ok answer⟩,
          ⟨host.services.length, .control .start, failed⟩]
        (.ended ⟨.entered (.error cause), none⟩)
  | started {blueprint : Blueprint} {origin : String} {answer : Except ServiceError Reply}
      {server : Server} {reply : Reply} :
      source.supply host = .ok (blueprint, origin) →
      server = Server.around host.services.length origin answer →
      host.directory.get? server.id = none →
      host.Amid now [(server.id, host.servers.length)] [server] →
      now.Treats host.services.length [.configured config] →
      Addition source config host now
        [⟨host.services.length, .instanceId, .ok answer⟩,
          ⟨host.services.length, .control .start, .ok (.ok reply)⟩]
        (.ended ⟨.entered (.ok host.servers.length), some host.servers.length⟩)

namespace Addition

variable {source : Source} {config : Properties} {host now later : Host} {talk : List Exchange}
  {halt : Halt}

/-- While services go on by themselves, an addition stands where it is. -/
theorem works (adding : Addition source config host now talk halt) (works : now.Works later) :
    Addition source config host later talk halt := by
  cases adding with
  | unresolved fails amid absent =>
    refine .unresolved fails (amid.works works) ?_
    have onward := works.works host.services.length
    rw [absent] at onward
    cases there : later.service? host.services.length with
    | none => rfl
    | some => rw [there] at onward; cases onward
  | asks found amid treats => exact .asks found (amid.works works) (treats.works works)
  | unprobed found amid treats => exact .unprobed found (amid.works works) (treats.works works)
  | duplicate found around taken amid treats =>
    exact .duplicate found around taken (amid.works works) (treats.works works)
  | starts found around vacant amid treats =>
    exact .starts found around vacant (amid.works works) (treats.works works)
  | unstarted found around vacant fails amid treats =>
    exact .unstarted found around vacant fails (amid.works works) (treats.works works)
  | started found around vacant amid treats =>
    exact .started found around vacant (amid.works works) (treats.works works)

/-- What the service told, or did not, decides whether a server is put around it, and whether that
is entered. -/
theorem probed {blueprint : Blueprint} {origin : String} {answer : CallAnswer}
    (found : source.supply host = .ok (blueprint, origin)) (amid : host.Amid now [] [])
    (treats : now.Treats host.services.length [])
    (part : Stage.Section now (.wrapping host.services.length origin (some config)) answer halt
      later) :
    Addition source config host later [⟨host.services.length, .instanceId, answer⟩] halt := by
  have same : now.directory = host.directory :=
    Table.ext (amid.directory.trans (List.append_nil _))
  cases part with
  | unwrapped => exact .unprobed found amid treats
  | @duplicate _ _ _ answer taken =>
    have around := amid.addServer (.around host.services.length origin answer)
    obtain ⟨killed, torn⟩ := around.killServer rfl (treats.of_services rfl)
    rw [amid.length_servers]
    exact .duplicate found rfl (same ▸ taken) killed torn
  | @starts _ _ _ answer vacant =>
    have absent := same ▸ vacant
    have around := amid.addServer (.around host.services.length origin answer)
    obtain ⟨ready, configured⟩ := (around.enter absent host.servers.length).configure rfl
      (treats.of_services rfl) config
    rw [amid.length_servers]
    exact .starts found rfl absent ready configured

/-- The new server stays if its service started, and leaves again if not. -/
theorem tried {blueprint : Blueprint} {origin : String} {answer : Except ServiceError Reply}
    {server : Server} (found : source.supply host = .ok (blueprint, origin))
    (around : server = Server.around host.services.length origin answer)
    (vacant : host.directory.get? server.id = none)
    (amid : host.Amid now [(server.id, host.servers.length)] [server])
    (treats : now.Treats host.services.length [.configured config]) (told : CallAnswer) :
    ∃ halt later, Stage.Section now (.starting host.servers.length) told halt later ∧
      ((Stage.starting host.servers.length).next told).run now = (halt.stop, later) ∧
      Addition source config host later [⟨host.services.length, .instanceId, .ok answer⟩,
        ⟨host.services.length, .control .start, told⟩] halt := by
  cases fails : Server.failure? (.control .start) told with
  | none =>
    obtain ⟨reply, rfl⟩ := Server.failure?_eq_none.mp fails
    exact ⟨_, _, .started, rfl, .started found around vacant amid treats⟩
  | some cause =>
    have silent : Server.replyOf told = none := by
      rcases told with failed | (failed | reply)
      · rfl
      · rfl
      · cases fails
    let failed : Server := { server with lastError := some cause }
    have recorded : host.Amid (now.record host.servers.length cause)
        [(failed.id, host.servers.length)] [failed] := amid.updateServer _
    have held : failed.service = some host.services.length :=
      congrArg Server.service around
    obtain ⟨known, back, torn⟩ := recorded.rolledBack vacant held (treats.of_services rfl) rfl
    refine ⟨_, _, .rollsBack _ silent, Stage.run_starting_of_failure silent now, ?_⟩
    rw [Host.noted_of_failure fails, known]
    exact .unstarted found around vacant fails back torn

/-- An addition goes on when it hears of its call. -/
theorem hears {service : ServiceId} {stage : Stage}
    (adding : Addition source config host now talk (.waits service stage)) (answer : CallAnswer) :
    ∃ halt later, stage.Section now answer halt later ∧
      (stage.next answer).run now = (halt.stop, later) ∧
      Addition source config host later (talk ++ [⟨service, stage.query, answer⟩]) halt := by
  cases adding with
  | @asks _ origin found amid treats =>
    obtain ⟨halt, later, part, runs⟩ :=
      (Stage.wrapping host.services.length origin (some config)).run_next answer now
    exact ⟨halt, later, part, runs, probed found amid treats part⟩
  | starts found around vacant amid treats => exact tried found around vacant amid treats answer

/-- An addition begins with the supply. -/
theorem begins (source : Source) (config : Properties) (host : Host) :
    ∃ halt now, (source.operation config).Section host halt now ∧
      (source.operation config).flow.run host = (halt.stop, now) ∧
      Addition source config host now [] halt := by
  cases supplied : source.supply host with
  | error cause =>
    obtain ⟨resolvers, runs⟩ := Source.run_of_error supplied config
    refine ⟨_, _, .rejected cause resolvers (source.enters_operation config), runs,
      .unresolved supplied (.refl host resolvers) ?_⟩
    exact Option.map_eq_none_iff.mpr (List.getElem?_eq_none (Nat.le_refl _))
  | ok supply =>
    obtain ⟨blueprint, origin⟩ := supply
    obtain ⟨resolvers, runs⟩ := Source.run_of_ok supplied config
    obtain ⟨amid, treats⟩ := (Host.Amid.refl host resolvers).make rfl blueprint
    exact ⟨_, _, .made blueprint resolvers origin (some config) (source.enters_operation config),
      runs, .asks supplied amid treats⟩

/-- No start is asked for before the service has its configuration. -/
theorem configured (adding : Addition source config host now talk halt)
    (starts : (host.services.length, Query.control .start) ∈
      talk.map Exchange.about ++ halt.about?.toList) :
    (now.service? host.services.length).map Service.config = some config := by
  cases adding with
  | unresolved | asks | unprobed | duplicate =>
    simp [Exchange.about, Halt.about?, Stage.query] at starts
  | starts _ _ _ _ treats | unstarted _ _ _ _ _ treats | started _ _ _ _ treats =>
    exact treats.config

end Addition

/-- Nothing is left of an addition but servers that are killed, if there was one. Every service that
a server was put around was torn down once. -/
def Host.Restored (host now : Host) : Prop :=
  ∃ added, host.Amid now [] added ∧ (∀ server ∈ added, server.service = none) ∧
    ∀ service count, now.service? host.services.length = some service →
      service.kills? = some count → count = added.length

/-- There is one more server at the end of the directory, and its service is configured. -/
def Host.Gained (host now : Host) (config : Properties) (number : ServerId) : Prop :=
  ∃ server, host.Amid now [(server.id, number)] [server] ∧ now.server? number = some server ∧
    server.service = some host.services.length ∧
    host.directory.get? server.id = none ∧
    (now.service? host.services.length).map Service.config = some config ∧
    ∀ service count, now.service? host.services.length = some service →
      service.kills? = some count → count = 0

namespace Addition

variable {source : Source} {config : Properties} {host now : Host} {talk : List Exchange}

theorem restored {cause : HostError} {kept : Option ServerId}
    (adding : Addition source config host now talk (.ended ⟨.entered (.error cause), kept⟩)) :
    host.Restored now := by
  cases adding with
  | unresolved _ amid absent => exact ⟨[], amid, by simp, by simp [absent]⟩
  | unprobed _ amid treats => exact ⟨[], amid, by simp, fun _ _ found => treats.kills found⟩
  | duplicate _ _ _ amid treats | unstarted _ _ _ _ amid treats =>
    exact ⟨_, amid, by simp, fun _ _ found => treats.kills found⟩

theorem gained {number : ServerId} {kept : Option ServerId}
    (adding : Addition source config host now talk (.ended ⟨.entered (.ok number), kept⟩)) :
    host.Gained now config number := by
  cases adding with
  | started _ around vacant amid treats =>
    exact ⟨_, amid, amid.server?, by rw [around]; rfl, vacant, treats.config,
      fun _ _ found => treats.kills found⟩

end Addition

namespace System

variable {before after last : System Answer} {source : Source} {config : Properties}
  {past run : List Moment}

/-- Every start of a service that has begun found the service configured. -/
def Primed (run : List Moment) (service : ServiceId) (config : Properties) : Prop :=
  ∀ moment ∈ run, ∀ inquiry, moment.begun? = some inquiry →
    inquiry.about = (service, .control .start) →
    (moment.before.host.service? service).map Service.config = some config

theorem Primed.append {moment : Moment} {service : ServiceId} (primed : Primed run service config)
    (begins : ∀ inquiry, moment.begun? = some inquiry →
      inquiry.about = (service, .control .start) →
      (moment.before.host.service? service).map Service.config = some config) :
    Primed (run ++ [moment]) service config := by
  intro other member
  rcases List.mem_append.mp member with earlier | new
  · exact primed other earlier
  · exact List.mem_singleton.mp new ▸ begins

/-- The run of an addition is the addition that its answers make it. -/
theorem Solo.addition (solo : Solo (source.operation config) before run last)
    (books : Books past before fun _ => none) :
    ∃ stage?, Books (past ++ run) last (Stage.alone before.procedures.length stage?) ∧
      ∃ talk halt, halt.stage? = stage? ∧
        Addition source config before.host last.host talk halt ∧
        Spoken before.procedures.length run last talk halt ∧
        Primed run before.host.services.length config := by
  refine solo.induct books (fun run last stage? => ∃ talk halt, halt.stage? = stage? ∧
    Addition source config before.host last.host talk halt ∧
    Spoken before.procedures.length run last talk halt ∧
    Primed run before.host.services.length config) ?launches ?resumes ?idles
  case launches =>
    obtain ⟨halt, host, part, runs, adding⟩ := Addition.begins source config before.host
    refine ⟨halt, host, part, runs, [], halt, rfl, ?_, .launch books.entered _ host halt, ?_⟩
    · rw [launched]
      exact (host_arrived before host halt).symm ▸ adding
    · intro moment member inquiry begins
      cases List.mem_singleton.mp member
      cases begins
  case resumes =>
    rintro done system stage number answer onward ⟨talk, halt, stands, adding, spoken, primed⟩
      waits told
    cases halt with
    | ended => cases stands
    | waits service own =>
      cases stands
      obtain ⟨later, host, part, runs, adding⟩ := adding.hears answer
      refine ⟨later, host, part, runs, _, later, rfl, ?_,
        spoken.resume onward.entered waits told host later, primed.append ?_⟩
      · rw [resumed]
        exact (host_arrived (system.answered number) host later).symm ▸ adding
      · rintro inquiry ⟨⟩
  case idles =>
    rintro done system after event stage? onward ⟨talk, halt, stands, adding, spoken, primed⟩
      idle step
    refine ⟨talk, halt, stands, adding.works idle.works, spoken.idle idle, primed.append ?_⟩
    intro inquiry begins about
    have stood := onward.entered.begun_since books.seated.known begins
      (Nat.le_of_eq (congrArg Prod.fst about).symm)
    rw [about, spoken.asked] at stood
    exact adding.configured stood

/-- While no other operation is under way, an addition is all or nothing. What it comes to hangs on
the supply and on its own calls, of which there are two at most. If it succeeds, there is one more
server at the end of the directory, whose service was configured before its start began. If it
fails, all is as it was, and the error is that of the stage that failed. It returns in any case, and
takes no longer than the deadlines of its calls. -/
theorem addition_all_or_nothing {host : Host} {capacity : Nat} (unused : host.Unused)
    (history : History (.start host capacity) past before)
    (quiet : ∀ place, before.call? place = none)
    (solo : Solo (source.operation config) before run last) :
    ∃ talk halt, Addition source config before.host last.host talk halt ∧
      Talked past run last before.procedures.length talk halt ∧
      Primed run before.host.services.length config ∧
      (∀ cause kept, halt = .ended ⟨.entered (.error cause), kept⟩ →
        before.host.Restored last.host) ∧
      (∀ number kept, halt = .ended ⟨.entered (.ok number), kept⟩ →
        before.host.Gained last.host config number) ∧
      (Timely (past ++ run) → ∀ number, last.call? before.procedures.length = some number →
        last.now ≤ before.now + 2 * callDeadline) ∧
      ∃ more after, Solo (source.operation config) before (run ++ more) after ∧ Timely more ∧
        ∀ place, after.call? place = none := by
  obtain ⟨stages, books⟩ := history.books unused
  obtain rfl := books.silent quiet
  obtain ⟨stage?, onward, talk, halt, _, adding, spoken, primed⟩ := solo.addition books
  have attended := (history.append solo.history).attended unused
  have two : (source.operation config).calls before.host = 2 := by cases source <;> rfl
  refine ⟨talk, halt, adding, solo.talked books onward.entered attended spoken, primed,
    ?restored, ?gained, ?soon, solo.returns onward⟩
  case restored =>
    rintro cause kept rfl
    exact adding.restored
  case gained =>
    rintro number kept rfl
    exact adding.gained
  case soon =>
    intro timely number waits
    exact two ▸ solo.now_le books onward timely waits

/-- A service that refuses to start. -/
def stubborn : Blueprint :=
  ⟨"stubborn", .scripted (fun query =>
    match query with
    | .instanceId => ⟨[], ⟨0, some (.value (.name "Odd:1"))⟩⟩
    | .state => ⟨[], ⟨0, some (.value .tell)⟩⟩
    | .control .start => ⟨[], ⟨0, some (.value (.refuse (.lifecycle .alreadyRunning)))⟩⟩
    | .control control => ⟨[], ⟨0, some (.value (.become control.goal))⟩⟩) .stopped⟩

/-- It tells its id, is entered behind the slow one, and refuses to start. -/
def refusing : List Event := [.serve 0, .serve 0, .resume 1, .serve 0, .serve 0, .resume 1]

/-- The error that an addition has ended with. -/
def refusal? : Yield Answer → Option HostError
  | ⟨.entered (.error cause), none⟩ => some cause
  | _ => none

theorem refusal?_eq_some {yield : Yield Answer} {cause : HostError}
    (refused : refusal? yield = some cause) : yield = ⟨.entered (.error cause), none⟩ := by
  unfold refusal? at refused
  split at refused
  · cases refused
    rfl
  · cases refused

theorem addition_all_or_nothing_refused :
    ∃ moments before run last talk, History bare moments before ∧
      (∀ place, before.call? place = none) ∧
      Solo ((Source.given stubborn).operation Table.empty) before run last ∧
      Addition (.given stubborn) Table.empty before.host last.host talk (.ended
        ⟨.entered (.error (.stateConflict "start" "run loop is still alive; start rejected")), none⟩) ∧
      before.host.Restored last.host ∧ last.host.servers.length = 2 ∧
      last.host.directory.entries = [("Same:1/local", 0)] := by
  obtain ⟨moments, before, run, last, history, solo, _, seen⟩ := exists_solo
    (by decide +kernel : outline? (fun _ => true) bare opening
      ((Source.given stubborn).operation Table.empty) refusing (fun before last =>
        (before.procedures.any Progression.waits, (last.yield? before.procedures.length).bind refusal?,
          last.host.servers.length, last.host.directory.entries)) =
      some (false, some (.stateConflict "start" "run loop is still alive; start rejected"), 2,
        [("Same:1/local", 0)]))
    (by rfl)
  simp only [Prod.mk.injEq] at seen
  obtain ⟨silent, refused, two, entries⟩ := seen
  obtain ⟨yield, yielded, refused⟩ := Option.bind_eq_some_iff.mp refused
  obtain rfl := refusal?_eq_some refused
  have quiet := quiet_of_any silent
  obtain ⟨talk, halt, adding, talked, _, restored, _⟩ :=
    addition_all_or_nothing Host.unused_bare history quiet solo
  obtain rfl := talked.yields _ yielded
  exact ⟨moments, before, run, last, talk, history, quiet, solo, adding, restored _ _ rfl, two,
    entries⟩

end System
end ServiceHost
