import ServiceHost.Host.Bootstrap
import ServiceHost.Proofs.Host.Addition
import ServiceHost.Proofs.Host.Passage

/-! Start-up: whatever the services answer, the report and the directory agree.

Arguments ask for one thing after the other. Each of them ends up in one of the two lists of the
report, and the directory grows by just those that are in the first.
-/

set_option autoImplicit false

namespace ServiceHost

/-! ## What an addition ensures -/

namespace Host

variable (host : Host)

@[simp] theorem around_make (blueprint : Blueprint) :
    (host.make blueprint).2.around = host.around := by
  unfold make
  split <;> rfl

@[simp] theorem around_killServer (server : ServerId) :
    (host.killServer server).2.around = host.around := by
  unfold killServer
  split <;> rfl

@[simp] theorem around_configure (server : ServerId) (config : Properties) :
    (host.configure server config).around = host.around := by
  unfold configure
  split <;> rfl

end Host

theorem Sweep.around {result : Answer} {ids : List String} {host after : Host} {halt : Halt}
    (sweep : Sweep result ids host halt after) : after.around = host.around := by
  obtain ⟨directory, rfl⟩ := sweep.frame
  rfl

/-- No operation of a host changes what is around it. -/
theorem Operation.Section.around {operation : Operation} {host after : Host} {halt : Halt}
    (part : operation.Section host halt after) : after.around = host.around := by
  cases part with
  | rejected | absent | spares | calls | rests | refused => rfl
  | made => exact Host.around_make ..
  | removes _ sweep => exact sweep.around
  | shuts sweep => exact sweep.around
  | kills => exact Host.around_killServer ..
  | killsServer => exact Host.around_killServer ..
  | configures => exact Host.around_configure ..

theorem Stage.Section.around {stage : Stage} {answer : CallAnswer} {host after : Host}
    {halt : Halt} (part : stage.Section host answer halt after) : after.around = host.around := by
  obtain ⟨_, _, _, _, _, rfl⟩ := part.attends
  rfl

/-- What an attempt to add a server has made of a host: one more server at the end of the directory
if it succeeded, and the directory as it was if not. -/
structure Host.Tried (host : Host) (outcome : Except HostError ServerId) (now : Host) : Prop where
  around : now.around = host.around
  gained : ∀ server, outcome = .ok server → host.directory.get? (now.idOf server) = none ∧
    now.directory = host.directory.insert (now.idOf server) server
  restored : ∀ cause, outcome = .error cause → now.directory = host.directory

namespace Addition

variable {source : Source} {config : Properties} {host now later : Host} {talk : List Exchange}
  {halt : Halt}

theorem tried_of_ended {yield : Yield Answer}
    (adding : Addition source config host now talk (.ended yield))
    (around : now.around = host.around) :
    ∃ outcome, yield = ⟨.entered outcome, outcome.toOption⟩ ∧ host.Tried outcome now := by
  have failed : ∀ cause, yield = ⟨.entered (.error cause), none⟩ → host.Tried (.error cause) now := by
    rintro cause rfl
    obtain ⟨_, amid, _⟩ := adding.restored
    refine ⟨around, fun _ entered => (by cases entered), fun _ _ => ?_⟩
    exact Table.ext (amid.directory.trans (List.append_nil _))
  cases adding with
  | unresolved | unprobed | duplicate | unstarted => exact ⟨_, rfl, failed _ rfl⟩
  | @started _ _ _ server _ _ same vacant amid =>
    refine ⟨_, rfl, around, ?_, fun _ fails => (by cases fails)⟩
    rintro number ⟨⟩
    have id : now.idOf host.servers.length = server.id := by rw [Host.idOf, amid.server?]; rfl
    rw [id]
    refine ⟨vacant, Table.ext ?_⟩
    rw [amid.directory, Table.entries_insert_of_absent _ vacant]

theorem known {service : ServiceId} {stage : Stage}
    (adding : Addition source config host now talk (.waits service stage)) :
    service < now.services.length := by
  cases adding with
  | asks _ _ treats | starts _ _ _ _ treats =>
    obtain ⟨_, _, _, _, found⟩ := treats
    exact Host.lt_of_service? found

theorem invariant (source : Source) (config : Properties) (host : Host) :
    Halt.Invariant fun halt now => ∃ talk, Addition source config host now talk halt where
  works := by
    rintro halt now after ⟨talk, adding⟩ works
    exact ⟨talk, adding.works works⟩
  known := by
    rintro service stage now ⟨talk, adding⟩
    exact adding.known
  hears := by
    rintro service stage now ⟨talk, adding⟩ answer
    obtain ⟨halt, later, part, runs, onward⟩ := adding.hears answer
    exact ⟨halt, later, part, runs, _, onward⟩

/-- How far an addition to a host is, with nothing changed around the host. -/
def Adds (source : Source) (config : Properties) (host : Host) (halt : Halt) (now : Host) : Prop :=
  now.around = host.around ∧ ∃ talk, Addition source config host now talk halt

theorem Adds.invariant (source : Source) (config : Properties) (host : Host) :
    Halt.Invariant (Adds source config host) where
  works _ _ _ adds works :=
    ⟨works.around.trans adds.1, (Addition.invariant source config host).works _ _ _ adds.2 works⟩
  known _ _ _ adds := (Addition.invariant source config host).known _ _ _ adds.2
  hears _ _ _ adds answer := by
    obtain ⟨around, adding⟩ := adds
    obtain ⟨halt, later, part, runs, onward⟩ :=
      (Addition.invariant source config host).hears _ _ _ adding answer
    exact ⟨halt, later, part, runs, part.around.trans around, onward⟩

/-- Whatever it is answered, an addition comes to one of the two ends. -/
theorem ensures {flow : Flow (Yield Answer)} {start : Host}
    (adding : Addition source config host now talk halt) (around : now.around = host.around)
    (grows : start.services.length ≤ now.services.length)
    (run : flow.run start = (halt.stop, now)) :
    flow.Ensures (fun yield last => ∃ outcome, yield = ⟨.entered outcome, outcome.toOption⟩ ∧
      host.Tried outcome last) start := by
  apply ((Adds.invariant source config host).ensures ⟨around, talk, adding⟩ grows run).mono
  rintro yield last ⟨around, talk, adding⟩
  exact adding.tried_of_ended around

end Addition

/-- Whatever the services answer, an attempt to add a server succeeds or leaves the directory as it
was. -/
theorem Source.ensures (source : Source) (config : Properties) (host : Host)
    {attempt : Attempt ServerId} (own : (source.operation config).flow = entering attempt) :
    attempt.outcome.Ensures host.Tried host := by
  obtain ⟨halt, now, part, runs, adding⟩ := Addition.begins source config host
  have ensures := adding.ensures part.around part.deals.length runs
  rw [own, entering, bind_pure_comp] at ensures
  apply ensures.of_map.mono
  rintro outcome last ⟨_, same, tried⟩
  cases same
  exact tried

namespace Bootstrap

/-! ## What start-up arguments ask for -/

/-- One thing that is to be done at start-up, or cannot be. -/
inductive Item where
  | unreadable (path : String) (cause : FileError)
  | selfTest
  | directive (directive : Directive)

/-- A script asks for what its directives ask for, if it can be read. -/
def Item.ofArgument (files : Files) : Argument → List Item
  | .script path =>
    match files.readText path with
    | .ok text => (Directive.ofScript text.toList).map .directive
    | .error cause => [.unreadable path cause]
  | .selfTest => [.selfTest]
  | .directive asked => [.directive asked]

/-- Blank arguments ask for nothing. -/
def Item.ofWords (files : Files) (words : List String) : List Item :=
  (words.filterMap Argument.read?).flatMap (ofArgument files)

/-- What an item has come to. -/
inductive Entry where
  | added (id : String)
  | failed (failure : Failure)
  deriving DecidableEq, Repr

def Entry.added? : Entry → Option String
  | added id => some id
  | failed _ => none

def Entry.failure? : Entry → Option Failure
  | added _ => none
  | failed failure => some failure

/-- The failures that an item can come to. -/
inductive Item.Fails : Item → Failure → Prop where
  | unreadable {path : String} {cause : FileError} :
      Fails (.unreadable path cause) (.script path cause)
  | selfTest {cause : HostError} : Fails .selfTest (.service Builtin.testService cause)
  | directive {directive : Directive} {cause : HostError} :
      Fails (.directive directive) (.service directive.service cause)

/-- What an item does to the directory, and its entry in the report. -/
inductive Item.Comes (item : Item) (directory : Table ServerId) : Entry → Table ServerId → Prop where
  | added {id : String} {server : ServerId} :
      (∀ path cause, item ≠ .unreadable path cause) → directory.get? id = none →
      Comes item directory (.added id) (directory.insert id server)
  | failed {failure : Failure} :
      item.Fails failure → Comes item directory (.failed failure) directory

/-- What items do to the directory one after the other, and their entries. -/
inductive Course : List Item → Table ServerId → List Entry → Table ServerId → Prop where
  | done {directory : Table ServerId} : Course [] directory [] directory
  | step {item : Item} {rest : List Item} {entry : Entry} {entries : List Entry}
      {directory middle last : Table ServerId} :
      item.Comes directory entry middle → Course rest middle entries last →
      Course (item :: rest) directory (entry :: entries) last

namespace Course

variable {first middle last : Table ServerId} {items more : List Item}
  {entries others : List Entry}

theorem append (course : Course items first entries middle)
    (onward : Course more middle others last) :
    Course (items ++ more) first (entries ++ others) last := by
  induction course with
  | done => exact onward
  | step comes _ ih => exact .step comes (ih onward)

theorem length_eq (course : Course items first entries last) :
    entries.length = items.length := by
  induction course with
  | done => rfl
  | step _ _ ih => simp [ih]

/-- The directory grows by the ids that were added, in their order. -/
theorem keys (course : Course items first entries last) :
    last.keys = first.keys ++ entries.filterMap Entry.added? := by
  induction course with
  | done => simp
  | step comes _ ih =>
    cases comes with
    | failed => simpa [List.filterMap_cons, Entry.added?] using ih
    | added _ absent =>
      rw [ih, Table.keys, Table.entries_insert_of_absent _ absent]
      simp [Table.keys, Entry.added?]

end Course

/-- A report with further entries. -/
def Report.extend (report : Report) (entries : List Entry) : Report where
  added := report.added ++ entries.filterMap Entry.added?
  failures := report.failures ++ entries.filterMap Entry.failure?

theorem Report.extend_append (report : Report) (entries others : List Entry) :
    (report.extend entries).extend others = report.extend (entries ++ others) := by
  simp [extend]

/-- Items have been gone through, and the report and the directory agree on it. -/
def Agrees (report : Report) (items : List Item) (host : Host) (later : Report) (now : Host) :
    Prop :=
  now.around = host.around ∧ ∃ entries, Course items host.directory entries now.directory ∧
    later = report.extend entries

theorem Agrees.append {report later last : Report} {items more : List Item}
    {host now after : Host} (agrees : Agrees report items host later now)
    (onward : Agrees later more now last after) :
    Agrees report (items ++ more) host last after := by
  obtain ⟨around, entries, course, rfl⟩ := agrees
  obtain ⟨further, others, onward, rfl⟩ := onward
  exact ⟨further.trans around, _, course.append onward, report.extend_append ..⟩

theorem Item.ofWords_cons (files : Files) (word : String) (rest : List String) :
    ofWords files (word :: rest) =
      ((Argument.read? word).map (ofArgument files)).getD [] ++ ofWords files rest := by
  unfold ofWords
  cases read : Argument.read? word <;> simp [read]

theorem agrees_nil (report : Report) (host : Host) : Agrees report [] host report host :=
  ⟨rfl, [], .done, by simp [Report.extend]⟩

/-! ## What start-up ensures -/

variable (report : Report) (host : Host)

theorem ensures_fail {item : Item} {failure : Failure} (fails : item.Fails failure) :
    (fail report failure).Ensures (Agrees report [item] host) host := by
  have run : (fail report failure).run host =
      (.done { report with failures := report.failures ++ [failure] }, host.error failure.message) :=
    rfl
  apply Flow.Ensures.done run (Nat.le_refl _)
  exact ⟨rfl, [.failed failure], .step (.failed fails) .done, by
    simp [Report.extend, Entry.added?, Entry.failure?]⟩

/-- An attempt that starts from a host with the same directory. -/
theorem ensures_enter {item : Item} {name : String} {attempt : Attempt ServerId} {start : Host}
    (adds : ∀ path cause, item ≠ .unreadable path cause)
    (fails : ∀ cause, item.Fails (.service name cause))
    (tries : attempt.outcome.Ensures start.Tried host)
    (directory : start.directory = host.directory) (around : start.around = host.around) :
    (enter report name attempt).Ensures (Agrees report [item] host) host := by
  apply Flow.Ensures.bind
  apply tries.mono
  intro outcome now tried
  cases outcome with
  | ok server =>
    obtain ⟨absent, grown⟩ := tried.gained server rfl
    apply Flow.Ensures.done (Flow.run_read_bind ..) (Nat.le_refl _)
    refine ⟨tried.around.trans around, [.added (now.idOf server)], .step ?_ .done, ?_⟩
    · rw [grown, directory]
      exact .added adds (directory ▸ absent)
    · simp [Report.extend, Entry.added?, Entry.failure?]
  | error cause =>
    have same := tried.restored cause rfl
    apply (ensures_fail report now (fails cause)).mono
    rintro later last ⟨further, entries, course, rfl⟩
    rw [same, directory] at course
    exact ⟨further.trans (tried.around.trans around), entries, course, rfl⟩

/-- The server of a directive is added by resolution or straight from a factory. -/
theorem tries_apply (directive : Directive) :
    (apply directive).outcome.Ensures (host.info
      s!"adding {directive.service} with {directive.options.size} option(s)").Tried host := by
  by_cases deployed : host.deployed.contains directive.service = true
  · apply (Source.ensures (.resolved directive.service) directive.options _ rfl).of_run
    · simp [apply, Attempt.modify, Attempt.host, Host.info, Host.note, deployed]
    · exact Nat.le_refl _
  · apply (Source.ensures (.built directive.service) directive.options _ rfl).of_run
    · simp [apply, Attempt.modify, Attempt.host, Host.info, Host.note, deployed]
    · exact Nat.le_refl _

theorem ensures_apply (directive : Directive) :
    (enter report directive.service (apply directive)).Ensures
      (Agrees report [.directive directive] host) host :=
  ensures_enter report host (by rintro _ _ ⟨⟩) (fun _ => .directive) (tries_apply host directive)
    rfl rfl

theorem ensures_selfTest :
    (enter report Builtin.testService Builtin.selfTest).Ensures
      (Agrees report [.selfTest] host) host := by
  have tries : Builtin.selfTest.outcome.Ensures (Builtin.deployTest host).Tried host := by
    apply (Source.ensures (.resolved Builtin.testService) Table.empty _ rfl).of_run
    · simp [Builtin.selfTest, Attempt.modify]
    · unfold Builtin.deployTest
      split <;> exact Nat.le_refl _
  apply ensures_enter report host (by rintro _ _ ⟨⟩) (fun _ => .selfTest) tries
  · unfold Builtin.deployTest
    split <;> rfl
  · unfold Builtin.deployTest
    split <;> rfl

theorem ensures_applyAll (directives : List Directive) :
    (applyAll report directives).Ensures (Agrees report (directives.map .directive) host) host := by
  induction directives generalizing report host with
  | nil => exact .pure (agrees_nil report host)
  | cons directive rest ih =>
    apply Flow.Ensures.bind
    apply (ensures_apply report host directive).mono
    intro later now agrees
    exact (ih later now).mono fun last after onward => agrees.append onward

theorem ensures_applyArgument (argument : Argument) :
    (applyArgument report argument).Ensures
      (Agrees report (Item.ofArgument host.around.files argument) host) host := by
  cases argument with
  | directive directive => exact ensures_apply report host directive
  | selfTest => exact ensures_selfTest report host
  | script path =>
    simp only [applyArgument, applyScript, Item.ofArgument]
    cases read : host.around.files.readText path with
    | ok text =>
      apply (ensures_applyAll report host _).of_run _ (Nat.le_refl _)
      simp [read]
    | error cause =>
      apply (ensures_fail report host .unreadable).of_run _ (Nat.le_refl _)
      simp [read]

theorem ensures_run (words : List String) :
    (run report words).Ensures (Agrees report (Item.ofWords host.around.files words) host) host := by
  induction words generalizing report host with
  | nil => exact .pure (agrees_nil report host)
  | cons word rest ih =>
    rw [run, Item.ofWords_cons]
    cases Argument.read? word with
    | none => exact ih report host
    | some argument =>
      apply Flow.Ensures.bind
      apply (ensures_applyArgument report host argument).mono
      intro later now agrees
      apply (ih later now).mono
      intro last after onward
      rw [agrees.1] at onward
      exact agrees.append onward

/-! ## Start-up in a host that nothing else uses -/

/-- While nothing else uses the host, every item of the start-up arguments gets one entry, in their
order and whatever the entries before it are. The directory has grown by just the servers whose ids
are in the report, and a failed item has left it as it was. Start-up comes to its end in any case,
and every event on the way comes at its time. -/
theorem report_agrees {before last : System Report} (calm : before.Calm) (silent : before.Silent)
    (words : List String)
    (passed : Relation.ReflTransGen System.Passes
      (before.launch (System.valueOf (run .empty words))) last) :
    (∀ yield, last.yield? before.procedures.length = some yield →
      ∃ entries, Course (Item.ofWords before.host.around.files words) before.host.directory entries
          last.host.directory ∧
        entries.length = (Item.ofWords before.host.around.files words).length ∧
        yield.value.added = entries.filterMap Entry.added? ∧
        yield.value.failures = entries.filterMap Entry.failure? ∧
        last.host.ids = before.host.ids ++ yield.value.added) ∧
      ((∃ call next, last.procedures[before.procedures.length]? = some (.waiting call next)) →
        ∃ after, Relation.ReflTransGen System.PassesInTime last after ∧
          (after.yield? before.procedures.length).isSome = true) := by
  have ensures : (System.valueOf (run .empty words)).Ensures (fun yield now =>
      Agrees .empty (Item.ofWords before.host.around.files words) before.host yield.value now)
      before.host := by
    apply Flow.Ensures.bind
    apply (ensures_run .empty before.host words).mono
    intro report now agrees
    exact .pure agrees
  have under := (System.Under.launch calm silent ensures).run passed
  constructor
  · intro yield yielded
    obtain ⟨past, ⟨_, entries, course, same⟩, works⟩ :=
      under.yields yield (System.yielded_of_yield? yielded)
    rw [← works.directory] at course
    rw [same]
    refine ⟨entries, course, course.length_eq, ?_, ?_, ?_⟩
    · simp [Report.extend, Report.empty]
    · simp [Report.extend, Report.empty]
    · rw [Host.ids, course.keys]
      simp [Report.extend, Report.empty, Host.ids]
  · rintro ⟨call, next, waits⟩
    exact under.returns waits

/-- A script of two directives, for the second of which there is no factory. -/
def pulse : Files where
  root := .directory
    [("pulse", .file ("; one beat\nHeartbeat -interval-ms:50\nNothing\n".toList.map Char.toUInt8))]
  working := []

/-- A host with the builtin factories that nobody has used. -/
def outset : Host := Builtin.register (Host.fresh ⟨pulse, fun _ _ => none⟩ fun count => 100 * count)

theorem report_agrees_pulse :
    ∃ last yield, Relation.ReflTransGen System.Passes ((System.start outset 1).launch
        (System.valueOf (run .empty ["@/pulse", " ", "@/none", "TEST", "Heartbeat"]))) last ∧
      last.yield? 0 = some yield ∧
      yield.value = ⟨["Heartbeat:1.0:0.0/factory", "TestService:1.0:100.1/in-memory",
          "Heartbeat:1.0:200.2/factory"],
        [.service "Nothing" (.resolution "Nothing" "no factory registered for 'Nothing'"),
          .script "/none" .notFound]⟩ ∧
      last.host.ids = yield.value.added ∧
      ∃ entries, entries.length = 5 ∧
        Course (Item.ofWords pulse ["@/pulse", " ", "@/none", "TEST", "Heartbeat"]) outset.directory
          entries last.host.directory := by
  have saw : (((System.start outset 1).launch
      (System.valueOf (run .empty ["@/pulse", " ", "@/none", "TEST", "Heartbeat"]))).onwards?
        ((List.replicate 6 [Event.serve 0, .resume 0]).flatten)).bind
          (fun last => (last.yield? 0).map Yield.value) =
      some ⟨["Heartbeat:1.0:0.0/factory", "TestService:1.0:100.1/in-memory",
          "Heartbeat:1.0:200.2/factory"],
        [.service "Nothing" (.resolution "Nothing" "no factory registered for 'Nothing'"),
          .script "/none" .notFound]⟩ := by decide +kernel
  obtain ⟨last, passes, saw⟩ := Option.bind_eq_some_iff.mp saw
  obtain ⟨yield, yielded, value⟩ := Option.map_eq_some_iff.mp saw
  have passed := System.passes_of_onwards? passes
  obtain ⟨agrees, _⟩ := report_agrees (.start outset 1) (by rintro _ _ _ ⟨⟩) _ passed
  obtain ⟨entries, course, count, _, _, ids⟩ := agrees yield yielded
  refine ⟨last, yield, passed, yielded, value, ids, entries, ?_, course⟩
  rw [count]
  decide +kernel

end Bootstrap

end ServiceHost
