import ServiceHost.Proofs.Host.Bootstrap
import ServiceHost.Proofs.Resolver.Built

/-! The test of the host by itself: what the host is like afterwards.

The test service is deployed and added, and nothing else is touched, with one exception. If there is
no factory for the test service, all builtin factories are registered, and the one for the heartbeat
takes the place of another that was there under its name.
-/

set_option autoImplicit false

namespace ServiceHost

/-- Code that is held in memory is found, and the store stays as it is. -/
theorem Host.findCode_of_memory {host : Host} {resolver : ResolverId} {entries : Table Blob}
    (held : host.resolvers.get? resolver = some (.memory entries)) (name : String) :
    host.findCode resolver name = (entries.get? name, host) := by
  simp [findCode, Resolvers.findCode, Resolvers.depth, Resolvers.search, held, Resolvers.leafCode,
    Resolvers.replace_self held]

/-- To resolve a name leaves no mark on the store but that of the lookup. -/
theorem Registry.resolvers_run_resolve {host : Host} {name : String} {resolver : ResolverId}
    (deployed : host.deployed.get? name = some resolver) :
    ((resolve name).outcome.run host).2.resolvers = (host.findCode resolver name).2.resolvers := by
  cases looked : host.findCode resolver name with
  | mk code after =>
    cases code with
    | none => simp [resolve, Attempt.host, Attempt.act, deployed, looked]
    | some code =>
      cases built : host.factories.instantiate name code with
      | error cause => simp [resolve, Attempt.host, Attempt.act, deployed, looked, built]
      | ok blueprint =>
        have made : (after.make blueprint).2.resolvers = after.resolvers := by
          unfold Host.make
          split <;> rfl
        simp [resolve, Attempt.host, Attempt.act, deployed, looked, built, made]

theorem Source.resolvers_run {host : Host} {name : String} {resolver : ResolverId}
    (deployed : host.deployed.get? name = some resolver) (config : Properties) :
    (((resolved name).operation config).flow.run host).2.resolvers =
      (host.findCode resolver name).2.resolvers := by
  obtain ⟨resolvers, run⟩ := Registry.run_resolve host name
  rw [← Registry.resolvers_run_resolve deployed, operation, Operation.flow, Registry.addByName,
    Registry.loadByName, bind_assoc]
  cases supplied : host.supplied name with
  | error cause =>
    simp only [supplied] at run
    rw [Registry.run_entering_of_error run, run]
  | ok supply =>
    obtain ⟨blueprint, origin⟩ := supply
    simp only [supplied] at run
    rw [Registry.run_entering_of_ok run, run]
    exact congrArg (fun stopped => stopped.2.resolvers) (Registry.run_enter_start ..)

namespace Builtin

/-! ## The host that the test service is added to -/

variable {host now later : Host} {name : String}

theorem frame_deployTest (host : Host) :
    deployTest host = { host with
      factories := (deployTest host).factories
      deployed := host.deployed.insert testService host.resolvers.all.length
      resolvers :=
        (host.resolvers.add (.memory (Table.ofList [(testService, testCode)]))).2 } := by
  unfold deployTest
  split <;> rfl

theorem get?_factories_deployTest (host : Host) (name : String) :
    (deployTest host).factories.get? name =
      if host.factories.contains testService = true then host.factories.get? name
      else if name = heartbeat then some (factory heartbeat beating)
      else if name = testService then some (factory testService idling)
      else host.factories.get? name := by
  unfold deployTest
  split
  · rfl
  · exact ((host.factories.insert _ _).get?_insert ..).trans (by rw [Table.get?_insert])

/-- The test service is resolved by the code in memory, which is deployed for it alone. -/
theorem resolvers_run_selfTest (host : Host) :
    (((Source.resolved testService).operation Table.empty).flow.run (deployTest host)).2.resolvers =
      (deployTest host).resolvers := by
  have deployed : (deployTest host).deployed.get? testService =
      some host.resolvers.all.length := by
    rw [frame_deployTest, Table.get?_insert, if_pos rfl]
  have held : (deployTest host).resolvers.get? host.resolvers.all.length =
      some (.memory (Table.ofList [(testService, testCode)])) := by
    rw [frame_deployTest]
    exact List.getElem?_concat_length
  rw [Source.resolvers_run deployed, Host.findCode_of_memory held]

/-! ## What the test leaves as it was -/

/-- What stays as it was. The factories do if there is one for the test service, and but for the
builtin ones if not. Resolvers, servers and the directory may have more behind what there was, and
services may have gone on by themselves. -/
structure Stays (host now : Host) : Prop where
  factories : ∀ name, host.factories.contains testService = true ∨
    name ≠ testService ∧ name ≠ heartbeat → now.factories.get? name = host.factories.get? name
  deployed : ∀ name, name ≠ testService → now.deployed.get? name = host.deployed.get? name
  resolvers : ∀ id resolver, host.resolvers.get? id = some resolver →
    now.resolvers.get? id = some resolver
  directory : host.directory.entries <+: now.directory.entries
  servers : host.servers <+: now.servers
  services : ∀ id, id < host.services.length →
    Option.Rel Service.Works (host.service? id) (now.service? id)

theorem Stays.works (stays : Stays host now) (works : now.Works later) : Stays host later where
  factories name others := by rw [works.frame, stays.factories name others]
  deployed name other := by rw [works.frame, stays.deployed name other]
  resolvers id resolver there := by rw [works.frame, stays.resolvers id resolver there]
  directory := by rw [works.directory]; exact stays.directory
  servers := by rw [works.servers]; exact stays.servers
  services id known := Service.Works.rel_trans (stays.services id known) (works.works id)

/-- An addition to the host with the test service deployed touches nothing that was there. -/
theorem Stays.of_amid {entries : List (String × ServerId)} {added : List Server}
    (amid : (deployTest host).Amid now entries added)
    (store : now.resolvers = (deployTest host).resolvers) : Stays host now where
  factories name others := by
    rw [amid.factories, get?_factories_deployTest]
    rcases others with there | ⟨notTest, notHeartbeat⟩
    · rw [if_pos there]
    · rw [if_neg notTest, if_neg notHeartbeat, ite_self]
  deployed name other := by
    rw [amid.deployed, frame_deployTest, Table.get?_insert, if_neg other]
  resolvers id resolver there := by
    have bound := (List.getElem?_eq_some_iff.mp there).1
    rw [store, frame_deployTest]
    exact (List.getElem?_append_left bound).trans there
  directory := by
    have same : (deployTest host).directory = host.directory := by rw [frame_deployTest]
    rw [amid.directory, same]
    exact List.prefix_append ..
  servers := by
    have same : (deployTest host).servers = host.servers := by rw [frame_deployTest]
    rw [amid.servers, same]
    exact List.prefix_append ..
  services id known := by
    have same : (deployTest host).services = host.services := by rw [frame_deployTest]
    have onward := amid.others id (by rw [same]; exact Nat.ne_of_lt known)
    rwa [Host.service?, same] at onward

/-- Whatever the test service answers, the test comes to one of the ends of its addition. -/
theorem ensures_selfTest (host : Host) :
    selfTest.outcome.Ensures (fun outcome last => last.resolvers = (deployTest host).resolvers ∧
      ∃ talk, Addition (.resolved testService) Table.empty (deployTest host) last talk
        (.ended ⟨.entered outcome, outcome.toOption⟩)) host := by
  obtain ⟨halt, first, part, runs, adding⟩ :=
    Addition.begins (.resolved testService) Table.empty (deployTest host)
  have store : first.resolvers = (deployTest host).resolvers := by
    rw [← resolvers_run_selfTest, runs]
  have ensures := ((Addition.invariant ..).attending first).ensures
    ⟨.refl first, [], adding⟩ part.deals.length runs
  have length : host.services.length ≤ (deployTest host).services.length := by
    rw [frame_deployTest]
  rw [Source.operation, Operation.flow, entering, bind_pure_comp] at ensures
  refine .of_run (by simp [selfTest, Attempt.modify]) length (ensures.of_map.mono ?_)
  rintro outcome last ⟨⟨_, _, _, _, _, rfl⟩, adding⟩
  exact ⟨store, adding⟩

/-- The factories that there were are all kept, unless another one for the heartbeat gives way. -/
theorem factories_stay_iff (same : now.factories = (deployTest host).factories) :
    (∀ name, name ≠ testService → host.factories.contains name = true →
      now.factories.get? name = host.factories.get? name) ↔
    host.factories.contains testService = true ∨ host.factories.contains heartbeat = false ∨
      host.factories.get? heartbeat = some (factory heartbeat beating) := by
  rw [same]
  constructor
  · intro stay
    by_contra! apart
    obtain ⟨unfit, there, other⟩ := apart
    have kept := stay heartbeat (by decide) (by simpa using there)
    rw [get?_factories_deployTest, if_neg unfit, if_pos rfl] at kept
    exact other kept.symm
  · intro suits name notTest there
    rw [get?_factories_deployTest, if_neg notTest]
    by_cases fit : host.factories.contains testService = true
    · rw [if_pos fit]
    rw [if_neg fit]
    by_cases beats : name = heartbeat
    · subst beats
      rw [if_pos rfl]
      rcases suits with suits | absent | builtin
      · exact absurd suits fit
      · cases there.symm.trans absent
      · exact builtin.symm
    · rw [if_neg beats]

/-- Exactly one server has come to the end of the directory, around a service that is new, and under
an id that was free. -/
def Appends (host now : Host) (number : ServerId) : Prop :=
  ∃ server : Server, now.directory.entries = host.directory.entries ++ [(server.id, number)] ∧
    now.servers = host.servers ++ [server] ∧ now.server? number = some server ∧
    server.service = some host.services.length ∧ host.directory.get? server.id = none

/-- What the test has come to. -/
structure Tested (host : Host) (outcome : Except HostError ServerId) (now : Host) : Prop where
  stays : Stays host now
  appends : ∀ number, outcome = .ok number → Appends host now number
  restored : ∀ cause, outcome = .error cause → now.directory = host.directory
  factories : now.factories = (deployTest host).factories

theorem tested_of_addition {outcome : Except HostError ServerId} {talk : List Exchange}
    (store : now.resolvers = (deployTest host).resolvers)
    (adding : Addition (.resolved testService) Table.empty (deployTest host) now talk
      (.ended ⟨.entered outcome, outcome.toOption⟩)) : Tested host outcome now := by
  have directory : (deployTest host).directory = host.directory := by rw [frame_deployTest]
  cases outcome with
  | error cause =>
    obtain ⟨added, amid, -⟩ := adding.restored
    refine ⟨.of_amid amid store, (by rintro _ ⟨⟩), fun _ _ => ?_, amid.factories⟩
    rw [← directory]
    exact Table.ext (amid.directory.trans (List.append_nil _))
  | ok number =>
    obtain ⟨server, amid, there, held, vacant, -⟩ := adding.gained
    refine ⟨.of_amid amid store, ?_, (by rintro _ ⟨⟩), amid.factories⟩
    rintro _ ⟨⟩
    have parts := And.intro amid.directory amid.servers
    rw [frame_deployTest] at parts held vacant
    exact ⟨server, parts.1, parts.2, there, held, vacant⟩

/-- While nothing else uses the host, its self-test leaves everything as it was but what belongs to
the test service, whatever factories and resolvers there were: other deployments, the servers, and
the factories, if one for the test service is among them. If it succeeds there is exactly one more
server at the end of the directory, and if not there is none. Without a factory for the test service
the other factories are kept exactly if no one had registered a heartbeat of their own. The test
comes to its end in any case. -/
theorem selfTest_leaves_the_rest {before last : System (Except HostError ServerId)}
    (calm : before.Calm) (silent : before.Silent)
    (passed : Relation.ReflTransGen System.Passes
      (before.launch (System.valueOf selfTest.outcome)) last) :
    (∀ yield, last.yield? before.procedures.length = some yield →
      Stays before.host last.host ∧
      (∀ number, yield.value = .ok number → Appends before.host last.host number) ∧
      (∀ cause, yield.value = .error cause → last.host.directory = before.host.directory) ∧
      ((∀ name, name ≠ testService → before.host.factories.contains name = true →
          last.host.factories.get? name = before.host.factories.get? name) ↔
        before.host.factories.contains testService = true ∨
          before.host.factories.contains heartbeat = false ∨
          before.host.factories.get? heartbeat = some (factory heartbeat beating))) ∧
      ((∃ call next, last.procedures[before.procedures.length]? = some (.waiting call next)) →
        ∃ after, Relation.ReflTransGen System.PassesInTime last after ∧
          (after.yield? before.procedures.length).isSome = true) := by
  have ensures : (System.valueOf selfTest.outcome).Ensures
      (fun yield now => Tested before.host yield.value now) before.host := by
    apply Flow.Ensures.bind
    apply (ensures_selfTest before.host).mono
    rintro outcome now ⟨store, talk, adding⟩
    exact .pure (tested_of_addition store adding)
  have under := (System.Under.launch calm silent ensures).run passed
  constructor
  · intro yield yielded
    obtain ⟨past, tested, works⟩ := under.yields yield (System.yielded_of_yield? yielded)
    refine ⟨tested.stays.works works, fun number succeeds => ?_, fun cause fails => ?_,
      factories_stay_iff (by rw [works.frame, tested.factories])⟩
    · obtain ⟨server, directory, servers, there, rest⟩ := tested.appends number succeeds
      refine ⟨server, by rw [works.directory, directory], by rw [works.servers, servers], ?_, rest⟩
      rwa [Host.server?, works.servers]
    · rw [works.directory, tested.restored cause fails]
  · rintro ⟨call, next, waits⟩
    exact under.returns waits

/-- A factory of a caller, whose services idle. -/
def callers (typeName : String) : Factory Blueprint := fun _ =>
  .ok ⟨"", .threaded typeName "2" idling⟩

/-- The type name of what a factory has made, if that is a service with a run loop. -/
def typeName? : Except String Blueprint → Option String
  | .ok ⟨_, .threaded typeName _ _⟩ => some typeName
  | _ => none

/-- A host with a server, and with another factory for the heartbeat. -/
def furnished : Host :=
  { Host.fresh ⟨⟨.directory [], []⟩, fun _ _ => none⟩ fun count => 100 * count with
    services := [⟨"", .threaded (.new "Old" "1" "5.0" idling)⟩]
    servers := [⟨"Old:1:5.0/local", "local", some 0, none⟩]
    directory := Table.ofList [("Old:1:5.0/local", 0)]
    deployed := Table.ofList [("Other", 0)]
    resolvers := ⟨[.fileSystem "/code"]⟩
    factories := Table.ofList [(heartbeat, callers "Mine")]
    stamped := 1 }

theorem selfTest_leaves_the_rest_furnished :
    ∃ last yield, Relation.ReflTransGen System.Passes
        ((System.start (furnished.register testService (callers "Trial")) 1).launch
          (System.valueOf selfTest.outcome)) last ∧
      last.yield? 0 = some yield ∧ yield.value = .ok 1 ∧
      last.host.ids = ["Old:1:5.0/local", "Trial:2:100.1/in-memory"] ∧
      last.host.factories.get? heartbeat = furnished.factories.get? heartbeat ∧
      last.host.deployed.get? "Other" = some 0 := by
  have saw : (((System.start (furnished.register testService (callers "Trial")) 1).launch
      (System.valueOf selfTest.outcome)).onwards? [.serve 0, .resume 0, .serve 0, .resume 0]).bind
        (fun last => (last.yield? 0).map fun yield => (yield.value, last.host.ids)) =
      some (.ok 1, ["Old:1:5.0/local", "Trial:2:100.1/in-memory"]) := by decide +kernel
  obtain ⟨last, passes, saw⟩ := Option.bind_eq_some_iff.mp saw
  obtain ⟨yield, yielded, same⟩ := Option.map_eq_some_iff.mp saw
  have passed := System.passes_of_onwards? passes
  obtain ⟨stays, _⟩ :=
    (selfTest_leaves_the_rest (.start _ 1) (by rintro _ _ _ ⟨⟩) passed).1 yield yielded
  refine ⟨last, yield, passed, yielded, congrArg Prod.fst same, congrArg Prod.snd same, ?_, ?_⟩
  · rw [stays.factories heartbeat (.inl (by decide))]
    rfl
  · rw [stays.deployed "Other" (by decide)]
    rfl

/-- A caller's factory for the heartbeat is gone after the test, if there was none for the test
service. -/
theorem selfTest_replaces_heartbeat :
    ∃ last yield, Relation.ReflTransGen System.Passes
        ((System.start furnished 1).launch (System.valueOf selfTest.outcome)) last ∧
      last.yield? 0 = some yield ∧ yield.value = .ok 1 ∧
      furnished.factories.contains heartbeat = true ∧
      last.host.factories.get? heartbeat ≠ furnished.factories.get? heartbeat := by
  have saw : (((System.start furnished 1).launch
      (System.valueOf selfTest.outcome)).onwards? [.serve 0, .resume 0, .serve 0, .resume 0]).bind
        (fun last => (last.yield? 0).map fun yield => (yield.value,
          (last.host.factories.get? heartbeat).map fun build => typeName? (build []))) =
      some (.ok 1, some (some "Heartbeat")) := by decide +kernel
  obtain ⟨last, passes, saw⟩ := Option.bind_eq_some_iff.mp saw
  obtain ⟨yield, yielded, same⟩ := Option.map_eq_some_iff.mp saw
  refine ⟨last, yield, System.passes_of_onwards? passes, yielded, congrArg Prod.fst same, by decide,
    fun kept => ?_⟩
  have builds : (last.host.factories.get? heartbeat).map (fun build => typeName? (build [])) =
      some (some "Heartbeat") := congrArg Prod.snd same
  rw [kept] at builds
  revert builds
  decide

end Builtin
end ServiceHost
