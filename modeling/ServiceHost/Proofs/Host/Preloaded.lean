import ServiceHost.Host.Preload
import ServiceHost.Host.SelfTest
import ServiceHost.Proofs.Host.Deployment
import ServiceHost.Proofs.Host.Joining
import ServiceHost.Proofs.Plugin.Archives

/-! Preloading, archive by archive: what each of them adds to the directory, which names are deployed,
and what these names are resolved to afterwards.

The services are made before the first of them is asked for anything. After that an archive that
fails, at whatever point, leaves nothing to the others but a name that resolves.
-/

set_option autoImplicit false

namespace ServiceHost

theorem Table.get?_insertAll_const {α : Type} (table : Table α) (names : List String) (value : α)
    (key : String) :
    (table.insertAll (names.map fun name => (name, value))).get? key =
      if key ∈ names then some value else table.get? key := by
  induction names generalizing table with
  | nil => rfl
  | cons name rest ih =>
    have step : table.insertAll ((name :: rest).map fun name => (name, value)) =
        (table.insert name value).insertAll (rest.map fun name => (name, value)) := rfl
    rw [step, ih, get?_insert]
    by_cases later : key ∈ rest <;> by_cases same : key = name <;> simp [later, same]

/-! ## Services that are made one after the other -/

namespace Host

variable (host : Host) (blueprint : Blueprint) (blueprints : List Blueprint)

theorem frame_make :
    (host.make blueprint).2 = { host with
      services := (host.make blueprint).2.services
      stamped := (host.make blueprint).2.stamped } := by
  unfold make
  split <;> rfl

theorem length_services_make :
    (host.make blueprint).2.services.length = host.services.length + 1 := by
  obtain ⟨service, services, -⟩ := host.services_make blueprint
  rw [services, List.length_append, List.length_singleton]

/-- Makes services in order. -/
def makeEach : Host := blueprints.foldl (fun host blueprint => (host.make blueprint).2) host

theorem frame_makeEach :
    host.makeEach blueprints = { host with
      services := (host.makeEach blueprints).services
      stamped := (host.makeEach blueprints).stamped } := by
  induction blueprints generalizing host with
  | nil => rfl
  | cons first rest ih =>
    have step : host.makeEach (first :: rest) = (host.make first).2.makeEach rest := rfl
    rw [step, ih, frame_make]

theorem makeEach_loaders (loaders : Nat) :
    { host with loaders }.makeEach blueprints = { host.makeEach blueprints with loaders } := by
  induction blueprints generalizing host with
  | nil => rfl
  | cons first rest ih =>
    have same : ({ host with loaders }.make first).2 = { (host.make first).2 with loaders } := by
      unfold make
      split <;> rfl
    exact (congrArg (makeEach · rest) same).trans (ih _)

end Host

namespace Plugin

/-- The factory of its class builds something from the bytes of an archive. -/
def Archive.Builds (factories : FactoryTable Blueprint) (archive : Archive) : Prop :=
  ∃ factory blueprint, factories.get? archive.className = some factory ∧
    factory archive.code = .ok blueprint

theorem builds_iff {factories : FactoryTable Blueprint} {archive : Archive} :
    archive.Builds factories ↔
      ∃ blueprint, factories.instantiate archive.className archive.code = .ok blueprint := by
  unfold Archive.Builds FactoryTable.instantiate
  cases factories.get? archive.className with
  | none => simp
  | some factory => cases made : factory archive.code <;> simp [made]

/-- What comes of archives one after the other, if services are made from that number on, by their
calls and the answers: what the directory gains at its end, and the servers there are in addition. -/
inductive Course (factories : FactoryTable Blueprint) :
    List Archive → ServiceId → Table ServerId → ServerId → List Exchange →
      List (String × ServerId) → List Server → Prop where
  | done {service : ServiceId} {directory : Table ServerId} {number : ServerId} :
      Course factories [] service directory number [] [] []
  | unbuilt {archive : Archive} {rest : List Archive} {service : ServiceId}
      {directory : Table ServerId} {number : ServerId} {talk : List Exchange}
      {entries : List (String × ServerId)} {added : List Server} :
      ¬ archive.Builds factories →
      Course factories rest service directory number talk entries added →
      Course factories (archive :: rest) service directory number talk entries added
  | built {archive : Archive} {rest : List Archive} {service : ServiceId}
      {directory middle : Table ServerId} {number : ServerId} {talk more : List Exchange}
      {entries others : List (String × ServerId)} {added further : List Server} :
      archive.Builds factories → Joins service directory number talk entries added →
      middle.entries = directory.entries ++ entries →
      Course factories rest (service + 1) middle (number + added.length) more others further →
      Course factories (archive :: rest) service directory number (talk ++ more)
        (entries ++ others) (added ++ further)

/-! ## The services that are made -/

/-- The classes that are built, with the numbers of their services. -/
def numbered (factories : FactoryTable Blueprint) :
    List Archive → ServiceId → List (String × ServiceId)
  | [], _ => []
  | archive :: rest, service =>
    match factories.instantiate archive.className archive.code with
    | .ok _ => (archive.className, service) :: numbered factories rest (service + 1)
    | .error _ => numbered factories rest service

variable {factories : FactoryTable Blueprint} {archive : Archive} {archives rest : List Archive}
  {service : ServiceId}

theorem numbered_cons_of_builds (builds : archive.Builds factories) :
    numbered factories (archive :: rest) service =
      (archive.className, service) :: numbered factories rest (service + 1) := by
  obtain ⟨blueprint, made⟩ := builds_iff.mp builds
  simp only [numbered, made]

theorem numbered_cons_of_not_builds (unbuilt : ¬ archive.Builds factories) :
    numbered factories (archive :: rest) service = numbered factories rest service := by
  cases made : factories.instantiate archive.className archive.code with
  | ok blueprint => exact absurd (builds_iff.mpr ⟨blueprint, made⟩) unbuilt
  | error cause => simp only [numbered, made]

theorem lt_of_mem_numbered {entry : String × ServiceId}
    (member : entry ∈ numbered factories archives service) :
    entry.2 < service + (numbered factories archives service).length := by
  induction archives generalizing service with
  | nil => cases member
  | cons archive rest ih =>
    by_cases builds : archive.Builds factories
    · rw [numbered_cons_of_builds builds] at member ⊢
      rw [List.length_cons]
      rcases List.mem_cons.mp member with rfl | later
      · exact Nat.lt_add_of_pos_right (Nat.succ_pos _)
      · have bound := ih later
        rwa [Nat.add_assoc, Nat.add_comm 1] at bound
    · rw [numbered_cons_of_not_builds builds] at member ⊢
      exact ih member

theorem mem_names_numbered {name : String} :
    name ∈ (numbered factories archives service).map Prod.fst ↔
      ∃ archive ∈ archives, archive.Builds factories ∧ archive.className = name := by
  induction archives generalizing service with
  | nil => simp [numbered]
  | cons archive rest ih =>
    by_cases builds : archive.Builds factories
    · simp [numbered_cons_of_builds builds, ih, builds, eq_comm]
    · simp [numbered_cons_of_not_builds builds, ih, builds]

/-- What is built from archives under a loader. -/
def builtFrom (factories : FactoryTable Blueprint) (loader : Loader) (archives : List Archive) :
    List (Instance Blueprint) :=
  (archives.map (instantiate factories loader)).filterMap Prod.snd

theorem makeAll_cons (first : Instance Blueprint) (rest : List (Instance Blueprint)) (host : Host) :
    makeAll (first :: rest) host =
      ((first.className, host.services.length) :: (makeAll rest (host.make first.value).2).1,
        (makeAll rest (host.make first.value).2).2) := by
  rw [makeAll, ← host.id_make first.value]

theorem makeAll_snd (built : List (Instance Blueprint)) (host : Host) :
    (makeAll built host).2 = host.makeEach (built.map Instance.value) := by
  induction built generalizing host with
  | nil => rfl
  | cons first rest ih => exact (congrArg Prod.snd (makeAll_cons ..)).trans (ih _)

/-- What the factories build from the archives of a loader. -/
def Loader.blueprints (loader : Loader) (factories : FactoryTable Blueprint) : List Blueprint :=
  loader.archives.filterMap fun archive =>
    (factories.instantiate archive.className archive.code).toOption

theorem values_builtFrom (factories : FactoryTable Blueprint) (loader : Loader) :
    (builtFrom factories loader loader.archives).map Instance.value =
      loader.blueprints factories := by
  rw [builtFrom, Loader.blueprints, List.filterMap_map, List.map_filterMap]
  congr 1
  funext archive
  simp only [Function.comp_apply, instantiate]
  cases factories.instantiate archive.className archive.code <;> rfl

theorem makeAll_builtFrom (factories : FactoryTable Blueprint) (loader : Loader)
    (archives : List Archive) (host : Host) :
    (makeAll (builtFrom factories loader archives) host).1 =
        numbered factories archives host.services.length ∧
      (makeAll (builtFrom factories loader archives) host).2.services.length =
        host.services.length + (numbered factories archives host.services.length).length := by
  induction archives generalizing host with
  | nil => exact ⟨rfl, rfl⟩
  | cons archive rest ih =>
    cases made : factories.instantiate archive.className archive.code with
    | error cause =>
      have unbuilt : ¬ archive.Builds factories := by simp [builds_iff, made]
      have same : builtFrom factories loader (archive :: rest) = builtFrom factories loader rest := by
        simp [builtFrom, instantiate, made]
      rw [same, numbered_cons_of_not_builds unbuilt]
      exact ih host
    | ok blueprint =>
      have builds : archive.Builds factories := builds_iff.mpr ⟨blueprint, made⟩
      have first : builtFrom factories loader (archive :: rest) =
          ⟨archive.className, loader, blueprint⟩ :: builtFrom factories loader rest := by
        simp [builtFrom, instantiate, made]
      obtain ⟨own, count⟩ := ih (host.make blueprint).2
      rw [host.length_services_make] at own count
      rw [first, makeAll_cons, numbered_cons_of_builds builds, own, count, List.length_cons]
      exact ⟨rfl, by omega⟩

/-! ## Adding them one after the other -/

/-- Archives have been gone through, and the resolver is deployed for what was built of them. -/
def Admitted (factories : FactoryTable Blueprint) (archives : List Archive) (service : ServiceId)
    (resolver : ResolverId) (host : Host) (talk : List Exchange) (last : Host) : Prop :=
  ∃ entries added,
    Course factories archives service host.directory host.servers.length talk entries added ∧
    host.Gathered last
      (((numbered factories archives service).map Prod.fst).map fun name => (name, resolver))
      entries added

namespace Admitted

variable {resolver : ResolverId} {host now later : Host} {talk : List Exchange}

theorem works (admitted : Admitted factories archives service resolver host talk now)
    (works : now.Works later) : Admitted factories archives service resolver host talk later := by
  obtain ⟨entries, added, course, gathered⟩ := admitted
  exact ⟨entries, added, course, gathered.works works⟩

theorem get?_deployed (admitted : Admitted factories archives service resolver host talk now)
    (name : String) : now.deployed.get? name =
      if name ∈ (numbered factories archives service).map Prod.fst then some resolver
      else host.deployed.get? name := by
  obtain ⟨entries, added, -, gathered⟩ := admitted
  rw [gathered.deployed, Table.get?_insertAll_const]

theorem deployed (admitted : Admitted factories archives service resolver host talk now)
    {archive : Archive} (member : archive ∈ archives) (builds : archive.Builds factories) :
    now.deployed.get? archive.className = some resolver := by
  rw [admitted.get?_deployed, if_pos (mem_names_numbered.mpr ⟨archive, member, builds, rfl⟩)]

theorem others (admitted : Admitted factories archives service resolver host talk now)
    {name : String}
    (apart : ∀ archive ∈ archives, archive.Builds factories → archive.className ≠ name) :
    now.deployed.get? name = host.deployed.get? name := by
  rw [admitted.get?_deployed, if_neg]
  intro member
  obtain ⟨archive, there, builds, own⟩ := mem_names_numbered.mp member
  exact apart archive there builds own

end Admitted

theorem heeds_addAll (resolver : ResolverId) (host : Host)
    (known : ∀ entry ∈ numbered factories archives service, entry.2 < host.services.length) :
    (addAll resolver (numbered factories archives service)).Heeds
      (fun talk _ => Admitted factories archives service resolver host talk) host := by
  induction archives generalizing service host with
  | nil => exact .pure ⟨[], [], .done, .refl host⟩
  | cons archive rest ih =>
    by_cases builds : archive.Builds factories
    · have own : numbered factories (archive :: rest) service = _ := numbered_cons_of_builds builds
      rw [own] at known ⊢
      obtain ⟨here, others⟩ := List.forall_mem_cons.mp known
      have there : service < (host.deploy archive.className resolver).services.length := here
      simp only [addAll]
      refine .of_run (Flow.run_modify_bind ..) (Nat.le_refl _)
        ((Registry.heeds_add there Table.empty).bind ?_)
      rintro talk outcome middle grows ⟨entries, added, joins, joined⟩
      have gathered := (Host.Gathered.deploy host archive.className resolver).trans joined
      -- What is put on record of a service that did not start makes no difference to the others.
      have onward : ∀ start : Host, start.services.length = middle.services.length →
          host.Gathered start [(archive.className, resolver)] entries added →
          (addAll resolver (numbered factories rest (service + 1))).Heeds (fun more _ =>
            Admitted factories (archive :: rest) service resolver host (talk ++ more)) start := by
        intro start same gathered
        have number : start.servers.length = host.servers.length + added.length := by
          rw [gathered.servers, List.length_append]
        refine (ih start fun entry member => ?_).mono ?_
        · rw [same]
          exact Nat.lt_of_lt_of_le (others entry member) grows
        · rintro more _ last ⟨later, further, course, onward⟩
          rw [number] at course
          refine ⟨_, _, .built builds joins gathered.directory course, ?_⟩
          rw [own]
          exact gathered.trans onward
      cases outcome with
      | ok server => exact onward middle rfl gathered
      | error cause =>
        exact .of_run (Flow.run_modify_bind ..) (Nat.le_refl _) (onward _ rfl (gathered.error _))
    · rw [numbered_cons_of_not_builds builds] at known ⊢
      refine (ih host known).mono ?_
      rintro talk _ last ⟨entries, added, course, gathered⟩
      refine ⟨entries, added, .unbuilt builds course, ?_⟩
      rwa [numbered_cons_of_not_builds builds]

/-! ## The directory that is opened -/

/-- The loader that preloading makes: it holds the archives that there are then. -/
def loaderFor (dir : String) (host : Host) : Loader :=
  ⟨host.loaders + 1, dir, scan designated? host.around.files dir⟩

/-- The services of a directory, and the host that made them. -/
def madeFor (dir : String) (host : Host) : List (String × ServiceId) × Host :=
  makeAll (builtFrom host.factories (loaderFor dir host) (loaderFor dir host).archives)
    { host with loaders := host.loaders + 1 }

/-- The host before the first service is added. -/
def opened (dir : String) (host : Host) : Host := (openDirectory dir host).2

theorem frame_madeFor (dir : String) (host : Host) :
    (madeFor dir host).2 = { host with
      services := (madeFor dir host).2.services
      stamped := (madeFor dir host).2.stamped
      loaders := host.loaders + 1 } := by
  rw [madeFor, makeAll_snd, Host.frame_makeEach]

theorem openDirectory_fst (dir : String) (host : Host) :
    (openDirectory dir host).1 = (host.resolvers.all.length,
      numbered host.factories (loaderFor dir host).archives host.services.length) := by
  have made : (openDirectory dir host).1 =
      ((madeFor dir host).2.resolvers.all.length, (madeFor dir host).1) := rfl
  rw [made, frame_madeFor]
  exact congrArg _ (makeAll_builtFrom ..).1

theorem frame_opened (dir : String) (host : Host) :
    opened dir host = { host with
      services := (opened dir host).services
      stamped := (opened dir host).stamped
      log := (opened dir host).log
      loaders := host.loaders + 1
      resolvers := (host.resolvers.add (.plugins ⟨dir, some (loaderFor dir host)⟩)).2 } := by
  have made : opened dir host = { (madeFor dir host).2 with
      resolvers :=
        ((madeFor dir host).2.resolvers.add (.plugins ⟨dir, some (loaderFor dir host)⟩)).2
      log := (opened dir host).log } := rfl
  rw [made, frame_madeFor]

theorem length_services_opened (dir : String) (host : Host) :
    (opened dir host).services.length = host.services.length +
      (numbered host.factories (loaderFor dir host).archives host.services.length).length :=
  (makeAll_builtFrom host.factories (loaderFor dir host) _
    { host with loaders := host.loaders + 1 }).2

theorem services_opened (dir : String) (host : Host) :
    (opened dir host).services =
      (host.makeEach ((loaderFor dir host).blueprints host.factories)).services := by
  have made : (opened dir host).services = (madeFor dir host).2.services := rfl
  rw [made, madeFor, makeAll_snd, values_builtFrom, Host.makeEach_loaders]

theorem services_run_addAll {β : Type} (resolver : ResolverId) (services : List (String × ServiceId))
    (next : Unit → Flow β) (still : ∀ host : Host, ((next ()).run host).2 = host) (host : Host) :
    ((addAll resolver services >>= next).run host).2.services = host.services := by
  cases services with
  | nil => exact congrArg Host.services (still host)
  | cons first rest =>
    obtain ⟨className, service⟩ := first
    simp only [addAll, bind_assoc, Flow.run_modify_bind, Registry.host_run_add_bind]
    rfl

/-- All services are made before the first of them is asked for anything. -/
theorem services_launch (dir : String) (system : System ResolverId) :
    (system.launch (System.valueOf (preload dir))).host.services =
      (system.host.makeEach
        ((loaderFor dir system.host).blueprints system.host.factories)).services := by
  have run : ((System.valueOf (preload dir)).run system.host).2.services =
      (opened dir system.host).services := by
    simp only [System.valueOf, preload, bind_assoc, Flow.run_act_bind]
    exact services_run_addAll _ _ _ (fun _ => rfl) _
  rw [System.host_launch, run, services_opened]

/-- Whatever the services answer, preloading goes through all archives that there were at first. -/
theorem heeds_preload (dir : String) (host : Host) :
    (preload dir).Heeds (fun talk resolver last => resolver = host.resolvers.all.length ∧
      Admitted host.factories (loaderFor dir host).archives host.services.length resolver
        (opened dir host) talk last) host := by
  have length := length_services_opened dir host
  refine .of_run (Flow.run_act_bind ..) (by rw [opened] at length; omega) ?_
  rw [openDirectory_fst]
  refine (heeds_addAll host.resolvers.all.length (opened dir host) fun entry member => ?_).bind ?_
  · rw [length]
    exact lt_of_mem_numbered member
  · intro talk _ last _ admitted
    exact .pure ⟨rfl, by rwa [List.append_nil]⟩

/-! ## What a deployed class is resolved to -/

theorem Loader.code?_first {loader : Loader} {front back : List Archive} {first : Archive}
    (split : loader.archives = front ++ first :: back)
    (foremost : ∀ earlier ∈ front, earlier.className ≠ first.className) :
    loader.code? first.className = some first.code := by
  have found : loader.archives.find? (·.className == first.className) = some first := by
    rw [List.find?_eq_some_iff_append]
    refine ⟨beq_self_eq_true _, front, back, split, fun earlier member => ?_⟩
    simpa using foremost earlier member
  rw [code?, found, Option.map_some]

/-- A name under which a loader is deployed is resolved by it, and nothing else is changed. -/
theorem run_resolve_of_loader {host : Host} {name : String} {resolver : ResolverId} {dir : String}
    {loader : Loader} {code : Blob} (deployed : host.deployed.get? name = some resolver)
    (there : host.resolvers.get? resolver = some (.plugins ⟨dir, some loader⟩))
    (found : loader.code? name = some code) :
    (Registry.resolve name).outcome.run host =
      match host.factories.instantiate name code with
      | .ok blueprint =>
        (.done (.ok (host.services.length, loader.describe)), (host.make blueprint).2)
      | .error cause => (.done (.error (.resolution name cause.message)), host) := by
  have same : host.resolvers.replace resolver (.plugins ⟨dir, some loader⟩) = host.resolvers := by
    obtain ⟨bound, there⟩ := List.getElem?_eq_some_iff.mp there
    rw [Resolvers.replace, ← there, List.set_getElem_self]
  have looked : host.findCode resolver name = (some code, host) := by
    simp [Host.findCode, Resolvers.findCode, Resolvers.depth, Resolvers.search, there,
      Resolvers.leafCode, Preloader.code?, found, same]
  have label : host.resolvers.describe resolver = loader.describe := by
    simp [Resolvers.describe, Resolvers.depth, Resolvers.describeWithin, there, Preloader.describe]
  cases built : host.factories.instantiate name code with
  | ok blueprint =>
    simp [Registry.resolve, Attempt.host, Attempt.act, deployed, looked, label, built, Host.id_make]
  | error cause =>
    simp [Registry.resolve, Attempt.host, Attempt.act, deployed, looked, built]

/-! ## Preloading in a host that nothing else uses -/

/-- What preloading under a loader has made of a host, by the calls it made and the answers. -/
structure Preloaded (host last : Host) (loader : Loader) (resolver : ResolverId)
    (talk : List Exchange) : Prop where
  /-- The archives are those of the directory, in the order of the file names. -/
  found : ∃ names passed,
    Found Toml.read host.around.files loader.dir loader.archives names passed
  /-- The directory goes on with the ids of those whose service was built and has started. -/
  added : ∃ entries servers,
    Course host.factories loader.archives host.services.length host.directory host.servers.length
      talk entries servers ∧
    last.directory.entries = host.directory.entries ++ entries ∧
    last.servers = host.servers ++ servers ∧ last.ids = host.ids ++ entries.map Prod.fst
  /-- The resolver is deployed for the classes that were built, and for no others. -/
  deployed : ∀ archive ∈ loader.archives, archive.Builds host.factories →
    last.deployed.get? archive.className = some resolver
  others : ∀ name, (∀ archive ∈ loader.archives, archive.Builds host.factories →
      archive.className ≠ name) → last.deployed.get? name = host.deployed.get? name
  store : (resolver, last.resolvers) =
    host.resolvers.add (.plugins ⟨loader.dir, some loader⟩)
  factories : last.factories = host.factories
  /-- Resolving such a class gives its factory the bytes of the first archive that designates it. -/
  resolves : ∀ front first back, loader.archives = front ++ first :: back →
    (∀ earlier ∈ front, earlier.className ≠ first.className) →
    (∃ archive ∈ loader.archives, archive.Builds host.factories ∧
      archive.className = first.className) →
    ∃ factory, host.factories.get? first.className = some factory ∧
      (Registry.resolve first.className).outcome.run last =
        match factory first.code with
        | .ok blueprint =>
          (.done (.ok (last.services.length, loader.describe)), (last.make blueprint).2)
        | .error reason => (.done (.error (.resolution first.className
            (InstantiateError.failed first.className reason).message)), last)

theorem preloaded_of_admitted {dir : String} {host last : Host} {resolver : ResolverId}
    {talk : List Exchange} (same : resolver = host.resolvers.all.length)
    (admitted : Admitted host.factories (loaderFor dir host).archives host.services.length resolver
      (opened dir host) talk last) : Preloaded host last (loaderFor dir host) resolver talk := by
  have parts := admitted
  obtain ⟨entries, servers, course, gathered⟩ := parts
  have store : last.resolvers =
      (host.resolvers.add (.plugins ⟨dir, some (loaderFor dir host)⟩)).2 := by
    rw [gathered.frame, frame_opened]
  have factories : last.factories = host.factories := by rw [gathered.frame, frame_opened]
  constructor
  case found => exact exists_found Toml.read host.around.files dir
  case added =>
    have directory := gathered.directory
    have all := gathered.servers
    rw [frame_opened] at course directory all
    refine ⟨entries, servers, course, directory, all, ?_⟩
    rw [Host.ids, Host.ids, Table.keys, Table.keys, directory, List.map_append]
  case deployed => exact fun archive member builds => admitted.deployed member builds
  case others =>
    intro name apart
    rw [admitted.others apart, frame_opened]
  case store => rw [store, same]; rfl
  case factories => exact factories
  case resolves =>
    rintro front first back split foremost ⟨archive, member, builds, own⟩
    have deployed := own ▸ admitted.deployed member builds
    have there : last.resolvers.get? resolver =
        some (.plugins ⟨dir, some (loaderFor dir host)⟩) := by
      rw [store, same]
      exact List.getElem?_concat_length
    have run := run_resolve_of_loader deployed there (Loader.code?_first split foremost)
    obtain ⟨factory, _, known, _⟩ := builds
    rw [own] at known
    refine ⟨factory, known, ?_⟩
    rw [run, factories, FactoryTable.instantiate, known]
    cases made : factory first.code <;> simp only [made]

/-- While nothing else uses the host, preloading goes through the archives of the directory in the
order of their names, and past every failure. The services are made first, of what the factories
build. What they answer decides which ids follow those that there were; which names are deployed,
and what they are resolved to afterwards, does not hang on the answers. Preloading comes to its end
in any case, and every event on the way comes at its time. -/
theorem preload_archive_by_archive {before last : System ResolverId} {answers : List CallAnswer}
    (calm : before.Calm) (silent : before.Silent) (dir : String)
    (hears : System.Hears before.procedures.length
      (before.launch (System.valueOf (preload dir))) answers last) :
    ∃ loader, loader.id = before.host.loaders + 1 ∧ loader.dir = dir ∧
      (before.launch (System.valueOf (preload dir))).host.services =
        (before.host.makeEach (loader.blueprints before.host.factories)).services ∧
      (∀ yield, last.yield? before.procedures.length = some yield →
        ∃ talk, talk.map Exchange.answer = answers ∧
          Preloaded before.host last.host loader yield.value talk) ∧
      ((∃ call next, last.procedures[before.procedures.length]? = some (.waiting call next)) →
        ∃ after, Relation.ReflTransGen System.PassesInTime last after ∧
          (after.yield? before.procedures.length).isSome = true) := by
  have heeds : (System.valueOf (preload dir)).Heeds (fun talk yield now =>
      yield.value = before.host.resolvers.all.length ∧
        Admitted before.host.factories (loaderFor dir before.host).archives
          before.host.services.length yield.value (opened dir before.host) talk now)
      before.host := by
    refine (heeds_preload dir before.host).bind fun talk resolver now _ admitted => ?_
    exact .pure (by rwa [List.append_nil])
  obtain ⟨under, heeding⟩ := hears.heeded calm silent heeds
  refine ⟨loaderFor dir before.host, rfl, rfl, services_launch dir before, ?yields, ?returns⟩
  case yields =>
    intro yield yielded
    obtain ⟨past, talk, told, ⟨same, admitted⟩, works⟩ :=
      heeding.yields yield (System.yielded_of_yield? yielded)
    exact ⟨talk, told, preloaded_of_admitted same (admitted.works works)⟩
  case returns =>
    rintro ⟨call, next, waits⟩
    exact under.returns waits

/-- The manifest of a class, as an archive holds it. -/
def designating (className : String) : Blob :=
  s!"plugin-class = \"{className}\"\n".toList.map Char.toUInt8

/-- A directory with two archives of one class, one of a class whose service refuses to start, and
one of a class without a factory. -/
def shelf : Files where
  root := .directory [("plugins", .directory
    [("z.plugin", .file (designating "Heartbeat")), ("odd.plugin", .file (designating "Odd")),
      ("none.plugin", .file (designating "Nothing")),
      ("beat.plugin", .file (designating " Heartbeat "))])]
  working := []

theorem scan_shelf : scan designated? shelf "/plugins" =
    [⟨"/plugins/beat.plugin", "Heartbeat", designating " Heartbeat "⟩,
      ⟨"/plugins/none.plugin", "Nothing", designating "Nothing"⟩,
      ⟨"/plugins/odd.plugin", "Odd", designating "Odd"⟩,
      ⟨"/plugins/z.plugin", "Heartbeat", designating "Heartbeat"⟩] := by
  have listed : (shelf.list "/plugins").Perm
      ["beat.plugin", "none.plugin", "odd.plugin", "z.plugin"] := by decide +kernel
  have names : archiveNames ["beat.plugin", "none.plugin", "odd.plugin", "z.plugin"] =
      ["beat.plugin", "none.plugin", "odd.plugin", "z.plugin"] := by
    rw [archiveNames, List.filter_eq_self.mpr (by decide +kernel)]
    exact List.mergeSort_of_pairwise (by decide +kernel)
  rw [scan, archiveNames_of_perm listed, names]
  decide +kernel

/-- A host with the builtin factories, and one for a service that refuses to start. -/
def outset : Host :=
  (Builtin.register (Host.fresh ⟨shelf, fun _ _ => none⟩ fun count => 100 * count)).register "Odd"
    fun _ => .ok System.stubborn

/-- Each service is asked for its id and then to start; the second one is slow to answer. -/
def serving : List Event :=
  [.serve 0, .resume 0, .serve 0, .resume 0,
    .serve 0, .serve 0, .resume 0, .serve 0, .serve 0, .resume 0,
    .serve 0, .resume 0, .serve 0, .resume 0]

theorem preload_archive_by_archive_shelf :
    (System.start outset 1 : System ResolverId).Calm ∧
    (System.start outset 1 : System ResolverId).Silent ∧
    ∃ answers last yield, System.Hears 0
        ((System.start outset 1).launch (System.valueOf (preload "/plugins"))) answers last ∧
      last.yield? 0 = some yield ∧
      last.host.ids = ["Heartbeat:1.0:0.0/local", "Heartbeat:1.0:100.1/local"] ∧
      last.host.deployed.entries = [("Heartbeat", yield.value), ("Odd", yield.value)] ∧
      ∃ loader talk, talk.map Exchange.answer = answers ∧
        Preloaded outset last.host loader yield.value talk := by
  have calm : (System.start outset 1 : System ResolverId).Calm := .start outset 1
  have silent : (System.start outset 1 : System ResolverId).Silent := by rintro _ _ _ ⟨⟩
  have launched : (System.start outset 1).launch (System.valueOf (preload "/plugins")) =
      (System.start outset 1).launch (System.valueOf do
        let found ← Flow.act fun _ => openDirectory "/plugins" outset
        addAll found.1 found.2
        return found.1) := rfl
  have saw : ((((System.start outset 1).launch (System.valueOf (preload "/plugins"))).hearing? 0
      serving).bind fun heard => (heard.2.yield? 0).map fun yield =>
        (yield.value, heard.2.host.ids, heard.2.host.deployed.entries)) =
      some (0, ["Heartbeat:1.0:0.0/local", "Heartbeat:1.0:100.1/local"],
        [("Heartbeat", 0), ("Odd", 0)]) := by
    have scanned : scan designated? outset.around.files "/plugins" = _ := scan_shelf
    rw [launched]
    simp only [openDirectory, Preloader.rescan, scanned]
    decide +kernel
  obtain ⟨⟨answers, last⟩, saw, seen⟩ := Option.bind_eq_some_iff.mp saw
  obtain ⟨yield, yielded, seen⟩ := Option.map_eq_some_iff.mp seen
  simp only [Prod.mk.injEq] at seen
  obtain ⟨value, ids, deployed⟩ := seen
  have hears := System.hears_of_hearing? saw
  obtain ⟨loader, _, _, _, preloaded, _⟩ := preload_archive_by_archive calm silent "/plugins" hears
  obtain ⟨talk, told, preloaded⟩ := preloaded yield yielded
  rw [← value] at deployed
  exact ⟨calm, silent, answers, last, yield, hears, yielded, ids, deployed, loader, talk, told,
    preloaded⟩

end Plugin

end ServiceHost
