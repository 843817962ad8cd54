import ServiceHost.Entry.Startup
import ServiceHost.Proofs.Host.Founded

/-! Bringing the host up: deployments, plugins, start-up arguments and directives leave it founded,
whatever the services answer.
-/

set_option autoImplicit false

namespace ServiceHost

/-! ## Deployments -/

theorem Settings.servers_deployAll (built : List (String × ResolverId)) (host : Host) :
    (built.foldl (fun host (name, id) => host.deploy name id) host).servers = host.servers ∧
      (built.foldl (fun host (name, id) => host.deploy name id) host).services =
        host.services := by
  induction built generalizing host with
  | nil => exact ⟨rfl, rfl⟩
  | cons entry rest ih => exact ih (host.deploy entry.1 entry.2)

theorem Settings.same_apply (settings : Settings) (host : Host) :
    (settings.apply host).2.servers = host.servers ∧
      (settings.apply host).2.services = host.services := by
  unfold apply
  split
  · exact ⟨rfl, rfl⟩
  · exact servers_deployAll ..

/-- Deployments that fail leave everything as it was. -/
theorem Settings.apply_of_error {settings : Settings} {host : Host} {cause : SettingsError}
    (fails : (settings.apply host).1 = .error cause) : (settings.apply host).2 = host := by
  unfold apply at fails ⊢
  split at fails
  · rfl
  · cases fails

/-! ## Plugins -/

namespace Plugin

/-- The services of plugins are made one after the other. -/
structure Made (host : Host) (services : List (String × ServiceId)) (now : Host) : Prop where
  founded : now.Founded
  grows : host.services.length ≤ now.services.length
  known : ∀ entry ∈ services, entry.2 < now.services.length

theorem made_makeAll (built : List (Instance Blueprint)) {host : Host} (founded : host.Founded) :
    Made host (makeAll built host).1 (makeAll built host).2 := by
  induction built generalizing host with
  | nil => exact ⟨founded, Nat.le_refl _, fun _ none => by cases none⟩
  | cons first rest ih =>
    have deals : Host.Deals none host (host.make first.value).2 := .make ..
    have made := ih (founded.deals (fun _ none => by cases none) deals)
    refine ⟨made.founded, Nat.le_trans deals.length made.grows, fun entry member => ?_⟩
    rcases List.mem_cons.mp member with same | later
    · obtain ⟨service, services, _⟩ := Host.services_make host first.value
      have new : (host.make first.value).1 < (host.make first.value).2.services.length := by
        simp [Host.id_make, services]
      rw [same]
      exact Nat.lt_of_lt_of_le new made.grows
    · exact made.known entry later

theorem made_openDirectory (dir : String) {host : Host} (founded : host.Founded) :
    Made host (openDirectory dir host).1.2 (openDirectory dir host).2 := by
  have made := made_makeAll (instantiateAll host.factories
    ((⟨dir, none⟩ : Preloader).rescan designated? host.around.files (host.loaders + 1))).2
      (founded.of_same rfl rfl : { host with loaders := host.loaders + 1 }.Founded)
  exact ⟨made.founded.of_same rfl rfl, made.grows, made.known⟩

theorem ensures_addAll (resolver : ResolverId) {services : List (String × ServiceId)} {host : Host}
    (founded : host.Founded) (known : ∀ entry ∈ services, entry.2 < host.services.length) :
    (addAll resolver services).Ensures (fun _ last => last.Founded) host := by
  induction services generalizing host with
  | nil => exact .pure founded
  | cons entry rest ih =>
    obtain ⟨className, service⟩ := entry
    have deployed : (host.deploy className resolver).Founded := founded.of_same rfl rfl
    have adds := Registry.ensures_add deployed
      (known (className, service) List.mem_cons_self) Table.empty
    apply Flow.Ensures.bind
    refine .modify (Nat.le_refl _) ?_
    apply Flow.Ensures.bind
    refine adds.grown.mono ?_
    rintro outcome now ⟨founded, more⟩
    have onward : ∀ entry ∈ rest, entry.2 < now.services.length := fun entry member =>
      Nat.lt_of_lt_of_le (known entry (List.mem_cons_of_mem _ member)) more
    cases outcome with
    | ok => exact ih founded onward
    | error cause =>
      apply Flow.Ensures.bind
      exact .modify (Nat.le_refl _) (ih (founded.of_same rfl rfl) onward)

theorem keeps_preload (dir : String) : (preload dir).Keeps := by
  intro host founded
  have made := made_openDirectory dir founded
  apply Flow.Ensures.bind
  refine .act made.grows ?_
  apply Flow.Ensures.bind
  exact (ensures_addAll _ made.founded made.known).mono fun _ _ founded => .pure founded

end Plugin

/-! ## Arguments and directives -/

namespace Bootstrap

variable (report : Report)

theorem keeps_fail (failure : Failure) : (fail report failure).Keeps :=
  .bind (.error _) fun _ => .pure _

theorem keeps_enter (name : String) {attempt : Attempt ServerId} (keeps : attempt.outcome.Keeps) :
    (enter report name attempt).Keeps := by
  refine .bind keeps fun outcome => ?_
  cases outcome with
  | ok => exact .bind (.read _) fun _ => .pure _
  | error cause => exact keeps_fail report _

theorem keeps_apply (directive : Directive) : (apply directive).outcome.Keeps := by
  intro host founded
  have noted : (host.info
      s!"adding {directive.service} with {directive.options.size} option(s)").Founded :=
    founded.of_same rfl rfl
  by_cases deployed : host.deployed.contains directive.service = true
  · apply (Registry.keeps_addByName directive.service directive.options _ noted).of_run
    · simp [apply, Attempt.modify, Attempt.host, Host.info, Host.note, deployed]
    · exact Nat.le_refl _
  · apply (Registry.keeps_addLocal directive.service directive.options _ noted).of_run
    · simp [apply, Attempt.modify, Attempt.host, Host.info, Host.note, deployed]
    · exact Nat.le_refl _

theorem keeps_selfTest : Builtin.selfTest.outcome.Keeps := by
  intro host founded
  have same : (Builtin.deployTest host).servers = host.servers ∧
      (Builtin.deployTest host).services = host.services := by
    unfold Builtin.deployTest
    split <;> exact ⟨rfl, rfl⟩
  apply (Registry.keeps_addByName Builtin.testService Table.empty _
    (founded.of_same same.1 same.2)).of_run
  · simp [Builtin.selfTest, Attempt.modify]
  · rw [same.2]

theorem keeps_applyAll (directives : List Directive) : (applyAll report directives).Keeps := by
  induction directives generalizing report with
  | nil => exact .pure _
  | cons directive rest ih =>
    exact .bind (keeps_enter report _ (keeps_apply directive)) fun later => ih later

theorem keeps_applyArgument (argument : Argument) : (applyArgument report argument).Keeps := by
  cases argument with
  | directive directive => exact keeps_enter report _ (keeps_apply directive)
  | selfTest => exact keeps_enter report _ keeps_selfTest
  | script path =>
    refine .bind (.read _) fun read => ?_
    cases read with
    | ok text => exact keeps_applyAll report _
    | error cause => exact keeps_fail report _

theorem keeps_run (words : List String) : (run report words).Keeps := by
  induction words generalizing report with
  | nil => exact .pure _
  | cons word rest ih =>
    rw [run]
    cases Argument.read? word with
    | none => exact ih report
    | some argument => exact .bind (keeps_applyArgument report argument) fun later => ih later

end Bootstrap

/-! ## The whole of it -/

namespace Startup

theorem keeps_preload (arguments : Arguments) (settings : Settings) :
    (preload arguments settings).Keeps := by
  unfold preload
  split
  · exact .bind (Plugin.keeps_preload _) fun _ => .pure _
  · exact .pure _

theorem keeps_fill (arguments : Arguments) (settings : Settings) :
    (fill arguments settings).Keeps :=
  .bind (keeps_preload arguments settings) fun _ =>
    .bind (Bootstrap.keeps_run .empty arguments.words) fun report =>
      .bind (Bootstrap.keeps_applyAll report settings.parsedDirectives) fun _ =>
        .bind (.info _) fun _ => .modify (fun _ => rfl) fun _ => rfl

/-- A process begins with a host that is empty and unused. -/
theorem vacant_of_prepare {files after : Files} {wallClock : Nat → Nat} {arguments : Arguments}
    {settings : Settings} {host : Host}
    (prepared : prepare files wallClock arguments = (.ok (settings, host), after)) :
    host.Vacant := by
  unfold prepare at prepared
  dsimp only at prepared
  split at prepared
  · cases prepared
  · split at prepared
    · cases prepared
    · cases prepared
      exact ⟨⟨rfl, rfl⟩, rfl⟩

/-- The host comes up founded. Only a deployment can keep it from coming up, and leaves it as it was
then. -/
theorem ensures_boot (arguments : Arguments) (settings : Settings) {host : Host}
    (founded : host.Founded) :
    (boot arguments settings).Ensures
      (fun booted last => last.Founded ∧ ∀ fault, booted = .error fault → last = host) host := by
  obtain ⟨servers, services⟩ := settings.same_apply host
  have deployed : (settings.apply host).2.Founded := founded.of_same servers services
  apply Flow.Ensures.bind
  refine .act (Nat.le_of_eq (congrArg _ services.symm)) ?_
  cases applied : (settings.apply host).1 with
  | error cause => exact .pure ⟨deployed, fun _ _ => Settings.apply_of_error applied⟩
  | ok count =>
    apply Flow.Ensures.bind
    refine .modify (Nat.le_refl _) ?_
    apply Flow.Ensures.bind
    refine (keeps_fill arguments settings _ ?_).mono fun _ last founded => ?_
    · exact deployed.of_same rfl rfl
    · exact .pure ⟨founded, fun _ fails => by cases fails⟩

end Startup

end ServiceHost
