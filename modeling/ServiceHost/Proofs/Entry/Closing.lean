import ServiceHost.Proofs.Console.Session
import ServiceHost.Proofs.Host.Passage

/-! The end of a process with a console: which sessions it shuts the registry down after.

Every way out of a session leads to the shutdown, except that an input that cannot be read leads
past it.
-/

set_option autoImplicit false

namespace ServiceHost.Startup

variable {host : Host}

/-- A session is what its input makes it, in a host that has come up. -/
def Settled (host : Host) (input : Blob) (left : Host) : Except Fault Ending → Prop
  | .error _ => left = host
  | .ok ending => ending.1 = Console.exitOf (Console.linesOf [] input)

theorem ensures_session (arguments : Arguments) (settings : Settings) (input : Blob)
    (founded : host.Founded) :
    (session arguments settings input).Ensures
      (fun ended left => left.Founded ∧ Settled host input left ended) host := by
  refine .bind ((ensures_boot arguments settings founded).mono ?_)
  rintro booted now ⟨founded, same⟩
  cases booted with
  | error fault => exact .pure ⟨founded, same fault rfl⟩
  | ok =>
    refine .bind ((Console.ensures_run founded input).mono ?_)
    rintro ending last ⟨exit, founded⟩
    exact .pure ⟨founded, exit⟩

/-- The host at the end of a shutdown of the process. -/
def Emptied (exit : Console.Exit) (left now : Host) : Prop :=
  now.ids = [] ∧ ∃ after,
    Registry.shutdown.ComesTo (left.info s!"svchost.console_closed exit={exit.name}") () after ∧
      now = after.info "svchost.stopped"

theorem ensures_close (exit : Console.Exit) (founded : host.Founded) :
    (close exit).Ensures (fun _ now => Emptied exit host now) host := by
  refine .bind (.modify (Nat.le_refl _) (.bind ?_))
  have shuts : Registry.shutdown.Ensures (fun _ last => last.Founded ∧ last.ids = [])
      (host.info s!"svchost.console_closed exit={exit.name}") :=
    Registry.ensures_shutdown (founded.of_same rfl rfl)
  refine shuts.comesTo.mono ?_
  rintro _ after ⟨comes, -, none⟩
  exact .modify (Nat.le_refl _) ⟨none, after, comes, rfl⟩

/-- What a process has done after its session, when it ends with this value in this host. -/
def Concluded (input : Blob) (host left : Host) (value : String × Option Fault) (now : Host) :
    Except Fault Ending → Prop
  | .error fault => left = host ∧ value = ("", some fault) ∧ now = left
  | .ok (.error cause, output) =>
    Console.BreaksOff input ∧ value = (output, some (.ofInput cause)) ∧ now = left
  | .ok (.ok exit, output) =>
    ¬Console.BreaksOff input ∧ value = (output, none) ∧ Emptied exit left now

theorem ensures_finish {left : Host} {input : Blob} {ended : Except Fault Ending}
    (founded : left.Founded) (settled : Settled host input left ended) :
    (finish ended).Ensures (fun value now => Concluded input host left value now ended) left := by
  match ended, settled with
  | .error fault, settled => exact .pure ⟨settled, rfl, rfl⟩
  | .ok (.error cause, output), settled =>
    have breaks := (Console.exitOf_eq_error_iff.mp settled.symm).2
    exact .pure ⟨breaks, rfl, rfl⟩
  | .ok (.ok exit, output), settled =>
    have goes : ¬Console.BreaksOff input := fun breaks => by
      cases settled.trans (Console.exitOf_eq_error_iff.mpr ⟨rfl, breaks⟩)
    exact .bind ((ensures_close exit founded).mono fun _ now emptied =>
      .pure ⟨goes, rfl, emptied⟩)

theorem ensures_live (arguments : Arguments) (settings : Settings) (input : Blob)
    (founded : host.Founded) :
    (live arguments settings input).Ensures
      (fun value now => ∃ ended left,
        (session arguments settings input).ComesTo host ended left ∧
          Concluded input host left value now ended) host := by
  refine .bind ((ensures_session arguments settings input founded).comesTo.mono ?_)
  rintro ended left ⟨comes, founded, settled⟩
  exact (ensures_finish founded settled).mono fun _ _ concluded => ⟨ended, left, comes, concluded⟩

/-- While nothing else uses the host, the procedure of a process stays on the way to its end. -/
theorem under_live {before : System (String × Option Fault)} (calm : before.Calm)
    (silent : before.Silent) (founded : before.host.Founded) (arguments : Arguments)
    (settings : Settings) (input : Blob) :
    (before.launch (System.valueOf (live arguments settings input))).Under
      (fun yield now => ∃ ended left,
        (session arguments settings input).ComesTo before.host ended left ∧
          Concluded input before.host left yield.value now ended)
      before.procedures.length :=
  .launch calm silent
    (.bind ((ensures_live arguments settings input founded).mono fun _ _ ends => .pure ends))

/-- Nobody is registered in a host at the end of a process, unless its input breaks off. -/
theorem Concluded.ids_eq_nil {input : Blob} {left now : Host} {value : String × Option Fault}
    {ended : Except Fault Ending} (concluded : Concluded input host left value now ended)
    (vacant : host.Vacant) (goes : ¬Console.BreaksOff input) : now.ids = [] := by
  match ended, concluded with
  | .error _, ⟨left_eq, _, now_eq⟩ =>
    rw [now_eq, left_eq, Host.ids, Table.keys, vacant.directory]
    rfl
  | .ok (.error _, _), concluded => exact absurd concluded.1 goes
  | .ok (.ok _, _), concluded => exact concluded.2.2.1

/-- A process that serves a console ends in one of two ways, whatever its files, its arguments and
its settings are, and whatever its services answer. If its input does not break off, nobody is
registered at its end: it goes through the shutdown of the registry after the session. If the input
breaks off, it ends in the host as the session left it. It comes to its end in any case, and every
event on the way comes at its time. -/
theorem shuts_down_unless_broken_off {files after : Files} {wallClock : Nat → Nat}
    {arguments : Arguments} {settings : Settings}
    (prepared : prepare files wallClock arguments = (.ok (settings, host), after)) (input : Blob)
    {last : System (String × Option Fault)}
    (passed : Relation.ReflTransGen System.Passes ((System.start host Executor.defaultCapacity).launch
      (System.valueOf (live arguments settings input))) last) :
    (∀ yield, last.yield? 0 = some yield →
      (¬Console.BreaksOff input → last.host.ids = []) ∧
        ∃ ended left now, (session arguments settings input).ComesTo host ended left ∧
          Concluded input host left yield.value now ended ∧ now.Works last.host ∧
          last.host.ids = now.ids) ∧
      ((∃ call next, last.procedures[0]? = some (.waiting call next)) →
        ∃ after, Relation.ReflTransGen System.PassesInTime last after ∧
          (after.yield? 0).isSome = true) := by
  have vacant := vacant_of_prepare prepared
  have silent : (System.start host Executor.defaultCapacity :
      System (String × Option Fault)).Silent := by
    rintro _ _ _ ⟨⟩
  have under := (under_live (.start host _) silent vacant.founded arguments settings input).run
    passed
  constructor
  · intro yield yielded
    obtain ⟨now, ⟨ended, left, comes, concluded⟩, works⟩ :=
      under.yields yield (System.yielded_of_yield? yielded)
    have same : last.host.ids = now.ids := congrArg Table.keys works.directory
    refine ⟨fun goes => ?_, ended, left, now, comes, concluded, works, same⟩
    rw [same]
    exact concluded.ids_eq_nil vacant goes
  · rintro ⟨call, next, waits⟩
    exact under.returns waits

/-! ## A beat that is removed, and one that is not -/

/-- The arguments of a process that is asked for the console and nothing else. -/
def consoleOnly : Arguments := { Arguments.none with console := true }

/-- The clock of a process that reads it every hundred milliseconds. -/
def steady (count : Nat) : Nat := 100 * count

/-- The host that a process begins with where there are no files but its log. -/
def outset : Host :=
  Builtin.register ((Host.fresh ⟨⟨.directory [("ServerManager.log", .file [])], []⟩,
    fun _ _ => none⟩ steady).info "svchost.starting")

theorem prepare_outset : prepare ⟨.directory [], []⟩ steady consoleOnly =
    (.ok (.default, outset), outset.around.files) := by
  have opened : openLog ⟨.directory [], []⟩ false "ServerManager.log" =
      (.ok (), outset.around.files) := rfl
  simp only [prepare, consoleOnly, Arguments.none]
  rw [show Option.none.getD Settings.default.logPath = "ServerManager.log" from rfl, opened]
  rfl

/-- A process at its start, with nothing but the console asked for. -/
def begun (input : Blob) : System (String × Option Fault) :=
  (System.start outset Executor.defaultCapacity).launch
    (System.valueOf (live consoleOnly .default input))

/-- The heartbeat is added and started. -/
def added : List Event := [.serve 0, .resume 0, .serve 0, .resume 0]

/-- It is asked for its state and stopped. -/
def removed : List Event :=
  [.serve 0, .resume 0, .serve 0, .go 0 0, .go 0 0, .go 0 0, .record 0 1, .serve 0, .resume 0]

theorem shuts_down_unless_broken_off_quit :
    ∃ last yield, Relation.ReflTransGen System.Passes (begun "add Heartbeat\nquit\n".toUTF8.toList)
        last ∧
      last.yield? 0 = some yield ∧
      yield.value = ("svchost> added Heartbeat:1.0:0.0/factory\nsvchost> ", none) ∧
      last.host.ids = [] := by
  have saw : ((begun "add Heartbeat\nquit\n".toUTF8.toList).onwards? (added ++ removed)).bind
      (fun last => (last.yield? 0).map Yield.value) =
        some ("svchost> added Heartbeat:1.0:0.0/factory\nsvchost> ", none) := by decide +kernel
  obtain ⟨last, passes, saw⟩ := Option.bind_eq_some_iff.mp saw
  obtain ⟨yield, yielded, value⟩ := Option.map_eq_some_iff.mp saw
  have passed := System.passes_of_onwards? passes
  obtain ⟨ends, _⟩ := shuts_down_unless_broken_off prepare_outset _ passed
  obtain ⟨_, ended, left, now, comes, concluded, works, same⟩ := ends yield yielded
  refine ⟨last, yield, passed, yielded, value, ?_⟩
  rw [same]
  rw [value] at concluded
  match ended, concluded with
  | .error fault, concluded => cases congrArg Prod.snd concluded.2.1
  | .ok (.error cause, output), concluded => cases congrArg Prod.snd concluded.2.1
  | .ok (.ok exit, output), concluded => exact concluded.2.2.1

/-- A line that is no text ends the process, and the heartbeat before it is still registered then. -/
theorem stays_registered_broken_off :
    ∃ last yield, Relation.ReflTransGen System.Passes
        (begun ("add Heartbeat\n".toUTF8.toList ++ [0xFF, 10])) last ∧
      last.yield? 0 = some yield ∧ yield.value.2 = some (.ofInput .notText) ∧
      last.host.ids = ["Heartbeat:1.0:0.0/factory"] := by
  have saw : ((begun ("add Heartbeat\n".toUTF8.toList ++ [0xFF, 10])).onwards? added).bind
      (fun last => (last.yield? 0).map fun yield => (yield.value.2, last.host.ids)) =
        some (some (.ofInput .notText), ["Heartbeat:1.0:0.0/factory"]) := by decide +kernel
  obtain ⟨last, passes, saw⟩ := Option.bind_eq_some_iff.mp saw
  obtain ⟨yield, yielded, seen⟩ := Option.map_eq_some_iff.mp saw
  obtain ⟨fault, ids⟩ := Prod.mk.inj seen
  exact ⟨last, yield, System.passes_of_onwards? passes, yielded, fault, ids⟩

end ServiceHost.Startup
