import ServiceHost.Proofs.Host.Permitted
import ServiceHost.Proofs.Host.Registration

/-! Removals that nobody interferes with.

The servers leave the directory one after the other. Each is asked for its state on its way out, and
is stopped if it does not rest; it leaves whatever it answers.
-/

set_option autoImplicit false

namespace ServiceHost

/-- What is to be removed: the server under an id, or all of them. -/
inductive Removal where
  | one (id : String)
  | all

namespace Removal

variable {host after : Host} {halt : Halt}

def operation : Removal → Operation
  | one id => .remove id
  | all => .shutdown

/-- The entries that are to leave the directory, in their order. -/
def entries (host : Host) : Removal → List (String × ServerId)
  | one id => (host.directory.get? id).toList.map fun server => (id, server)
  | all => host.directory.entries

def result (host : Host) : Removal → Answer
  | one id => .flag (host.directory.contains id)
  | all => .done

/-- The entries that are to stay in the directory. -/
def left (host : Host) : Removal → List (String × ServerId)
  | one id => host.directory.entries.filter fun entry => entry.1 ≠ id
  | all => []

theorem entries_sublist (removal : Removal) (host : Host) :
    (removal.entries host).Sublist host.directory.entries := by
  cases removal with
  | all => exact .refl _
  | one id =>
    cases there : host.directory.get? id with
    | none => simp [entries, there]
    | some server => simpa [entries, there] using host.directory.mem_of_get? there

theorem left_eq (removal : Removal) (host : Host) :
    host.directory.entries.filter (fun entry => entry.1 ∉ (removal.entries host).map Prod.fst) =
      removal.left host := by
  cases removal with
  | all =>
    refine List.filter_eq_nil_iff.mpr fun entry member => ?_
    have there : entry.1 ∈ host.directory.entries.map Prod.fst := List.mem_map_of_mem member
    simp only [entries, there, not_true_eq_false, decide_false, Bool.false_eq_true, not_false_eq_true]
  | one id =>
    cases there : host.directory.get? id with
    | some server => simp [entries, left, there]
    | none =>
      simp only [entries, left, there, Option.toList_none, List.map_nil]
      refine List.filter_congr fun entry member => ?_
      have apart : entry.1 ≠ id := by
        rintro rfl
        rw [host.directory.get?_of_mem member] at there
        cases there
      simp [apart]

theorem sweep {removal : Removal} (part : removal.operation.Section host halt after) :
    Sweep (removal.result host) ((removal.entries host).map Prod.fst) host halt after := by
  cases removal with
  | all => exact part.sweep_of_shutdown
  | one id =>
    cases there : host.directory.get? id with
    | none =>
      simp only [entries, result, Table.contains, there]
      cases part with
      | rejected _ _ enters | made _ _ _ _ enters => cases enters
      | absent => exact .ended host
      | removes found => cases there.symm.trans found
    | some server =>
      simpa [entries, result, Table.contains, there] using part.sweep_of_remove there

end Removal

/-- What a server is asked on its way out, and what it answers: nothing if it is killed, its state
alone if that is STOPPED or PAUSED, and to stop otherwise. -/
inductive Visit (host : Host) (server : ServerId) : List Exchange → Prop where
  | killed : host.serviceOf server = none → Visit host server []
  | spared {service : ServiceId} {answer : CallAnswer} :
      host.serviceOf server = some service →
      Registry.restsIn (Server.toldState (Server.replyOf answer)) = true →
      Visit host server [⟨service, .state, answer⟩]
  | stopped {service : ServiceId} {answer told : CallAnswer} :
      host.serviceOf server = some service →
      Registry.restsIn (Server.toldState (Server.replyOf answer)) = false →
      Visit host server [⟨service, .state, answer⟩, ⟨service, .control .stop, told⟩]

/-- Servers are visited in the order of their entries. -/
inductive Visits (host : Host) : List (String × ServerId) → List Exchange → Prop where
  | none : Visits host [] []
  | next {done : List (String × ServerId)} {entry : String × ServerId}
      {talk more : List Exchange} :
      Visits host done talk → Visit host entry.2 more →
      Visits host (done ++ [entry]) (talk ++ more)

/-- How far a removal of entries is: which ids have left, and what was said on the way. -/
inductive Clearance (host : Host) (entries : List (String × ServerId)) (result : Answer) :
    List String → List Exchange → Halt → Prop where
  | judges {done left : List (String × ServerId)} {id : String} {server : ServerId}
      {service : ServiceId} {talk : List Exchange} :
      entries = done ++ (id, server) :: left → Visits host done talk →
      host.serviceOf server = some service →
      Clearance host entries result (done.map Prod.fst) talk
        (.waits service (.judging id server (left.map Prod.fst) result))
  | stops {done left : List (String × ServerId)} {id : String} {server : ServerId}
      {service : ServiceId} {talk : List Exchange} {answer : CallAnswer} :
      entries = done ++ (id, server) :: left → Visits host done talk →
      host.serviceOf server = some service →
      Registry.restsIn (Server.toldState (Server.replyOf answer)) = false →
      Clearance host entries result (done.map Prod.fst) (talk ++ [⟨service, .state, answer⟩])
        (.waits service (.stopping id server (left.map Prod.fst) result))
  | cleared {talk : List Exchange} :
      Visits host entries talk →
      Clearance host entries result (entries.map Prod.fst) talk (.ended ⟨result, none⟩)

/-- A host from whose directory some ids have left. Nothing else is done to it, except that errors
are recorded. -/
structure Host.Cleared (host now : Host) (gone : List String) : Prop where
  directory : now.directory.entries = host.directory.entries.filter fun entry => entry.1 ∉ gone
  serviceOf : ∀ server, now.serviceOf server = host.serviceOf server
  deployed : now.deployed = host.deployed
  factories : now.factories = host.factories
  works : ∀ id, Option.Rel Service.Works (host.service? id) (now.service? id)

namespace Host.Cleared

variable {host now later : Host} {gone : List String} {id : String} {server : ServerId}

theorem refl (host : Host) : host.Cleared host [] where
  directory := (List.filter_eq_self.mpr (by simp)).symm
  serviceOf _ := rfl
  deployed := rfl
  factories := rfl
  works _ := Service.Works.rel_refl _

theorem goes (cleared : host.Cleared now gone) (works : now.Works later) :
    host.Cleared later gone where
  directory := by rw [works.frame, cleared.directory]
  serviceOf server := by
    rw [← cleared.serviceOf, works.frame]
    rfl
  deployed := by rw [works.frame, cleared.deployed]
  factories := by rw [works.frame, cleared.factories]
  works id := Service.Works.rel_trans (cleared.works id) (works.works id)

theorem noted (cleared : host.Cleared now gone) (server : ServerId) (query : Query)
    (answer : CallAnswer) : host.Cleared (now.noted server query answer) gone := by
  have same : (now.noted server query answer).deployed = now.deployed ∧
      (now.noted server query answer).factories = now.factories ∧
      (now.noted server query answer).services = now.services := by
    rcases answer with cause | (cause | reply) <;> exact ⟨rfl, rfl, rfl⟩
  obtain ⟨deployed, factories, services⟩ := same
  refine ⟨?_, fun other => ?_, ?_, ?_, fun id => ?_⟩
  · rw [directory_noted, cleared.directory]
  · rw [serviceOf_noted, cleared.serviceOf]
  · rw [deployed, cleared.deployed]
  · rw [factories, cleared.factories]
  · rw [service?_eq_of_services services]
    exact cleared.works id

theorem leave (cleared : host.Cleared now gone) (id : String) :
    host.Cleared (now.leave id) (gone ++ [id]) := by
  refine ⟨?_, cleared.serviceOf, cleared.deployed, cleared.factories, cleared.works⟩
  change now.directory.entries.filter _ = _
  rw [cleared.directory, List.filter_filter]
  congr 1
  funext entry
  simp [and_comm]

theorem unregistered (cleared : host.Cleared now gone) (id : String) (server : ServerId)
    (stopped : Bool) : host.Cleared (Registry.unregistered id server stopped now) (gone ++ [id]) := by
  unfold Registry.unregistered
  split
  · exact cleared.leave id
  · have told := cleared.leave id
    exact ⟨told.directory, told.serviceOf, told.deployed, told.factories, told.works⟩

/-- Whoever has not left can still be found. -/
theorem there (cleared : host.Cleared now gone) (member : (id, server) ∈ host.directory.entries)
    (stays : id ∉ gone) : now.directory.get? id = some server := by
  refine now.directory.get?_of_mem ?_
  rw [cleared.directory]
  exact List.mem_filter.mpr ⟨member, by simpa using stays⟩

end Host.Cleared

namespace Clearance

variable {host now after : Host} {entries done left : List (String × ServerId)} {result : Answer}
  {gone : List String} {talk : List Exchange} {halt : Halt}

/-- Removals in a row go on with the next server that is alive, or are at their end. -/
theorem of_sweep (sublist : entries.Sublist host.directory.entries)
    (cleared : host.Cleared now (done.map Prod.fst)) (whole : entries = done ++ left)
    (visits : Visits host done talk) (sweep : Sweep result (left.map Prod.fst) now halt after) :
    ∃ gone, Clearance host entries result gone talk halt ∧ host.Cleared after gone := by
  induction left generalizing done now with
  | nil =>
    rw [List.append_nil] at whole
    subst whole
    cases sweep
    exact ⟨_, .cleared visits, cleared⟩
  | cons entry rest ih =>
    obtain ⟨id, server⟩ := entry
    have once := (sublist.map Prod.fst).nodup host.directory.nodup
    rw [whole, List.map_append, List.map_cons, List.nodup_append] at once
    have member : (id, server) ∈ entries := by rw [whole]; simp
    have there := cleared.there (sublist.subset member)
      fun left => once.2.2 id left id List.mem_cons_self rfl
    cases sweep with
    | absent none => cases there.symm.trans none
    | killed found dead sweep =>
      cases there.symm.trans found
      have killed : Visits host (done ++ [(id, server)]) (talk ++ []) :=
        visits.next (.killed (cleared.serviceOf server ▸ dead))
      rw [List.append_nil] at killed
      refine ih ?_ (whole.trans (by simp)) killed sweep
      simpa using cleared.leave id
    | asks found alive =>
      cases there.symm.trans found
      exact ⟨_, .judges whole visits (cleared.serviceOf server ▸ alive), cleared⟩

/-- A removal goes on when it hears of its call. -/
theorem hears {service : ServiceId} {stage : Stage}
    (sublist : entries.Sublist host.directory.entries)
    (clearance : Clearance host entries result gone talk (.waits service stage))
    (cleared : host.Cleared now gone) (answer : CallAnswer) :
    ∃ halt later, stage.Section now answer halt later ∧
      (stage.next answer).run now = (halt.stop, later) ∧
      ∃ gone, Clearance host entries result gone (talk ++ [⟨service, stage.query, answer⟩]) halt ∧
        host.Cleared later gone := by
  obtain ⟨halt, later, part, runs⟩ := stage.run_next answer now
  refine ⟨halt, later, part, runs, ?_⟩
  cases clearance with
  | @judges done left id server _ _ whole visits held =>
    have whole' : entries = done ++ [(id, server)] ++ left := by simpa using whole
    cases part with
    | judged rests sweep =>
      refine of_sweep sublist ?_ whole' (visits.next (.spared held rests)) sweep
      simpa using (cleared.noted ..).leave id
    | stops awake alive =>
      cases held.symm.trans (cleared.serviceOf server ▸ alive)
      exact ⟨_, .stops whole visits held awake, cleared.noted ..⟩
    | outrun _ dead =>
      rw [cleared.serviceOf, held] at dead
      cases dead
  | @stops done left id server _ talk told whole visits held awake =>
    have whole' : entries = done ++ [(id, server)] ++ left := by simpa using whole
    cases part with
    | stopped sweep =>
      rw [List.append_assoc]
      refine of_sweep sublist ?_ whole' (visits.next (.stopped held awake)) sweep
      simpa using (cleared.noted ..).unregistered id server _

end Clearance

/-! ## How often a service is stopped -/

namespace Visits

variable {host : Host} {entries : List (String × ServerId)} {talk : List Exchange}
  {entry : String × ServerId} {service : ServiceId} {query : Query}

theorem count_of_visit {server : ServerId} {more : List Exchange} (visit : Visit host server more)
    (apart : host.serviceOf server ≠ some service) :
    (more.map Exchange.about).count (service, query) = 0 := by
  refine List.count_eq_zero.mpr fun member => apart ?_
  obtain ⟨exchange, there, same⟩ := List.mem_map.mp member
  obtain ⟨rfl, _⟩ := Prod.mk.inj same
  cases visit with
  | killed => cases there
  | spared held =>
    cases List.mem_singleton.mp there
    exact held
  | stopped held =>
    rcases List.mem_pair.mp there with rfl | rfl
    · exact held
    · exact held

/-- Nobody is asked anything whose server is not visited. -/
theorem count_of_apart (visits : Visits host entries talk)
    (apart : ∀ entry ∈ entries, host.serviceOf entry.2 ≠ some service) :
    (talk.map Exchange.about).count (service, query) = 0 := by
  induction visits with
  | none => rfl
  | next _ visit ih =>
    rw [List.map_append, List.count_append,
      ih fun entry member => apart entry (List.mem_append_left _ member),
      count_of_visit visit (apart _ (List.mem_append_right _ List.mem_cons_self))]

/-- A service is asked for its state once. It is stopped once if the answer asks for it, and not at
all otherwise. -/
theorem count_stop (visits : Visits host entries talk) (once : entries.Nodup)
    (sole : ∀ first ∈ entries, ∀ second ∈ entries, host.serviceOf first.2 = some service →
      host.serviceOf second.2 = some service → first = second)
    (member : entry ∈ entries) (held : host.serviceOf entry.2 = some service) :
    ∃ answer, ⟨service, .state, answer⟩ ∈ talk ∧
      (talk.map Exchange.about).count (service, .state) = 1 ∧
      (talk.map Exchange.about).count (service, .control .stop) =
        if Registry.restsIn (Server.toldState (Server.replyOf answer)) then 0 else 1 := by
  induction visits with
  | none => cases member
  | @next done last talk more visits visit ih =>
    obtain ⟨once, _, fresh⟩ := List.nodup_append.mp once
    have others : ∀ other ∈ done, last ≠ other := fun other there same =>
      fresh other there last List.mem_cons_self same.symm
    simp only [List.map_append, List.count_append]
    rcases List.mem_append.mp member with earlier | new
    · have apart : host.serviceOf last.2 ≠ some service := fun same =>
        others entry earlier (sole last (by simp) entry (by simp [earlier]) same held)
      obtain ⟨answer, told, asked, stopped⟩ := ih once
        (fun first there second here => sole first (by simp [there]) second (by simp [here])) earlier
      exact ⟨answer, List.mem_append_left _ told,
        by rw [asked, count_of_visit visit apart], by rw [stopped, count_of_visit visit apart]; rfl⟩
    · obtain rfl := List.mem_singleton.mp new
      have apart : ∀ other ∈ done, host.serviceOf other.2 ≠ some service := fun other there same =>
        others other there (sole entry (by simp) other (by simp [there]) held same)
      rw [visits.count_of_apart apart, visits.count_of_apart apart]
      cases visit with
      | killed dead => cases dead.symm.trans held
      | @spared own answer mine rests =>
        cases mine.symm.trans held
        exact ⟨answer, by simp, by simp [Exchange.about], by simp [Exchange.about, rests]⟩
      | @stopped own answer told mine awake =>
        cases mine.symm.trans held
        exact ⟨answer, by simp, by simp [Exchange.about], by simp [Exchange.about, awake]⟩

end Visits

namespace Clearance

variable {host now : Host} {removal : Removal} {gone : List String} {talk : List Exchange}
  {yield : Yield Answer}

/-- At its end, a removal has visited whatever it was to remove. -/
theorem ended (clearance : Clearance host (removal.entries host) (removal.result host) gone talk
      (.ended yield)) (cleared : host.Cleared now gone) :
    yield = ⟨removal.result host, none⟩ ∧ Visits host (removal.entries host) talk ∧
      now.directory.entries = removal.left host := by
  cases clearance with
  | cleared visits => exact ⟨rfl, visits, by rw [cleared.directory, removal.left_eq]⟩

end Clearance

namespace System

variable {before after last : System Answer} {past run moments : List Moment} {removal : Removal}
  {talk : List Exchange}

/-- The run of a removal is the removal that its answers make it. -/
theorem Solo.clearance (solo : Solo removal.operation before run last)
    (books : Books past before fun _ => none) :
    ∃ stage?, Books (past ++ run) last (Stage.alone before.procedures.length stage?) ∧
      ∃ gone talk halt, halt.stage? = stage? ∧
        Clearance before.host (removal.entries before.host) (removal.result before.host) gone talk
          halt ∧
        before.host.Cleared last.host gone ∧
        Spoken before.procedures.length run last talk halt := by
  have sublist := removal.entries_sublist before.host
  refine solo.induct books (fun run last stage? => ∃ gone talk halt, halt.stage? = stage? ∧
    Clearance before.host (removal.entries before.host) (removal.result before.host) gone talk halt ∧
    before.host.Cleared last.host gone ∧
    Spoken before.procedures.length run last talk halt) ?launches ?resumes ?idles
  case launches =>
    obtain ⟨halt, host, part, runs⟩ := removal.operation.run_flow before.host
    obtain ⟨gone, clearance, cleared⟩ := Clearance.of_sweep sublist (.refl before.host)
      (List.nil_append _).symm .none (Removal.sweep part)
    refine ⟨halt, host, part, runs, gone, [], halt, rfl, clearance, ?_,
      .launch books.entered _ host halt⟩
    rw [launched]
    exact (host_arrived before host halt).symm ▸ cleared
  case resumes =>
    rintro done system stage number answer onward ⟨gone, talk, halt, stands, clearance, cleared,
      spoken⟩ waits told
    cases halt with
    | ended => cases stands
    | waits service own =>
      cases stands
      obtain ⟨later, host, part, runs, gone, clearance, cleared⟩ :=
        clearance.hears sublist cleared answer
      refine ⟨later, host, part, runs, gone, _, later, rfl, clearance, ?_,
        spoken.resume onward.entered waits told host later⟩
      rw [resumed]
      exact (host_arrived (system.answered number) host later).symm ▸ cleared
  case idles =>
    rintro done system after event stage? onward ⟨gone, talk, halt, stands, clearance, cleared,
      spoken⟩ idle _
    exact ⟨gone, talk, halt, stands, clearance, cleared.goes idle.works, spoken.idle idle⟩

/-- A service was stopped once, or not at all if its state asked for no stop. -/
def StoppedOnce (run : List Moment) (talk : List Exchange) (service : ServiceId) : Prop :=
  ∃ answer, ⟨service, .state, answer⟩ ∈ talk ∧
    ((begun run).map Inquiry.about).count (service, .control .stop) =
      if Registry.restsIn (Server.toldState (Server.replyOf answer)) then 0 else 1

/-- All work that an operation has asked for has begun by its end. -/
theorem Solo.begun {operation : Operation} {halt : Halt}
    (solo : Solo operation before run last) (books : Books past before fun _ => none)
    (onward : Books (past ++ run) last (Stage.alone before.procedures.length halt.stage?))
    (spoken : Spoken before.procedures.length run last talk halt) {yield : Yield Answer}
    (ended : halt = .ended yield) (quiet : ∀ place, before.call? place = none)
    (timely : Timely (past ++ run)) (free : Free run) :
    (begun run).map Inquiry.about = talk.map Exchange.about := by
  subst ended
  have served := solo.served books quiet timely free
  have none_left : unbegun last.executor = [] := by
    refine List.eq_nil_iff_forall_not_mem.mpr fun entry member => ?_
    obtain ⟨waits, _⟩ := onward.own_unbegun timely member
    obtain ⟨next, there⟩ := call?_eq_some.mp waits
    obtain ⟨stage, stands, _⟩ := onward.tracks.stage _ _ next there
    rw [Stage.alone_self] at stands
    cases stands
  have asked := served.begins.symm.trans spoken.asked
  simpa [none_left, Halt.about?] using asked

/-- Servers that stand in the directory are around services of their own. -/
theorem eq_of_serviceOf {host : Host} {stages : Nat → Option Stage} (keyed : host.Keyed)
    (owned : host.Owned stages) {first second : String × ServerId}
    (there : first ∈ host.directory.entries) (here : second ∈ host.directory.entries)
    {service : ServiceId} (held : host.serviceOf first.2 = some service)
    (also : host.serviceOf second.2 = some service) : first = second := by
  have same : first.2 = second.2 :=
    Holder.server.inj (owned.sole service (.server first.2) (.server second.2) held also)
  refine Prod.ext ?_ same
  rw [← keyed.idOf there, ← keyed.idOf here, same]

/-- While no other operation is under way, a removal visits the servers that it is to remove, in the
order of their entries, and takes each of them out of the directory whatever they answer. Nothing
else is done. If every call finds a permit free, each service is stopped once that does not rest, and
no other one is. With or without permits, the removal returns, and takes no longer than the deadlines
of its calls. -/
theorem removals_visit_all {host : Host} {capacity : Nat} (vacant : host.Vacant)
    (history : History (.start host capacity) past before)
    (quiet : ∀ place, before.call? place = none)
    (solo : Solo removal.operation before run last) :
    ∃ gone talk halt,
      Clearance before.host (removal.entries before.host) (removal.result before.host) gone talk
        halt ∧
      before.host.Cleared last.host gone ∧
      Talked past run last before.procedures.length talk halt ∧
      (∀ yield, halt = .ended yield →
        yield = ⟨removal.result before.host, none⟩ ∧
        last.host.directory.entries = removal.left before.host ∧
        Visits before.host (removal.entries before.host) talk ∧
        (Timely (past ++ run) → Free run →
          (begun run).map Inquiry.about = talk.map Exchange.about ∧
          ∀ entry ∈ removal.entries before.host, ∀ service,
            before.host.serviceOf entry.2 = some service → StoppedOnce run talk service)) ∧
      (Timely (past ++ run) → ∀ number, last.call? before.procedures.length = some number →
        last.now ≤ before.now + removal.operation.calls before.host * callDeadline) ∧
      ∃ more after, Solo removal.operation before (run ++ more) after ∧ Timely more ∧
        (∀ place, after.call? place = none) ∧
        after.host.directory.entries = removal.left before.host := by
  obtain ⟨stages, books⟩ := history.books vacant.toUnused
  obtain rfl := books.silent quiet
  obtain ⟨_, onward, gone, talk, halt, rfl, clearance, cleared, spoken⟩ := solo.clearance books
  have attended := (history.append solo.history).attended vacant.toUnused
  refine ⟨gone, talk, halt, clearance, cleared, solo.talked books onward.entered attended spoken,
    ?ended, fun timely number waits => solo.now_le books onward timely waits, ?returns⟩
  case ended =>
    rintro yield rfl
    obtain ⟨same, visits, left⟩ := clearance.ended cleared
    refine ⟨same, left, visits, fun timely free => ?_⟩
    have begun := solo.begun books onward spoken rfl quiet timely free
    refine ⟨begun, fun entry member service held => ?_⟩
    have keyed := (history.booked vacant).1.keyed
    have sublist := removal.entries_sublist before.host
    have once : (removal.entries before.host).Nodup :=
      (before.host.directory.nodup.of_map _).sublist sublist
    obtain ⟨answer, told, _, stops⟩ := visits.count_stop once (fun first there second here =>
      eq_of_serviceOf keyed books.owned (sublist.subset there) (sublist.subset here)) member held
    exact ⟨answer, told, by rw [begun, stops]⟩
  case returns =>
    obtain ⟨more, after, further, timely, silent⟩ := solo.returns onward
    obtain ⟨_, ending, gone, talk, halt, rfl, clearance, cleared, _⟩ := further.clearance books
    refine ⟨more, after, further, timely, silent, ?_⟩
    cases halt with
    | ended yield => exact (clearance.ended cleared).2.2
    | waits service stage =>
      obtain ⟨call, waits⟩ := ending.tracks.waits _ stage (Stage.alone_self ..)
      cases (silent _).symm.trans (call?_of_waiting waits)

/-- A service whose stop never ends. -/
def hanging : Blueprint :=
  ⟨"hanging", .scripted (fun query =>
    match query with
    | .instanceId => ⟨[], ⟨0, some (.value (.name "Hang:1"))⟩⟩
    | .state => ⟨[], ⟨0, some (.value .tell)⟩⟩
    | .control .stop => ⟨[], ⟨0, none⟩⟩
    | .control control => ⟨[], ⟨0, some (.value (.become control.goal))⟩⟩) .running⟩

/-- The hanging one is given up at its deadline, and keeps its permit. The slow one is stopped. -/
def shuttingDown : List Event :=
  [.serve 0, .serve 0, .resume 2, .serve 0, .wait 15000, .expire, .resume 2,
    .serve 1, .serve 1, .resume 2, .serve 1, .wait 20000, .serve 1, .resume 2]

/-- Whether a moment comes at its time, and a call that is made then finds a permit free. -/
def unhindered (moment : Moment) : Bool :=
  moment.before.keepsTime moment.event && (moment.asked?.isNone ||
    decide (moment.before.executor.inFlight < moment.before.executor.capacity))

theorem removals_visit_all_hanging :
    ∃ moments before run last talk, History bare moments before ∧
      (∀ place, before.call? place = none) ∧ Solo Removal.all.operation before run last ∧
      Timely (moments ++ run) ∧ Free run ∧ last.executor.inFlight = 1 ∧
      before.host.directory.entries = [("Hang:1/local", 0), ("Same:1/local", 1)] ∧
      Visits before.host before.host.directory.entries talk ∧
      StoppedOnce run talk 0 ∧ StoppedOnce run talk 1 ∧ last.host.directory.entries = [] := by
  obtain ⟨moments, before, run, last, history, solo, checks, seen⟩ := exists_solo
    (by decide +kernel : outline? unhindered bare
      [.launch (.load hanging), .serve 0, .serve 0, .resume 0,
        .launch (.load slow), .serve 0, .serve 0, .resume 1]
      Removal.all.operation shuttingDown (fun before last =>
        !before.procedures.any Progression.waits &&
        before.host.directory.entries == [("Hang:1/local", 0), ("Same:1/local", 1)] &&
        before.host.serviceOf 0 == some 0 && before.host.serviceOf 1 == some 1 &&
        (last.yield? before.procedures.length).isSome && last.executor.inFlight == 1) =
      some true)
    (by rfl)
  simp only [Bool.and_eq_true, Bool.not_eq_true', beq_iff_eq] at seen
  obtain ⟨⟨⟨⟨⟨silent, entries⟩, first⟩, second⟩, yields⟩, holds⟩ := seen
  have quiet := quiet_of_any silent
  simp only [unhindered, Bool.and_eq_true, Bool.or_eq_true, decide_eq_true_eq] at checks
  have timely : Timely (moments ++ run) := fun moment member => (checks moment member).1
  have free : Free run := by
    intro moment member makes
    refine (checks moment (List.mem_append_right _ member)).2.resolve_left fun none => ?_
    rw [Option.isNone_iff_eq_none.mp none] at makes
    cases makes
  obtain ⟨gone, talk, halt, _, _, talked, ended, _⟩ :=
    removals_visit_all Host.vacant_bare history quiet solo
  obtain ⟨yield, yielded⟩ := Option.isSome_iff_exists.mp yields
  obtain ⟨_, left, visits, stops⟩ := ended yield (talked.yields yield yielded)
  obtain ⟨_, once⟩ := stops timely free
  exact ⟨moments, before, run, last, talk, history, quiet, solo, timely, free, holds, entries,
    visits, once _ (entries ▸ List.mem_cons_self) 0 first,
    once ("Same:1/local", 1) (by simp [Removal.entries, entries]) 1 second, left⟩

end System
end ServiceHost
