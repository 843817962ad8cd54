import ServiceHost.Proofs.Host.Sections

/-! How a server leaves the directory.

A removal and the roll-back of a start wait between their look into the directory and the
moment at which they take the id out of it. What they take out is whatever is under the
id by then.
-/

set_option autoImplicit false

namespace ServiceHost

/-! ## Who leaves -/

section

variable {host after : Host} {halt : Halt} {id : String} {server : ServerId}

theorem Operation.Section.departs {operation : Operation}
    (part : operation.Section host halt after) (there : host.directory.get? id = some server)
    (gone : after.directory.get? id ≠ some server) :
    operation = .kill id ∨ operation = .remove id ∨ operation = .shutdown := by
  cases part with
  | rejected | absent | spares | calls | rests => exact absurd there gone
  | made | refused | killsServer | configures => exact absurd (by simpa using there) gone
  | removes _ sweep =>
    rcases sweep.get?_cases id with same | ⟨_, member⟩
    · exact absurd (same.trans there) gone
    · rw [List.mem_singleton.mp member]
      exact .inr (.inl rfl)
  | shuts => exact .inr (.inr rfl)
  | @kills left =>
    by_cases same : id = left
    · exact .inl (same ▸ rfl)
    · exact absurd (by simpa [Host.get?_leave, same] using there) gone

/-- A section of a removal takes out the id that it is about, or one whose removal comes next. -/
theorem Sweep.departs {result : Answer} {rest : List String} {left : String} {middle : Host}
    (sweep : Sweep result rest middle halt after)
    (leaves : middle.directory.get? id = if id = left then none else host.directory.get? id)
    (there : host.directory.get? id = some server)
    (gone : after.directory.get? id ≠ some server) : id = left ∨ id ∈ rest := by
  by_cases own : id = left
  · exact .inl own
  · rw [if_neg own] at leaves
    rcases sweep.get?_cases id with same | ⟨_, member⟩
    · exact absurd (same.trans (leaves.trans there)) gone
    · exact .inr member

end

/-! ## Who was under an id -/

/-- The id that a stage may take out of the directory, and the server that it means by it. -/
def Stage.target? (host : Host) : Stage → Option (String × ServerId)
  | starting server => some (host.idOf server, server)
  | stage => stage.removal?

theorem Stage.target?_of_removal {stage : Stage} {about : String × ServerId} (host : Host)
    (removal : stage.removal? = some about) : stage.target? host = some about := by
  cases stage with
  | wrapping | starting | calling => cases removal
  | judging | stopping => exact removal

theorem Stage.Section.departs {stage : Stage} {answer : CallAnswer} {host after : Host}
    {halt : Halt} {id : String} {server : ServerId}
    (part : stage.Section host answer halt after) (there : host.directory.get? id = some server)
    (gone : after.directory.get? id ≠ some server) :
    id ∈ stage.rest ∨ (∃ target, stage.removal? = some (id, target)) ∨
      ∃ target, stage = .starting target ∧ host.idOf target = id ∧
        Server.replyOf answer = none := by
  cases part with
  | unwrapped | started => exact absurd there gone
  | duplicate | stops | answered => exact absurd (by simpa using there) gone
  -- An id is entered only where nobody is, so that nobody is driven out.
  | entered vacant =>
    refine absurd ?_ gone
    rw [Host.get?_enter, if_neg, Host.directory_addServer, there]
    rintro rfl
    rw [vacant] at there
    cases there
  | starts vacant =>
    refine absurd ?_ gone
    rw [Host.directory_configure, Host.get?_enter, if_neg, Host.directory_addServer, there]
    rintro rfl
    rw [vacant] at there
    cases there
  | rollsBack _ fails =>
    refine .inr (.inr ⟨_, rfl, ?_, fails⟩)
    rw [Registry.get?_rolledBack, Host.directory_noted, Host.idOf_noted] at gone
    split at gone
    · exact Eq.symm (by assumption)
    · exact absurd there gone
  | judged _ sweep =>
    rcases sweep.departs (Host.get?_leave ..) (by simpa using there) gone with rfl | member
    · exact .inr (.inl ⟨_, rfl⟩)
    · exact .inl member
  | outrun _ _ sweep =>
    rcases sweep.departs (Registry.get?_unregistered ..) (by simpa using there) gone with
      rfl | member
    · exact .inr (.inl ⟨_, rfl⟩)
    · exact .inl member
  | stopped sweep =>
    rcases sweep.departs (Registry.get?_unregistered ..) (by simpa using there) gone with
      rfl | member
    · exact .inr (.inl ⟨_, rfl⟩)
    · exact .inl member

namespace System

variable {first before after : System Answer} {past : List Event} {event : Event}
  {stages later : Nat → Option Stage} {id : String} {server : ServerId}

/-- At some moment of a run the id belonged to the server. -/
def WasRegistered (first : System Answer) (past : List Event) (id : String) (server : ServerId) :
    Prop :=
  ∃ earlier rest moment stages, earlier ++ rest = past ∧ Trail first earlier moment stages ∧
    moment.host.directory.get? id = some server

theorem wasRegistered_now (trail : Trail first past before stages)
    (there : before.host.directory.get? id = some server) : WasRegistered first past id server :=
  ⟨past, [], before, stages, List.append_nil past, trail, there⟩

theorem WasRegistered.append (was : WasRegistered first past id server) (event : Event) :
    WasRegistered first (past ++ [event]) id server := by
  obtain ⟨earlier, rest, moment, stages, rfl, trail, there⟩ := was
  exact ⟨earlier, rest ++ [event], moment, stages, (List.append_assoc ..).symm, trail, there⟩

/-- A procedure that means a server by an id has found that server under it, or has entered it. -/
def Informed (first : System Answer) (past : List Event) (host : Host) : Stage → Prop
  | .starting server =>
    ∃ entry, host.server? server = some entry ∧ WasRegistered first past entry.id server
  | .judging id server _ _ | .stopping id server _ _ => WasRegistered first past id server
  | _ => True

theorem Informed.append {host next : Host} {stage : Stage}
    (informed : Informed first past host stage) (kept : host.KeepsIds next) (event : Event) :
    Informed first (past ++ [event]) next stage := by
  cases stage with
  | wrapping | calling => trivial
  | starting server =>
    obtain ⟨entry, found, was⟩ := informed
    obtain ⟨entry', found', same⟩ := kept.kept server entry found
    exact ⟨entry', found', same ▸ was.append event⟩
  | judging | stopping => exact WasRegistered.append informed event

theorem informed_of_sweep {result : Answer} {ids : List String} {host next : Host} {halt : Halt}
    {stage : Stage} (trail : Trail first past before stages)
    (registered : ∀ id server, host.directory.get? id = some server →
      before.host.directory.get? id = some server)
    (sweep : Sweep result ids host halt next) (waits : halt.stage? = some stage) :
    Informed first (past ++ [event]) next stage := by
  cases halt with
  | ended => cases waits
  | waits service waiting =>
    cases waits
    obtain ⟨id, server, rest, rfl, lists⟩ := sweep.waits_for
    have there := registered id server (sweep.registered lists.there)
    exact (wasRegistered_now trail there).append event

theorem informed_of_launch {operation : Operation} {halt : Halt} {host : Host} {stage : Stage}
    (trail : Trail first past before stages) (part : operation.Section before.host halt host)
    (waits : halt.stage? = some stage) : Informed first (past ++ [event]) host stage := by
  cases part with
  | removes _ sweep => exact informed_of_sweep trail (fun _ _ there => there) sweep waits
  | shuts sweep => exact informed_of_sweep trail (fun _ _ there => there) sweep waits
  | made | calls =>
    cases waits
    trivial
  | rejected | absent | spares | kills | refused | rests | killsServer | configures => cases waits

/-- A server that enters the directory is known by the id that it enters under. -/
theorem informed_of_starts {host : Host} {entry : Server} {config : Properties}
    (trail : Trail first past after stages)
    (same : after.host =
      ((host.addServer entry).2.enter entry.id host.servers.length).configure
        host.servers.length config) :
    Informed first past after.host (.starting host.servers.length) := by
  have entered : ((host.addServer entry).2.enter entry.id host.servers.length).server?
      host.servers.length = some entry := List.getElem?_concat_length ..
  -- Between the entry and the end of the section the server is configured, and keeps its id.
  obtain ⟨found, there, id⟩ :=
    ((Host.KeepsIds.refl _).configure host.servers.length config).kept _ _ entered
  refine ⟨found, same ▸ there, wasRegistered_now trail ?_⟩
  rw [same, Host.directory_configure, id, Host.get?_enter, if_pos rfl]

theorem informed_of_resume {stage waiting : Stage} {answer : CallAnswer} {halt : Halt} {host : Host}
    (trail : Trail first past before stages) (informed : Informed first past before.host stage)
    (onward : Trail first (past ++ [event]) after later) (same : after.host = host)
    (part : stage.Section before.host answer halt host) (waits : halt.stage? = some waiting) :
    Informed first (past ++ [event]) host waiting := by
  cases part with
  | unwrapped | duplicate | entered | started | rollsBack | answered => cases waits
  | starts =>
    cases waits
    exact same ▸ informed_of_starts onward same
  | judged _ sweep =>
    refine informed_of_sweep trail (fun _ _ there => ?_) sweep waits
    simpa using Host.registered_of_leave _ there
  | stops =>
    cases waits
    exact WasRegistered.append informed event
  | outrun _ _ sweep =>
    refine informed_of_sweep trail (fun _ _ there => ?_) sweep waits
    simpa using Registry.registered_of_unregistered _ _ there
  | stopped sweep =>
    refine informed_of_sweep trail (fun _ _ there => ?_) sweep waits
    simpa using Registry.registered_of_unregistered _ _ there

/-- Along every run, procedures that wait know of the servers that they mean. -/
theorem Trail.informed {host : Host} {capacity : Nat}
    (trail : Trail (.start host capacity) past before stages) :
    ∀ place stage, stages place = some stage →
      Informed (.start host capacity) past before.host stage := by
  induction trail with
  | start => exact fun _ _ known => by cases known
  | next trail done step ih =>
    have next := trail.next done step
    intro place stage known
    cases step with
    | launch part =>
      unfold Stage.put at known
      split at known
      · simpa using informed_of_launch trail part known
      · simpa using (ih place stage known).append part.keepsIds _
    | resume stands _ _ part =>
      unfold Stage.put at known
      split at known
      · simpa using informed_of_resume trail (ih _ _ stands) next (host_arrived ..) part known
      · simpa using (ih place stage known).append part.keepsIds _
    | serve | stir | expire | take | drop | wait =>
      exact (ih place stage known).append (.of_servers rfl) _

/-! ## Every departure has a cause -/

/-- Why an event may take an id out of the directory, and which server that is about. -/
inductive Cause (first : System Answer) (past : List Event) (before : System Answer)
    (stages : Nat → Option Stage) : Event → String → ServerId → Prop where
  | kill {id : String} {target : ServerId} :
      before.host.directory.get? id = some target →
      Cause first past before stages (.launch (.kill id)) id target
  | remove {id : String} {target : ServerId} :
      before.host.directory.get? id = some target →
      Cause first past before stages (.launch (.remove id)) id target
  | shutdown {id : String} {target : ServerId} :
      before.host.directory.get? id = some target →
      Cause first past before stages (.launch .shutdown) id target
  /-- A row of removals goes on to an id, and finds the server under it. -/
  | onward {id : String} {target : ServerId} {place : Nat} {stage : Stage} :
      stages place = some stage → id ∈ stage.rest →
      before.host.directory.get? id = some target →
      Cause first past before stages (.resume place) id target
  /-- A removal goes on that has found the server under the id before. -/
  | removal {id : String} {target : ServerId} {place : Nat} {stage : Stage} :
      stages place = some stage → stage.removal? = some (id, target) →
      WasRegistered first past id target →
      Cause first past before stages (.resume place) id target
  /-- A server that has entered under the id did not start. -/
  | rollBack {id : String} {target : ServerId} {place call : Nat} {answer : CallAnswer} :
      stages place = some (.starting target) →
      before.procedures[place]? = some (.waiting call (Stage.starting target).next) →
      before.executor.answer? call = some answer → Server.replyOf answer = none →
      before.host.idOf target = id → WasRegistered first past id target →
      Cause first past before stages (.resume place) id target

theorem Step.cause {host : Host} {capacity : Nat}
    (trail : Trail (.start host capacity) past before stages)
    (step : before.Step stages event after later)
    (there : before.host.directory.get? id = some server)
    (gone : after.host.directory.get? id ≠ some server) :
    ∃ target, Cause (.start host capacity) past before stages event id target := by
  cases step with
  | launch part =>
    rw [host_arrived] at gone
    rcases part.departs there gone with rfl | rfl | rfl
    · exact ⟨server, .kill there⟩
    · exact ⟨server, .remove there⟩
    · exact ⟨server, .shutdown there⟩
  | resume stands waits told part =>
    rw [host_arrived] at gone
    -- The procedure has looked the id up, or entered under it, at an earlier moment of this run.
    have informed := trail.informed _ _ stands
    rcases part.departs there gone with member | ⟨target, removal⟩ | ⟨target, rfl, id, fails⟩
    · exact ⟨server, .onward stands member there⟩
    · refine ⟨target, .removal stands removal ?_⟩
      rename_i stage _ _ _
      cases stage with
      | wrapping | starting | calling => cases removal
      | judging | stopping =>
        cases removal
        exact informed
    · obtain ⟨entry, found, was⟩ := informed
      refine ⟨target, .rollBack stands waits told fails id ?_⟩
      rwa [← id, Host.idOf_eq _ found]
  | serve | stir | expire | take | drop | wait => exact absurd there gone

/-- The call that goes on means another server, one that was under the id before. -/
def Stale (before : System Answer) (stages : Nat → Option Stage) (event : Event) (id : String)
    (server : ServerId) : Prop :=
  ∃ place stage target, event = .resume place ∧ stages place = some stage ∧ id ∉ stage.rest ∧
    stage.target? before.host = some (id, target) ∧ target ≠ server

theorem not_stale_of_cause (cause : Cause first past before stages event id server) :
    ¬Stale before stages event id server := by
  rintro ⟨place, stage, target, rfl, stands, fresh, means, other⟩
  cases cause with
  | onward stands' member =>
    cases stands.symm.trans stands'
    exact fresh member
  | removal stands' removal =>
    cases stands.symm.trans stands'
    cases means.symm.trans (stage.target?_of_removal before.host removal)
    exact other rfl
  | rollBack stands' =>
    cases stands.symm.trans stands'
    cases means
    exact other rfl

/-- In every run, a server leaves the directory only by a call that has looked the id up or that
has entered a server under it. That call means the very server that leaves, except when another
server has taken the id over since. -/
theorem departure_has_cause {host : Host} {capacity : Nat}
    (trail : Trail (.start host capacity) past before stages)
    (done : before.after? event = some after)
    (there : before.host.directory.get? id = some server)
    (gone : after.host.directory.get? id ≠ some server) :
    (∃ target, Cause (.start host capacity) past before stages event id target) ∧
      (Cause (.start host capacity) past before stages event id server ↔
        ¬Stale before stages event id server) := by
  obtain ⟨later, step⟩ := trail.tracks.exists_step done
  obtain ⟨target, cause⟩ := step.cause trail there gone
  refine ⟨⟨target, cause⟩, not_stale_of_cause, fun current => ?_⟩
  -- A cause that is about another server makes the call stale, unless a row of removals comes to
  -- the id only now.
  by_cases same : target = server
  · exact same ▸ cause
  · cases cause with
    | kill found => exact .kill there
    | remove found => exact .remove there
    | shutdown found => exact .shutdown there
    | onward stands member => exact .onward stands member there
    | removal stands removal was =>
      rename_i place stage
      by_cases member : id ∈ stage.rest
      · exact .onward stands member there
      · have means := stage.target?_of_removal before.host removal
        exact absurd ⟨place, stage, target, rfl, stands, member, means, same⟩ current
    | rollBack stands waits told fails means was =>
      rename_i place call answer
      refine absurd ⟨place, .starting target, target, rfl, stands, List.not_mem_nil, ?_, same⟩ current
      rw [Stage.target?, means]

/-! ### Two servers under one id, one after the other -/

/-- A service that takes five seconds to stop. All its instances give the same id. -/
def slow : Blueprint :=
  ⟨"slow", .scripted (fun query =>
    match query with
    | .instanceId => ⟨[], ⟨0, some (.value (.name "Same:1"))⟩⟩
    | .state => ⟨[], ⟨0, some (.value .tell)⟩⟩
    | .control .stop => ⟨[], ⟨5000, some (.value (.become .stopped))⟩⟩
    | .control control => ⟨[], ⟨0, some (.value (.become control.goal))⟩⟩) .running⟩

/-- A host with two permits. -/
def bare : System Answer := .start .bare 2

/-- A slow service enters the directory. -/
def opening : List Event := [.launch (.load slow), .serve 0, .serve 0, .resume 0]

/-- While a removal waits for the stop of the first server, the server is killed and another one
enters. -/
def takeover : List Event :=
  [.serve 0, .launch (.kill "Same:1/local"), .launch (.load slow), .serve 1, .serve 1, .resume 3,
    .wait 5000, .serve 0]

/-- A removal of a server that is alive begins with the question for its state. -/
theorem Step.asks {id : String} {service : ServiceId}
    (step : before.Step stages (.launch (.remove id)) after later)
    (there : before.host.directory.get? id = some server)
    (alive : before.host.serviceOf server = some service) :
    later before.procedures.length = some (.judging id server [] (.flag true)) := by
  cases step with
  | stir stirs => cases stirs
  | launch part =>
    cases part.sweep_of_remove there with
    | absent none => cases none.symm.trans there
    | killed found killed =>
      cases found.symm.trans there
      cases killed.symm.trans alive
    | asks found =>
      cases found.symm.trans there
      exact Stage.put_self ..

/-- A removal that learns of any state but STOPPED and PAUSED goes on to the stop. -/
theorem Step.stops {place : Nat} {rest : List String} {result : Answer} {service : ServiceId}
    (step : before.Step stages (.resume place) after later)
    (stands : stages place = some (.judging id server rest result))
    (alive : before.host.serviceOf server = some service)
    (restless : before.executor.answers.all
      (fun entry => !Registry.restsIn (Server.toldState (Server.replyOf entry.2))) = true) :
    later place = some (.stopping id server rest result) := by
  cases step with
  | stir stirs => cases stirs
  | resume stands' _ told part =>
    cases stands.symm.trans stands'
    obtain ⟨_, _, split, _⟩ := List.lookup_eq_some_iff.mp told
    have wake := List.all_eq_true.mp restless _
      (split ▸ List.mem_append_right _ (List.mem_cons_self ..))
    cases part with
    | judged rests => simp [rests] at wake
    | outrun _ killed => cases killed.symm.trans alive
    | stops => exact Stage.put_self ..

/-- The removal of the first server is still waiting when the second one is under the id. -/
theorem takeover_stands :
    ∃ before stages, Trail bare
        (opening ++ [.launch (.remove "Same:1/local")] ++ [.serve 0, .serve 0] ++ [.resume 1] ++
          takeover) before stages ∧
      before.host.directory.get? "Same:1/local" = some 1 ∧
      stages 1 = some (.stopping "Same:1/local" 0 [] (.flag true)) ∧
      ∃ after, before.after? (.resume 1) = some after ∧
        after.host.directory.get? "Same:1/local" = none := by
  have possible : (bare.runs? (opening ++ [.launch (.remove "Same:1/local")] ++
      [.serve 0, .serve 0] ++ [.resume 1] ++ takeover ++ [.resume 1])).isSome = true := by
    decide +kernel
  -- The run is cut where the removal changes its stage: at its launch and where it is resumed.
  obtain ⟨after, whole⟩ := Option.isSome_iff_exists.mp possible
  obtain ⟨before, taken, ends⟩ := runs?_append.mp whole
  obtain ⟨stopping, stopped, waits⟩ := runs?_append.mp taken
  obtain ⟨judged, told, resumes⟩ := runs?_append.mp stopped
  obtain ⟨asked, asks, serves⟩ := runs?_append.mp told
  obtain ⟨entered, enters, launches⟩ := runs?_append.mp asks
  obtain ⟨stages, trail⟩ := reaches_iff_trail.mp (Reaches.start.runs enters)
  rw [runs?_singleton] at launches resumes ends
  obtain ⟨_, step⟩ := trail.tracks.exists_step launches
  have judging := step.asks
    (view_of_runs enters (fun system => system.host.directory.get? "Same:1/local")
      (by decide +kernel : _ = some (some 0)))
    (view_of_runs enters (fun system => system.host.serviceOf 0)
      (by decide +kernel : _ = some (some 0)))
  rw [view_of_runs enters (fun system => system.procedures.length)
    (by decide +kernel : _ = some 1)] at judging
  obtain ⟨_, trail, judging⟩ := (trail.next launches step).keeps serves judging (by decide)
  obtain ⟨_, step⟩ := trail.tracks.exists_step resumes
  have stands := step.stops judging
    (view_of_runs told (fun system => system.host.serviceOf 0)
      (by decide +kernel : _ = some (some 0)))
    (view_of_runs told (fun system => system.executor.answers.all
      fun entry => !Registry.restsIn (Server.toldState (Server.replyOf entry.2)))
      (by decide +kernel : _ = some true))
  obtain ⟨later, trail, stands⟩ := (trail.next resumes step).keeps waits stands (by decide)
  refine ⟨before, later, trail, ?_, stands, after, ends, ?_⟩
  · exact view_of_runs taken (fun system => system.host.directory.get? "Same:1/local")
      (by decide +kernel)
  · exact view_of_runs whole (fun system => system.host.directory.get? "Same:1/local")
      (by decide +kernel)

/-- The second server leaves, although nobody has looked it up and it was never started. -/
theorem departure_without_cause :
    ∃ past before stages after, Trail bare past before stages ∧
      before.after? (.resume 1) = some after ∧
      before.host.directory.get? "Same:1/local" = some 1 ∧
      after.host.directory.get? "Same:1/local" = none ∧
      ¬Cause bare past before stages (.resume 1) "Same:1/local" 1 := by
  obtain ⟨before, stages, trail, there, stands, after, done, gone⟩ := takeover_stands
  refine ⟨_, before, stages, after, trail, done, there, gone, fun cause => ?_⟩
  exact not_stale_of_cause cause
    ⟨1, _, 0, rfl, stands, List.not_mem_nil, rfl, Nat.zero_ne_one⟩

theorem departure_has_cause_takeover :
    ∃ past before stages, Trail bare past before stages ∧
      ∃ target, Cause bare past before stages (.resume 1) "Same:1/local" target := by
  obtain ⟨before, stages, trail, there, _, after, done, gone⟩ := takeover_stands
  have left : after.host.directory.get? "Same:1/local" ≠ some 1 := by simp [gone]
  exact ⟨_, before, stages, trail, (departure_has_cause trail done there left).1⟩

end System

end ServiceHost
