import ServiceHost.Proofs.Host.Collisions
import ServiceHost.Proofs.Host.Probes

/-! That instance ids tell services with run loops apart, over whole runs.

Every server has its id from the service that it was put around, and no service is wrapped twice. As
the number in its stamp can be read back from the id, no two servers have the same one, whether they
are in the directory, have left it, or never came to be in it.
-/

set_option autoImplicit false

namespace ServiceHost

/-! ## The ids of the servers -/

namespace Host

/-- The ids of all servers that there ever were, in the order in which they came. -/
def labels (host : Host) : List String := host.servers.map Server.id

theorem labels_updateServer {change : Server → Server}
    (keeps : ∀ entry, (change entry).id = entry.id) (host : Host) (server : ServerId) :
    (host.updateServer server change).labels = host.labels := by
  refine List.ext_getElem? fun place => ?_
  simp only [labels, updateServer, List.getElem?_map, List.getElem?_modify]
  cases host.servers[place]? with
  | none => rfl
  | some entry => by_cases same : server = place <;> simp [same, keeps]

@[simp] theorem labels_record (host : Host) (server : ServerId) (cause : HostError) :
    (host.record server cause).labels = host.labels := by
  apply labels_updateServer
  exact fun _ => rfl

theorem labels_addServer (host : Host) (server : Server) :
    (host.addServer server).2.labels = host.labels ++ [server.id] := List.map_append ..

@[simp] theorem labels_noted (host : Host) (server : ServerId) (query : Query)
    (answer : CallAnswer) : (host.noted server query answer).labels = host.labels := by
  rcases answer with cause | (cause | reply)
  · exact labels_record ..
  · exact labels_record ..
  · rfl

@[simp] theorem labels_killServer (host : Host) (server : ServerId) :
    (host.killServer server).2.labels = host.labels := by
  unfold killServer
  split
  · rfl
  · apply labels_updateServer
    exact fun _ => rfl

@[simp] theorem labels_configure (host : Host) (server : ServerId) (config : Properties) :
    (host.configure server config).labels = host.labels := by
  unfold configure
  split <;> rfl

@[simp] theorem labels_rolledBack (host : Host) (server : ServerId) :
    (Registry.rolledBack server host).labels = host.labels :=
  labels_killServer ..

@[simp] theorem labels_unregistered (host : Host) (id : String) (server : ServerId)
    (stopped : Bool) : (Registry.unregistered id server stopped host).labels = host.labels := by
  unfold Registry.unregistered
  split <;> rfl

end Host

theorem Sweep.labels {result : Answer} {ids : List String} {host after : Host} {halt : Halt}
    (sweep : Sweep result ids host halt after) : after.labels = host.labels := by
  obtain ⟨directory, rfl⟩ := sweep.frame
  rfl

theorem Operation.Section.labels {operation : Operation} {host after : Host} {halt : Halt}
    (part : operation.Section host halt after) : after.labels = host.labels := by
  cases part with
  | rejected | absent | spares | calls | rests => rfl
  | made => rw [Host.labels, Host.servers_make]; rfl
  | removes _ sweep | shuts sweep => exact sweep.labels
  | kills => exact Host.labels_killServer ..
  | refused => exact Host.labels_record ..
  | killsServer => exact Host.labels_killServer ..
  | configures => exact Host.labels_configure ..

/-- A server comes only around a service that was to be wrapped and has given an answer. -/
theorem Stage.Section.labels {stage : Stage} {answer : CallAnswer} {host after : Host}
    {halt : Halt} (part : stage.Section host answer halt after) :
    after.labels = host.labels ∨ ∃ service origin config told,
      stage = .wrapping service origin config ∧ answer = .ok told ∧
        after.labels = host.labels ++ [(Server.around service origin told).id] := by
  have added : ∀ server, (host.addServer server).2.labels = host.labels ++ [server.id] :=
    host.labels_addServer
  cases part with
  | unwrapped | started => exact .inl rfl
  | duplicate => exact .inr ⟨_, _, _, _, rfl, rfl, (Host.labels_killServer ..).trans (added _)⟩
  | starts => exact .inr ⟨_, _, _, _, rfl, rfl, (Host.labels_configure ..).trans (added _)⟩
  | entered => exact .inr ⟨_, _, _, _, rfl, rfl, added _⟩
  | rollsBack => exact .inl (by simp)
  | stops | answered => exact .inl (Host.labels_noted ..)
  | judged _ sweep => exact .inl (sweep.labels.trans (Host.labels_noted ..))
  | outrun _ _ sweep | stopped sweep => exact .inl (sweep.labels.trans (by simp))

namespace System

variable {before after last : System Answer} {stages later : Nat → Option Stage} {event : Event}
  {moments : List Moment} {base : Nat} {place : Nat} {id : ServiceId}
  {signed : List (ServiceId × String)}

theorem Step.labels (step : before.Step stages event after later) :
    after.host.labels = before.host.labels ∨
      ∃ place number service origin config told, event.resumes place = true ∧
        stages place = some (.wrapping service origin config) ∧
        before.call? place = some number ∧ before.executor.answer? number = some (.ok told) ∧
        after.host.labels = before.host.labels ++ [(Server.around service origin told).id] := by
  cases step with
  | launch part => exact .inl (by simpa using part.labels)
  | @resume resumed number stage answer _ _ stands waits told part =>
    rw [host_arrived]
    refine part.labels.imp_right ?_
    rintro ⟨service, origin, config, reply, rfl, rfl, labels⟩
    exact ⟨resumed, number, service, origin, config, reply, beq_self_eq_true _, stands,
      call?_of_waiting waits, told, labels⟩
  | serve | stir | expire | take | drop | wait => exact .inl rfl

/-- The servers have their ids from services that they are put around: no two of them from one
service, and none from one that is still to be wrapped. -/
structure Signed (system : System Answer) (stages : Nat → Option Stage)
    (signed : List (ServiceId × String)) : Prop where
  labels : system.host.labels = signed.map fun entry => system.host.label entry.1 entry.2
  bound : ∀ id ∈ signed.map Prod.fst, id < system.host.services.length
  once : (signed.map Prod.fst).Nodup
  apart : ∀ place id, (stages place).bind Stage.wraps? = some id → id ∉ signed.map Prod.fst

namespace Signed

theorem start {host : Host} (unused : host.Unused) (capacity : Nat) :
    Signed (.start host capacity) (fun _ => none) [] where
  labels := by rw [Host.labels, System.start, unused.servers]; rfl
  bound _ member := by cases member
  once := .nil
  apart _ _ _ := List.not_mem_nil

theorem map_label (same : ∀ id ∈ signed.map Prod.fst, after.host.nameOf id = before.host.nameOf id) :
    (signed.map fun entry => after.host.label entry.1 entry.2) =
      signed.map fun entry => before.host.label entry.1 entry.2 := by
  refine List.map_congr_left fun entry member => ?_
  rw [Host.label, Host.label, same _ (List.mem_map_of_mem member)]

/-- While no server comes, whoever has signed has done so before. -/
theorem idles (signs : Signed before stages signed) (books : Books moments before stages)
    (sound : before.Sound) (plain : after.host.Plain)
    (step : before.Step stages event after later) (same : after.host.labels = before.host.labels) :
    Signed after later signed where
  labels := by
    rw [same, signs.labels]
    exact (map_label fun id member => step.nameOf sound plain (signs.bound id member)).symm
  bound id member := Nat.lt_of_lt_of_le (signs.bound id member) step.services_le
  once := signs.once
  apart place id wraps member := by
    rcases step.wraps_cases books.tracks books.entered wraps with ⟨earlier, _⟩ | ⟨rfl, _⟩
    · exact signs.apart place id earlier member
    · exact Nat.lt_irrefl _ (signs.bound _ member)

/-- A server signs with the id of its service, which nobody is to wrap any more. -/
theorem wraps (signs : Signed before stages signed) (books : Books moments before stages)
    (sound : before.Sound) (plain : after.host.Plain)
    (step : before.Step stages event after later) (resumes : event.resumes place = true)
    (wraps : (stages place).bind Stage.wraps? = some id) {origin : String}
    (labels : after.host.labels = before.host.labels ++ [before.host.label id origin]) :
    Signed after later (signed ++ [(id, origin)]) := by
  have made : id < before.host.services.length := books.owned.bound id (.procedure place) wraps
  have members : (signed ++ [(id, origin)]).map Prod.fst = signed.map Prod.fst ++ [id] := by simp
  have known : ∀ other ∈ signed.map Prod.fst ++ [id], other < before.host.services.length :=
    List.forall_mem_append.mpr ⟨signs.bound, by simpa using made⟩
  have names : ∀ other ∈ (signed ++ [(id, origin)]).map Prod.fst,
      after.host.nameOf other = before.host.nameOf other := fun other member =>
    step.nameOf sound plain (known other (members ▸ member))
  refine ⟨?_, ?_, ?_, fun other late again member => ?_⟩
  · rw [map_label names, labels, signs.labels, List.map_append, List.map_singleton]
  · rw [members]
    exact fun other member => Nat.lt_of_lt_of_le (known other member) step.services_le
  · rw [members, ← List.concat_eq_append]
    exact signs.once.concat (signs.apart place id wraps)
  · rw [members] at member
    rcases step.wraps_cases books.tracks books.entered again with
      ⟨earlier, stays, _⟩ | ⟨rfl, _⟩
    · rcases List.mem_append.mp member with old | own
      · exact signs.apart other late earlier old
      -- Nobody else was to wrap the service, and its own procedure goes on.
      · rw [List.mem_singleton.mp own] at earlier
        cases books.owned.sole id (.procedure other) (.procedure place) earlier wraps
        cases resumes.symm.trans stays
    · exact Nat.lt_irrefl _ (known _ member)

theorem step (signs : Signed before stages signed) (books : Books moments before stages)
    (probed : Probed moments before stages) (sound : before.Sound) (plain : after.host.Plain)
    (step : before.Step stages event after later) : ∃ signed, Signed after later signed := by
  rcases step.labels with same | ⟨place, number, id, origin, config, told, resumes, stands, waits,
    answered, labels⟩
  · exact ⟨signed, signs.idles books sound plain step same⟩
  · have wraps : (stages place).bind Stage.wraps? = some id := by rw [stands]; rfl
    obtain rfl := probed.answer books wraps waits answered
    exact ⟨_, signs.wraps books sound plain step resumes wraps labels⟩

end Signed

/-- A service that is to be wrapped finds its id free. -/
theorem Signed.free (signs : Signed last stages signed) (books : Books moments last stages)
    (probed : Probed moments last stages) (keyed : last.host.Keyed) (stamped : last.host.Stamped base)
    (plain : last.host.Plain) (few : last.host.services.length ≤ Host.stampNumbers)
    {number : Nat} {origin : String} {config : Option Properties}
    {told : Except ServiceError Reply} (stands : stages place = some (.wrapping id origin config))
    (waits : last.call? place = some number)
    (answered : last.executor.answer? number = some (.ok told)) :
    last.host.directory.contains (Server.around id origin told).id = false := by
  have wraps : (stages place).bind Stage.wraps? = some id := by rw [stands]; rfl
  obtain rfl := probed.answer books wraps waits answered
  refine Bool.eq_false_iff.mpr fun taken => ?_
  obtain ⟨server, there⟩ := Option.isSome_iff_exists.mp taken
  obtain ⟨entry, found, same⟩ := keyed _ _ (last.host.directory.mem_of_get? there)
  have listed : entry.id ∈ last.host.labels := List.mem_map_of_mem (List.mem_of_getElem? found)
  rw [signs.labels, same] at listed
  obtain ⟨⟨other, elsewhere⟩, member, equal⟩ := List.mem_map.mp listed
  have known : other ∈ signed.map Prod.fst := List.mem_map_of_mem member
  obtain rfl := stamped.eq_of_label plain few (signs.bound other known)
    (books.owned.bound id (.procedure place) wraps) equal
  exact signs.apart place other wraps known

theorem Signed.nodup_labels (signs : Signed last stages signed) (stamped : last.host.Stamped base)
    (plain : last.host.Plain) (few : last.host.services.length ≤ Host.stampNumbers) :
    last.host.labels.Nodup := by
  rw [signs.labels]
  refine signs.once.of_map.map_on fun first one second two same => ?_
  refine List.inj_on_of_nodup_map signs.once one two ?_
  exact stamped.eq_of_label plain few (signs.bound _ (List.mem_map_of_mem one))
    (signs.bound _ (List.mem_map_of_mem two)) same

/-! ## Over whole runs -/

/-- What holds at any time of a host that is given no other services than plain ones, and no more
of them than there are numbers. -/
structure Distinct (base : Nat) (moments : List Moment) (system : System Answer)
    (stages : Nat → Option Stage) : Prop where
  stamped : system.host.Stamped base
  probed : Probed moments system stages
  signed : ∃ signed, Signed system stages signed
  spared : Spared system stages
  never : ∀ moment ∈ moments, ∀ place yield, moment.after.yield? place = some yield →
    yield.value.collides = false

namespace Distinct

theorem start {host : Host} (unused : host.Unused) (capacity : Nat) :
    Distinct host.stamped [] (.start host capacity) fun _ => none where
  stamped := by
    refine ⟨by rw [System.start, unused.services]; rfl, fun id service found => ?_⟩
    simp [System.start, Host.service?, unused.services] at found
  probed := .start host capacity
  signed := ⟨[], .start unused capacity⟩
  spared := .start host capacity
  never _ member := by cases member

theorem step (distinct : Distinct base moments before stages) (books : Books moments before stages)
    (sound : before.Sound) (keyed : before.host.Keyed) (plain : after.host.Plain)
    (few : after.host.services.length ≤ Host.stampNumbers)
    (done : before.after? event = some after) (step : before.Step stages event after later) :
    Distinct base (moments ++ [⟨before, event, after⟩]) after later := by
  obtain ⟨stamped, probed, ⟨signed, signs⟩, spared, never⟩ := distinct
  have spared : Spared after later := spared.step books.tracks done step
    fun place number id origin config told => signs.free books probed keyed stamped
      (step.plain sound plain) (Nat.le_trans step.services_le few)
  refine ⟨step.stamped sound plain stamped, probed.step books sound plain step,
    signs.step books probed sound plain step, spared, fun moment member => ?_⟩
  rcases List.mem_append.mp member with earlier | last
  · exact never moment earlier
  · cases List.mem_singleton.mp last
    exact spared.yields

end Distinct

theorem History.distinct {host : Host} {capacity : Nat} (vacant : host.Vacant)
    (history : History (.start host capacity) moments last) (plain : last.host.Plain)
    (few : last.host.services.length ≤ Host.stampNumbers) :
    ∃ stages, Distinct host.stamped moments last stages := by
  obtain ⟨stages, _, _, _, distinct⟩ := (Books.start vacant.toUnused capacity).onward history
    (fun done system stages => system.Sound ∧ system.host.Keyed ∧
      (system.host.Plain → system.host.services.length ≤ Host.stampNumbers →
        Distinct host.stamped done system stages))
    ⟨(Trail.sound vacant.toUnused .start).1, (Booked.start vacant capacity).keyed,
      fun _ _ => .start vacant.toUnused capacity⟩
    fun _ done books step ⟨sound, keyed, distinct⟩ =>
      ⟨step.sound sound, keyed.revise step.keepsIds step.revises, fun plain few =>
        (distinct (step.plain sound plain) (Nat.le_trans step.services_le few)).step books sound
          keyed plain few done step⟩
  exact ⟨stages, distinct plain few⟩

/-- However many services with run loops are made, as long as they are no more than there are
numbers for them, and whatever separators but the slash stand in their names and versions: servers
around any two of them have two ids, wherever the services come from and whatever the clock reads.
So of a host that is given no other services, no caller is ever told that an id is taken. -/
theorem instance_ids_distinct {host : Host} {capacity : Nat} (vacant : host.Vacant)
    (history : History (.start host capacity) moments last) (plain : last.host.Plain)
    (few : last.host.services.length ≤ 2 ^ 64) :
    (∀ first second one other, first ≠ second →
      last.host.service? first = some (.threaded one) →
      last.host.service? second = some (.threaded other) → ∀ origin elsewhere,
        (Server.around first origin (.ok (.id one.id))).id ≠
          (Server.around second elsewhere (.ok (.id other.id))).id) ∧
      (last.host.servers.map Server.id).Nodup ∧
      ∀ moment ∈ moments, ∀ place yield id, moment.after.yield? place = some yield →
        yield.value ≠ .entered (.error (.duplicateInstance id)) := by
  obtain ⟨stages, stamped, _, ⟨signed, signs⟩, _, never⟩ := history.distinct vacant plain few
  refine ⟨fun first second one other apart found there origin elsewhere same => apart ?_,
    signs.nodup_labels stamped plain few, fun moment member place yield id yields same => ?_⟩
  · rw [← Host.nameOf_eq found, ← Host.nameOf_eq there] at same
    exact stamped.eq_of_label plain few (Host.lt_of_service? found) (Host.lt_of_service? there) same
  · have told := never moment member place yield yields
    rw [same] at told
    cases told

/-- A service that has nothing to do. -/
def idle (typeName version : String) : Blueprint :=
  ⟨"", .threaded typeName version fun _ => ⟨[], [], false⟩⟩

/-- Two services enter the directory, made at the same instant and from the same origin. Put
together, the name and version of the one read like those of the other. -/
def gluing : List Event :=
  [.launch (.load (idle "A:1" "0")), .launch (.load (idle "A" "1:0")), .serve 0, .serve 0,
    .resume 0, .resume 1]

theorem instance_ids_distinct_glued :
    ∃ moments last, History bare moments last ∧
      last.host.ids = ["A:1:0:0.0/local", "A:1:0:0.1/local"] ∧
      (last.host.servers.map Server.id).Nodup ∧
      ∀ moment ∈ moments, ∀ place yield id, moment.after.yield? place = some yield →
        yield.value ≠ .entered (.error (.duplicateInstance id)) := by
  obtain ⟨last, runs⟩ := Option.isSome_iff_exists.mp
    (by decide +kernel : (bare.runs? gluing).isSome = true)
  have ids := view_of_runs runs (fun system => system.host.ids)
    (by decide +kernel : _ = some ["A:1:0:0.0/local", "A:1:0:0.1/local"])
  have two := view_of_runs runs (fun system => system.host.services.length)
    (by decide +kernel : _ = some 2)
  obtain ⟨moments, history, _⟩ := History.of_runs? runs
  have plain := view_of_runs runs (fun system => decide system.host.Plain)
    (by decide +kernel : _ = some true)
  obtain ⟨_, once, never⟩ :=
    instance_ids_distinct Host.vacant_bare history (of_decide_eq_true plain) (by rw [two]; decide)
  exact ⟨moments, last, history, ids, once, never⟩

end System

end ServiceHost
