import ServiceHost.Proofs.Host.Steps

/-! What the parts of an operation between two waits leave as it is. -/

set_option autoImplicit false

namespace ServiceHost

/-- The error that an answer leaves with a server, if it was a failure. -/
def Server.failure? (query : Query) : CallAnswer → Option HostError
  | .ok (.ok _) => none
  | .ok (.error cause) => some (.ofService query.operation cause)
  | .error cause => some (.ofCall cause)

theorem Server.failure?_eq_none {query : Query} {answer : CallAnswer} :
    failure? query answer = none ↔ ∃ reply, answer = .ok (.ok reply) := by
  rcases answer with cause | (cause | reply) <;> simp [failure?]

namespace Host

theorem noted_of_failure {query : Query} {answer : CallAnswer} {cause : HostError}
    (fails : Server.failure? query answer = some cause) (host : Host) (server : ServerId) :
    host.noted server query answer = host.record server cause := by
  rcases answer with failed | (failed | reply) <;> cases fails <;> rfl

/-- A server that can be found under an id, with its service. -/
structure Lists (host : Host) (id : String) (server : ServerId) (number : ServiceId) : Prop where
  there : host.directory.get? id = some server
  held : host.serviceOf server = some number

variable (host : Host) (server : ServerId)

@[simp] theorem directory_noted (query : Query) (answer : CallAnswer) :
    (host.noted server query answer).directory = host.directory := by
  rcases answer with cause | (cause | reply) <;> rfl

theorem KeepsIds.noted {first host : Host} (kept : KeepsIds first host) (server : ServerId)
    (query : Query) (answer : CallAnswer) : KeepsIds first (host.noted server query answer) := by
  rcases answer with cause | (cause | reply)
  · exact kept.record ..
  · exact kept.record ..
  · exact kept

theorem idOf_record (cause : HostError) (other : ServerId) :
    (host.record server cause).idOf other = host.idOf other := by
  unfold idOf record
  rw [server?_updateServer]
  split
  · cases host.server? other <;> rfl
  · rfl

@[simp] theorem idOf_noted (query : Query) (answer : CallAnswer) (other : ServerId) :
    (host.noted server query answer).idOf other = host.idOf other := by
  rcases answer with cause | (cause | reply)
  · exact idOf_record ..
  · exact idOf_record ..
  · rfl

theorem KeepsIds.rolledBack {first host : Host} (kept : KeepsIds first host)
    (server : ServerId) : KeepsIds first (Registry.rolledBack server host) :=
  ((kept.leave _).killServer server).error _

theorem KeepsIds.unregistered {first host : Host} (kept : KeepsIds first host) (id : String)
    (server : ServerId) (stopped : Bool) :
    KeepsIds first (Registry.unregistered id server stopped host) := by
  unfold Registry.unregistered
  split
  · exact kept.leave id
  · exact (kept.error _).leave id

end Host

namespace Registry

variable (host : Host) (server : ServerId)

@[simp] theorem get?_rolledBack (id : String) :
    (rolledBack server host).directory.get? id =
      if id = host.idOf server then none else host.directory.get? id := by
  simp [rolledBack, Host.get?_leave]

@[simp] theorem get?_unregistered (instanceId id : String) (stopped : Bool) :
    (unregistered instanceId server stopped host).directory.get? id =
      if id = instanceId then none else host.directory.get? id := by
  unfold unregistered
  split <;> exact Host.get?_leave ..

theorem registered_of_unregistered {left id : String} {stopped : Bool} {other : ServerId}
    (there : (unregistered left server stopped host).directory.get? id = some other) :
    host.directory.get? id = some other := by
  rw [get?_unregistered] at there
  split at there
  · cases there
  · exact there

@[simp] theorem serviceOf_unregistered (instanceId : String) (stopped : Bool) (other : ServerId) :
    (unregistered instanceId server stopped host).serviceOf other = host.serviceOf other := by
  unfold unregistered
  split <;> rfl

end Registry

namespace Host.Lists

variable {host : Host} {id left : String} {server : ServerId} {number : ServiceId}

theorem record (lists : host.Lists id server number) (other : ServerId) (cause : HostError) :
    (host.record other cause).Lists id server number :=
  ⟨lists.there, by rw [serviceOf_record, lists.held]⟩

theorem noted (lists : host.Lists id server number) (other : ServerId) (query : Query)
    (answer : CallAnswer) : (host.noted other query answer).Lists id server number :=
  ⟨by rw [directory_noted, lists.there], by rw [serviceOf_noted, lists.held]⟩

theorem leave (lists : host.Lists id server number) (apart : id ≠ left) :
    (host.leave left).Lists id server number :=
  ⟨by rw [get?_leave, if_neg apart, lists.there], lists.held⟩

theorem unregistered (lists : host.Lists id server number) (apart : id ≠ left)
    (other : ServerId) (stopped : Bool) :
    (Registry.unregistered left other stopped host).Lists id server number :=
  ⟨by rw [Registry.get?_unregistered, if_neg apart, lists.there],
    by rw [Registry.serviceOf_unregistered, lists.held]⟩

end Host.Lists

namespace Sweep

variable {result : Answer} {ids : List String} {host after : Host} {halt : Halt}

/-- Removals that do not wait take ids out of the directory and do nothing else. -/
theorem frame (sweep : Sweep result ids host halt after) :
    ∃ directory, after = { host with directory } := by
  induction sweep with
  | ended host | asks => exact ⟨_, rfl⟩
  | absent _ _ ih => exact ih
  | killed _ _ _ ih =>
    obtain ⟨directory, rfl⟩ := ih
    exact ⟨directory, rfl⟩

theorem get?_cases (sweep : Sweep result ids host halt after) (id : String) :
    after.directory.get? id = host.directory.get? id ∨
      after.directory.get? id = none ∧ id ∈ ids := by
  induction sweep with
  | ended | asks => exact .inl rfl
  | absent _ _ ih =>
    rcases ih with same | ⟨gone, member⟩
    · exact .inl same
    · exact .inr ⟨gone, List.mem_cons_of_mem _ member⟩
  | @killed left _ host _ _ _ _ _ _ ih =>
    rcases ih with same | ⟨gone, member⟩
    · rw [Host.get?_leave] at same
      split at same
      · rename_i equal
        exact .inr ⟨same, equal ▸ List.mem_cons_self ..⟩
      · exact .inl same
    · exact .inr ⟨gone, List.mem_cons_of_mem _ member⟩

theorem registered (sweep : Sweep result ids host halt after) {id : String} {server : ServerId}
    (there : after.directory.get? id = some server) : host.directory.get? id = some server := by
  rcases sweep.get?_cases id with same | ⟨gone, _⟩
  · rwa [← same]
  · cases gone.symm.trans there

/-- Removals in a row ask for the state of a server that is still in the directory. -/
theorem waits_for {service : ServiceId} {stage : Stage}
    (sweep : Sweep result ids host (.waits service stage) after) :
    ∃ id server rest, stage = .judging id server rest result ∧ after.Lists id server service := by
  generalize equation : Halt.waits service stage = halt at sweep
  induction sweep with
  | ended => cases equation
  | absent _ _ ih | killed _ _ _ ih => exact ih equation
  | asks there alive =>
    cases equation
    exact ⟨_, _, _, rfl, there, alive⟩

theorem keepsIds (sweep : Sweep result ids host halt after) : Host.KeepsIds host after := by
  obtain ⟨directory, rfl⟩ := sweep.frame
  exact .of_servers rfl

end Sweep

theorem Operation.Section.keepsIds {operation : Operation} {host after : Host} {halt : Halt}
    (part : operation.Section host halt after) : Host.KeepsIds host after := by
  have same := Host.KeepsIds.refl host
  cases part with
  | rejected | absent | spares | calls | rests => exact .of_servers rfl
  | made => exact .of_servers (Host.servers_make ..)
  | removes _ sweep => exact sweep.keepsIds
  | shuts sweep => exact sweep.keepsIds
  | kills => exact (same.leave _).killServer _
  | refused => exact same.record ..
  | killsServer => exact same.killServer _
  | configures => exact same.configure ..

theorem Stage.Section.keepsIds {stage : Stage} {answer : CallAnswer} {host after : Host}
    {halt : Halt} (part : stage.Section host answer halt after) : Host.KeepsIds host after := by
  have same := Host.KeepsIds.refl host
  cases part with
  | unwrapped | started => exact same
  | duplicate => exact (same.addServer _).killServer _
  | entered => exact (same.addServer _).enter ..
  | starts => exact ((same.addServer _).enter ..).configure ..
  | rollsBack => exact (same.noted ..).rolledBack _
  | judged _ sweep => exact ((same.noted ..).leave _).trans sweep.keepsIds
  | stops | answered => exact same.noted ..
  | outrun _ _ sweep => exact (((same.noted ..).record ..).unregistered ..).trans sweep.keepsIds
  | stopped sweep => exact ((same.noted ..).unregistered ..).trans sweep.keepsIds

/-! ## What is touched at all -/

namespace Host

/-- Nothing has changed but services, servers, the directory and the log, and no service has come. -/
def Attends (host after : Host) : Prop :=
  ∃ services servers directory log, services.length = host.services.length ∧
    after = { host with services, servers, directory, log }

namespace Attends

variable {host middle after : Host}

theorem refl (host : Host) : host.Attends host := ⟨_, _, _, _, rfl, rfl⟩

theorem trans (first : host.Attends middle) (next : middle.Attends after) : host.Attends after := by
  obtain ⟨_, _, _, _, same, rfl⟩ := first
  obtain ⟨_, _, _, _, equal, rfl⟩ := next
  exact ⟨_, _, _, _, equal.trans same, rfl⟩

theorem length_services (attends : host.Attends after) :
    after.services.length = host.services.length := by
  obtain ⟨_, _, _, _, same, rfl⟩ := attends
  exact same

theorem leave (attends : host.Attends after) (id : String) : host.Attends (after.leave id) :=
  attends.trans ⟨_, _, _, _, rfl, rfl⟩

theorem record (attends : host.Attends after) (server : ServerId) (cause : HostError) :
    host.Attends (after.record server cause) := attends.trans ⟨_, _, _, _, rfl, rfl⟩

theorem killServer (attends : host.Attends after) (server : ServerId) :
    host.Attends (after.killServer server).2 := by
  refine attends.trans ?_
  unfold Host.killServer
  split
  · exact refl _
  · exact ⟨_, _, _, _, List.length_modify .., rfl⟩

theorem configure (attends : host.Attends after) (server : ServerId) (config : Properties) :
    host.Attends (after.configure server config) := by
  refine attends.trans ?_
  unfold Host.configure
  split
  · exact ⟨_, _, _, _, List.length_modify .., rfl⟩
  · exact refl _

theorem noted (attends : host.Attends after) (server : ServerId) (query : Query)
    (answer : CallAnswer) : host.Attends (after.noted server query answer) := by
  rcases answer with cause | (cause | reply)
  · exact attends.record ..
  · exact attends.record ..
  · exact attends

theorem rolledBack (attends : host.Attends after) (server : ServerId) :
    host.Attends (Registry.rolledBack server after) :=
  ((attends.leave _).killServer server).trans ⟨_, _, _, _, rfl, rfl⟩

theorem unregistered (attends : host.Attends after) (id : String) (server : ServerId)
    (stopped : Bool) : host.Attends (Registry.unregistered id server stopped after) := by
  refine attends.trans ?_
  unfold Registry.unregistered
  split <;> exact ⟨_, _, _, _, rfl, rfl⟩

theorem sweep {result : Answer} {ids : List String} {halt : Halt} (attends : host.Attends middle)
    (sweep : Sweep result ids middle halt after) : host.Attends after := by
  obtain ⟨directory, rfl⟩ := sweep.frame
  exact attends.trans ⟨_, _, _, _, rfl, rfl⟩

end Attends

end Host

/-- An operation that goes on with an answer touches nothing else. -/
theorem Stage.Section.attends {stage : Stage} {answer : CallAnswer} {host after : Host}
    {halt : Halt} (part : stage.Section host answer halt after) : host.Attends after := by
  have same := Host.Attends.refl host
  cases part with
  | unwrapped | started => exact same
  | entered => exact ⟨_, _, _, _, rfl, rfl⟩
  | @duplicate service origin _ answer =>
    have added : host.Attends (host.addServer (.around service origin answer)).2 :=
      ⟨_, _, _, _, rfl, rfl⟩
    exact added.killServer _
  | @starts service origin _ answer =>
    have entered : host.Attends ((host.addServer (.around service origin answer)).2.enter
        (Server.around service origin answer).id host.servers.length) := ⟨_, _, _, _, rfl, rfl⟩
    exact entered.configure ..
  | rollsBack => exact (same.noted ..).rolledBack _
  | judged _ sweep => exact ((same.noted ..).leave _).sweep sweep
  | stops | answered => exact same.noted ..
  | outrun _ _ sweep => exact (((same.noted ..).record ..).unregistered ..).sweep sweep
  | stopped sweep => exact ((same.noted ..).unregistered ..).sweep sweep

/-- An operation that begins makes a service, or touches the resolvers at most besides. -/
theorem Operation.Section.makes_or_attends {operation : Operation} {host after : Host} {halt : Halt}
    (part : operation.Section host halt after) :
    (∃ blueprint resolvers, after = (Host.make blueprint { host with resolvers }).2) ∨
      ∃ resolvers, Host.Attends { host with resolvers } after := by
  have same := Host.Attends.refl host
  cases part with
  | made blueprint resolvers => exact .inl ⟨blueprint, resolvers, rfl⟩
  | rejected _ resolvers => exact .inr ⟨resolvers, .refl _⟩
  | absent | spares | calls | rests => exact .inr ⟨host.resolvers, same⟩
  | removes _ sweep | shuts sweep => exact .inr ⟨host.resolvers, same.sweep sweep⟩
  | kills => exact .inr ⟨host.resolvers, (same.leave _).killServer _⟩
  | refused => exact .inr ⟨host.resolvers, same.record ..⟩
  | killsServer => exact .inr ⟨host.resolvers, same.killServer _⟩
  | configures => exact .inr ⟨host.resolvers, same.configure ..⟩

/-! ## Removals -/

/-- What a stage of a removal is about. -/
def Stage.removal? : Stage → Option (String × ServerId)
  | judging id server .. | stopping id server .. => some (id, server)
  | _ => none

/-- Removals only ask for the state and for a stop. -/
theorem Stage.query_of_removal {stage : Stage} {about : String × ServerId}
    (removal : stage.removal? = some about) :
    stage.query ≠ .control .start ∧ stage.query ≠ .control .pause := by
  cases stage with
  | wrapping | starting | calling => cases removal
  | judging | stopping => simp [Stage.query]

/-- The ids whose removal comes next. -/
def Stage.rest : Stage → List String
  | judging _ _ rest _ | stopping _ _ rest _ => rest
  | _ => []

end ServiceHost
