import ServiceHost.Proofs.Host.Course
import ServiceHost.Proofs.Host.Supply

/-! Which operations can end with the error that an instance id is taken.

Only one that wraps a service does, and only if the id of that service is taken just then. Whatever
else fails, fails for another reason; removals end with what they were begun for.
-/

set_option autoImplicit false

namespace ServiceHost

/-- Whether an error is that an instance id is taken. -/
def HostError.isDuplicate : HostError → Bool
  | duplicateInstance _ => true
  | _ => false

theorem HostError.isDuplicate_ofService (operation : String) (cause : ServiceError) :
    (ofService operation cause).isDuplicate = false := by
  unfold ofService
  split <;> rfl

theorem HostError.isDuplicate_ofCall (cause : CallError) : (ofCall cause).isDuplicate = false := by
  cases cause <;> rfl

/-- Whether a caller is told that an instance id is taken. -/
def Answer.collides : Answer → Bool
  | entered (.error cause) => cause.isDuplicate
  | _ => false

theorem Answer.collides_ofReply (query : Query) (reply : Option Reply) :
    (ofReply query reply).collides = false := by
  cases query <;> rfl

/-- A server that did not start has another reason for it. -/
theorem Registry.isDuplicate_causeOf {query : Query} {answer : CallAnswer} (host : Host)
    (server : ServerId) (fails : Server.replyOf answer = none) :
    (causeOf (host.noted server query answer) server).isDuplicate = false := by
  have left : ∀ cause : HostError, cause.isDuplicate = false →
      (causeOf (host.record server cause) server).isDuplicate = false := by
    intro cause other
    rw [causeOf, Host.lastError, Host.record, Host.server?_updateServer, if_pos rfl]
    cases host.server? server with
    | none => rfl
    | some entry => exact other
  rcases answer with cause | (cause | reply)
  · exact left _ (HostError.isDuplicate_ofCall cause)
  · exact left _ (HostError.isDuplicate_ofService _ cause)
  · cases fails

theorem Host.isDuplicate_of_build {host : Host} {name origin : String} {code : Blob}
    {cause : HostError} (fails : host.build name code origin = .error cause) :
    cause.isDuplicate = false := by
  unfold build at fails
  split at fails <;> cases fails
  rfl

theorem Host.isDuplicate_of_supplied {host : Host} {name : String} {cause : HostError}
    (fails : host.supplied name = .error cause) : cause.isDuplicate = false := by
  unfold supplied at fails
  split at fails
  · cases fails
    rfl
  · dsimp only at fails
    split at fails
    · cases fails
      rfl
    · exact isDuplicate_of_build fails

namespace Source

variable {host after : Host} {cause : HostError}

theorem isDuplicate_of_supply {source : Source} (fails : source.supply host = .error cause) :
    cause.isDuplicate = false := by
  cases source with
  | given => cases fails
  | resolved => exact Host.isDuplicate_of_supplied fails
  | built => exact Host.isDuplicate_of_build fails

theorem isDuplicate_of_rejected (source : Source) {config : Properties}
    (run : (source.operation config).flow.run host =
      ((Halt.ended ⟨.entered (.error cause), none⟩).stop, after)) : cause.isDuplicate = false := by
  cases supplied : source.supply host with
  | error reason =>
    obtain ⟨_, fails⟩ := run_of_error supplied config
    cases fails.symm.trans run
    exact isDuplicate_of_supply supplied
  | ok found =>
    obtain ⟨_, waits⟩ := run_of_ok supplied config
    cases waits.symm.trans run

end Source

/-- An operation that is turned down at once has not come to a server. -/
theorem Operation.isDuplicate_of_rejected {operation : Operation} {host after : Host}
    {cause : HostError} (enters : operation.enters = true)
    (run : operation.flow.run host = ((Halt.ended ⟨.entered (.error cause), none⟩).stop, after)) :
    cause.isDuplicate = false := by
  cases operation with
  | load blueprint =>
    rw [flow, Registry.run_act_entering, Registry.load, Registry.run_enter] at run
    cases run
  | loadByName name =>
    obtain ⟨resolvers, resolved⟩ := Registry.run_resolve host name
    rcases supplied : host.supplied name with reason | ⟨blueprint, origin⟩ <;>
      simp only [supplied] at resolved
    · rw [flow, Registry.loadByName, Registry.run_entering_of_error resolved] at run
      cases run
      exact Host.isDuplicate_of_supplied supplied
    · rw [flow, Registry.loadByName, Registry.run_entering_of_ok resolved,
        Registry.run_enter] at run
      cases run
  | add blueprint => exact (Source.given blueprint).isDuplicate_of_rejected run
  | addByName name => exact (Source.resolved name).isDuplicate_of_rejected run
  | addLocal name => exact (Source.built name).isDuplicate_of_rejected run
  | remove | kill | shutdown | call | killServer | configure => cases enters

/-- What a removal is to end with. -/
def Stage.result? : Stage → Option Answer
  | judging _ _ _ result | stopping _ _ _ result => some result
  | _ => none

theorem Sweep.result_of_waits {result other : Answer} {ids : List String} {host after : Host}
    {halt : Halt} (sweep : Sweep result ids host halt after)
    (bound : halt.stage?.bind Stage.result? = some other) : other = result := by
  induction sweep with
  | ended => cases bound
  | absent _ _ ih | killed _ _ _ ih => exact ih bound
  | asks =>
    cases bound
    rfl

theorem Sweep.value_of_ended {result : Answer} {ids : List String} {host after : Host}
    {halt : Halt} (sweep : Sweep result ids host halt after) {yield : Yield Answer}
    (ends : halt = .ended yield) : yield.value = result := by
  induction sweep with
  | ended =>
    cases ends
    rfl
  | absent _ _ ih | killed _ _ _ ih => exact ih ends
  | asks => cases ends

theorem Operation.Section.not_collides_of_waits {operation : Operation} {host after : Host}
    {halt : Halt} (part : operation.Section host halt after) {result : Answer}
    (bound : halt.stage?.bind Stage.result? = some result) : result.collides = false := by
  cases part with
  | removes _ sweep | shuts sweep =>
    rw [sweep.result_of_waits bound]
    rfl
  | made | rejected | absent | spares | kills | calls | refused | rests | killsServer
  | configures => cases bound

theorem Stage.Section.not_collides_of_waits {stage : Stage} {answer : CallAnswer}
    {host after : Host} {halt : Halt} (part : stage.Section host answer halt after)
    (other : ∀ result, stage.result? = some result → result.collides = false) {result : Answer}
    (bound : halt.stage?.bind Stage.result? = some result) : result.collides = false := by
  cases part with
  | judged _ sweep | outrun _ _ sweep | stopped sweep =>
    rw [sweep.result_of_waits bound]
    exact other _ rfl
  | stops => exact other result bound
  | unwrapped | duplicate | entered | starts | started | rollsBack | answered => cases bound

/-- An operation that ends at once does not end with a taken id. -/
theorem Operation.Section.not_collides_of_ended {operation : Operation} {host after : Host}
    {yield : Yield Answer} (part : operation.Section host (.ended yield) after)
    (run : operation.flow.run host = ((Halt.ended yield).stop, after)) :
    yield.value.collides = false := by
  cases part with
  | rejected _ _ enters => exact isDuplicate_of_rejected enters run
  | absent | spares | kills | rests | killsServer | configures => rfl
  | removes _ sweep | shuts sweep =>
    rw [sweep.value_of_ended rfl]
    rfl
  | @refused server query answer cause gone =>
    -- The server is known to be killed, so the call is over without having been made.
    rcases query with control | _ | _
    · simp [flow, Server.run_control_of_killed, gone, Halt.stop] at run
      exact run.1 ▸ rfl
    · simp [flow, Server.state, Host.isKilled, gone, Halt.stop] at run
      exact run.1 ▸ rfl
    · simp [flow, Server.queryId, Server.run_ask_of_killed, gone, Halt.stop] at run
      exact run.1 ▸ rfl

/-- Whatever an operation is told, it only ends with a taken id if that of the service that it is
to wrap is taken. -/
theorem Stage.Section.not_collides_of_ended {stage : Stage} {answer : CallAnswer}
    {host after : Host} {yield : Yield Answer}
    (part : stage.Section host answer (.ended yield) after)
    (run : (stage.next answer).run host = ((Halt.ended yield).stop, after))
    (other : ∀ result, stage.result? = some result → result.collides = false)
    (free : ∀ service origin config told, stage = .wrapping service origin config →
      answer = .ok told →
      host.directory.contains (Server.around service origin told).id = false) :
    yield.value.collides = false := by
  cases part with
  | unwrapped cause => exact HostError.isDuplicate_ofCall cause
  | @duplicate _ _ config told taken =>
    cases (free _ _ config told rfl rfl).symm.trans taken
  | entered | started => rfl
  | rollsBack cause fails =>
    cases (Stage.run_starting_of_failure fails host).symm.trans run
    exact Registry.isDuplicate_causeOf host _ fails
  | judged _ sweep | outrun _ _ sweep | stopped sweep =>
    rw [sweep.value_of_ended rfl]
    exact other _ rfl
  | answered => exact Answer.collides_ofReply ..

namespace System

variable {before after : System Answer} {stages later : Nat → Option Stage} {event : Event}
  {place : Nat}

/-- What is yielded was yielded before, or by the procedure that was launched or has gone on. -/
theorem Step.yields_cases {yield : Yield Answer} (step : before.Step stages event after later)
    (yields : after.yield? place = some yield) :
    before.yield? place = some yield ∨ event.resumes place = true ∨
      ∃ operation, event = .launch operation ∧ place = before.procedures.length := by
  have there := (List.getElem?_eq_some_iff.mp (yielded_of_yield? yields)).1
  cases resumes : event.resumes place with
  | true => exact .inr (.inl rfl)
  | false =>
    by_cases bound : place < before.procedures.length
    · exact .inl ((step.stands bound resumes).2 yield yields)
    cases step with
    | @launch operation =>
      rw [List.length_append, List.length_singleton] at there
      exact .inr (.inr ⟨operation, rfl, Nat.le_antisymm (Nat.le_of_lt_succ there)
        (Nat.le_of_not_lt bound)⟩)
    | resume | take => exact absurd (List.length_set ▸ there) bound
    | serve | stir | expire | drop | wait => exact absurd there bound

/-- Nobody holds a result that tells of a taken id, and no removal is to end with one. -/
structure Spared (system : System Answer) (stages : Nat → Option Stage) : Prop where
  yields : ∀ place yield, system.yield? place = some yield → yield.value.collides = false
  bound : ∀ place result, (stages place).bind Stage.result? = some result →
    result.collides = false

namespace Spared

theorem start (host : Host) (capacity : Nat) :
    Spared (.start host capacity) fun _ => none where
  yields place yield there := by simp [yield?, System.start] at there
  bound _ _ bound := by cases bound

theorem step (spared : Spared before stages) (tracks : before.Tracks stages)
    (done : before.after? event = some after) (step : before.Step stages event after later)
    (free : ∀ place number id origin config told, stages place = some (.wrapping id origin config) →
      before.call? place = some number → before.executor.answer? number = some (.ok told) →
      before.host.directory.contains (Server.around id origin told).id = false) :
    Spared after later where
  yields place yield yields := by
    rcases step.yields_cases yields with earlier | resumes | ⟨operation, rfl, rfl⟩
    · exact spared.yields place yield earlier
    · cases event with
      | resume resumed =>
        obtain rfl : resumed = place := by simpa [Event.resumes] using resumes
        obtain ⟨number, answer, stage, halt, host, stands, there, told, part, run, rfl⟩ :=
          tracks.exists_resumed done
        have bound := (List.getElem?_eq_some_iff.mp there).1
        obtain rfl := halt_of_yield? (before.answered number) (List.getElem?_set_self bound) yields
        refine part.not_collides_of_ended run (fun result own => ?_) ?_
        · exact spared.bound _ result (by rw [stands]; exact own)
        · rintro id origin config reply rfl rfl
          exact free _ number id origin config reply stands (call?_of_waiting there) told
      | launch | take | drop | expire | serve | go | reap | record | wait => cases resumes
    · obtain ⟨halt, host, part, run⟩ := operation.run_flow before.host
      obtain rfl := Option.some.inj ((after?_launch run).symm.trans done)
      obtain rfl := halt_of_yield? before (List.getElem?_concat_length ..) yields
      exact part.not_collides_of_ended run
  bound place result bound := by
    cases step with
    | launch part =>
      by_cases new : place = before.procedures.length
      · rw [new, Stage.put_self] at bound
        exact part.not_collides_of_waits bound
      · rw [Stage.put_of_ne new] at bound
        exact spared.bound place result bound
    | @resume resumed _ stage _ _ _ stands _ _ part =>
      by_cases same : place = resumed
      · rw [same, Stage.put_self] at bound
        refine part.not_collides_of_waits (fun other own => ?_) bound
        exact spared.bound resumed other (by rw [stands]; exact own)
      · rw [Stage.put_of_ne same] at bound
        exact spared.bound place result bound
    | serve | stir | expire | take | drop | wait => exact spared.bound place result bound

end Spared

end System
end ServiceHost
