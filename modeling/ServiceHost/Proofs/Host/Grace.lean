import ServiceHost.Proofs.Host.Swift

/-! Stops that wait for their runs, and the runs that outlive the grace. -/

set_option autoImplicit false

namespace ServiceHost

/-- What a stop is told whose run has not ended within the grace. -/
def overstayed : Except ServiceError Reply :=
  .error (.lifecycle (.stopTimedOut (.ofMillis stopGrace)))

/-- A stop that has waited finds its run ended, or its grace is over. -/
theorem Threaded.Turn.of_stopping {service after : Threaded} {now generation expires : Nat}
    {query : Query} {phase : Phase} (sound : service.Sound)
    (turn : service.Turn now query (.stopping generation expires) phase after) :
    service.lifecycle.isFinished generation = true ∨ phase = .ended (.value overstayed) := by
  cases turn with
  | released _ ended => exact .inl ended
  | outdone other => exact .inl (sound.machine.former generation other)
  | outlived => exact .inr rfl

/-- A stop of a service that has a run waits for that run. -/
theorem Threaded.Turn.of_stop {service after : Threaded} {now generation : Nat} {phase : Phase}
    (turn : service.Turn now (.control .stop) .fresh phase after)
    (task : service.lifecycle.task = some generation) :
    phase = .stopping generation (now + stopGrace) := by
  cases turn with
  | braked present =>
    cases present.symm.trans task
    rfl
  | idle absent => cases absent.symm.trans task
  | refused other => exact absurd rfl other

namespace System

variable {before after last middle : System Answer} {stages later : Nat → Option Stage}
  {event : Event} {moments past more : List Moment} {moment : Moment} {id : ServiceId}
  {start : Inquiry} {generation : Nat}

/-- A stop begins that waits for a run. -/
def Moment.Brakes (moment : Moment) (start : Inquiry) (generation : Nat) : Prop :=
  moment.begun? = some start ∧ start.query = .control .stop ∧ ∃ service,
    moment.before.host.service? start.service = some (.threaded service) ∧
      service.lifecycle.task = some generation

/-- What has become of a stop that waits for a run: it waits still, it was told that the grace is
over, or the run has ended. -/
inductive Braked (moments : List Moment) (system : System Answer) (start : Inquiry)
    (generation : Nat) : Prop where
  | waits {call : Running Body} {expires : Nat} :
      call ∈ system.executor.running → call.request.id = start.number →
      call.work.service = start.service → call.work.query = .control .stop →
      call.work.phase = .stopping generation expires → Braked moments system start generation
  | refused {ended : Returned} :
      ended ∈ returned moments → ended.number = start.number → ended.ending = .value overstayed →
      Braked moments system start generation
  | passed {service : Threaded} :
      system.host.service? start.service = some (.threaded service) →
      service.lifecycle.stopRequested generation = true →
      service.lifecycle.isFinished generation = true → Braked moments system start generation

namespace Braked

theorem begins (sound : before.Sound) (step : before.Step stages event after later)
    (brakes : (⟨before, event, after⟩ : Moment).Brakes start generation) :
    Braked (moments ++ [⟨before, event, after⟩]) after start generation := by
  obtain ⟨begun, asks, service, found, task⟩ := brakes
  obtain ⟨call, served, rfl⟩ := Option.map_eq_some_iff.mp begun
  obtain ⟨served, fresh⟩ := Option.filter_eq_some_iff.mp served
  cases event with
  | serve place =>
    replace served : before.executor.running[place]? = some call := served
    obtain ⟨phase, next, serves⟩ := step.serves sound served found
    have turn := serves.turn
    rw [show call.work.query = _ from asks, Phase.eq_fresh fresh] at turn
    obtain rfl := turn.of_stop task
    have member : { call with work := { call.work with
        phase := .stopping generation (before.now + stopGrace) } } ∈ after.executor.running := by
      rw [serves.executor, moved_of_going _ _ rfl]
      exact List.mem_map.mpr ⟨call, List.mem_of_getElem? served, if_pos (beq_self_eq_true _)⟩
    exact .waits member rfl rfl asks rfl
  | _ => cases served

/-- A stop that waits is served: its run has ended, or its grace is over. -/
theorem told_of_served (sound : before.Sound) {place : Nat}
    (step : before.Step stages (.serve place) after later) {call : Running Body} {expires : Nat}
    (there : before.executor.running[place]? = some call) {service : Threaded}
    (found : before.host.service? call.work.service = some (.threaded service))
    (phase : call.work.phase = .stopping generation expires) :
    service.lifecycle.isFinished generation = true ∨
      ∃ ended, (⟨before, .serve place, after⟩ : Moment).returned? = some ended ∧
        ended.number = call.request.id ∧ ended.ending = .value overstayed := by
  obtain ⟨later, next, serves⟩ := step.serves sound there found
  have turn := serves.turn
  rw [phase] at turn
  rcases turn.of_stopping (sound.threaded _ _ found) with ended | rfl
  · exact .inl ended
  · exact .inr ⟨_, serves.returned, rfl, rfl⟩

theorem step (braked : Braked moments before start generation) (books : Books moments before stages)
    (sound : before.Sound) (step : before.Step stages event after later) :
    Braked (moments ++ [⟨before, event, after⟩]) after start generation := by
  have asked : ∀ {service : Threaded}, service.Sound →
      before.host.service? start.service = some (.threaded service) →
      service.lifecycle.stopRequested generation = true →
      service.lifecycle.isFinished generation = true →
      Braked (moments ++ [⟨before, event, after⟩]) after start generation := by
    intro service well found requested finished
    obtain ⟨next, there, effect⟩ := step.effect sound found
    have grows := effect.extends_ well
    exact .passed there (grows.requested _ requested)
      (grows.finished _ (well.machine.requested_le _ requested) finished)
  cases braked with
  | refused member number told =>
    exact .refused (returned_grows member _) number told
  | passed found requested finished =>
    exact asked (sound.threaded _ _ found) found requested finished
  | @waits call expires member number own asks phase =>
    obtain ⟨service, found, requested⟩ := sound.asked call.work
      (List.mem_append_right _ (List.mem_map_of_mem member)) generation expires phase
    by_cases serves : ∃ place served, event = .serve place ∧
      before.executor.running[place]? = some served ∧ served.request.id = call.request.id
    · obtain ⟨place, served, rfl, there, same⟩ := serves
      obtain ⟨_, equal⟩ := Prod.mk.inj (books.entered.orderly.eq_of_number
        (Executor.mem_hand_of_running (List.mem_of_getElem? there))
        (Executor.mem_hand_of_running member) same)
      rw [← equal] at own phase found
      rcases told_of_served sound step there found phase with ended | ⟨ended, told, counts, value⟩
      · exact asked (sound.threaded _ _ found) (own ▸ found) requested ended
      · exact .refused (mem_returned _ told) (counts.trans (same.trans number)) value
    · obtain ⟨kept, there, request, work⟩ := step.turn.keeps member
        fun place served same here number => serves ⟨place, served, same, here, number⟩
      refine .waits there (by rw [request, number]) ?_ ?_ (by rw [work, phase])
      all_goals rw [work]
      exacts [own, asks]

end Braked

theorem History.braked {host : Host} {capacity : Nat} (unused : host.Unused)
    (history : History (.start host capacity) moments last) :
    ∀ moment ∈ moments, ∀ start generation, moment.Brakes start generation →
      Braked moments last start generation := by
  obtain ⟨_, _, _, braked⟩ := (Books.start unused capacity).onward history
    (fun done system _ => system.Sound ∧ ∀ moment ∈ done, ∀ start generation,
      moment.Brakes start generation → Braked done system start generation)
    ⟨(Trail.sound unused .start).1, fun _ member => by cases member⟩
    fun _ _ books step ⟨sound, braked⟩ => by
      refine ⟨step.sound sound, fun moment member start generation brakes => ?_⟩
      rcases List.mem_append.mp member with old | new
      · exact (braked moment old start generation brakes).step books sound step
      · cases List.mem_singleton.mp new
        exact .begins sound step brakes
  exact braked

/-- The run that a stop waits for goes on although the grace of the stop is over. -/
def Outlives (system : System Answer) (start : Inquiry) (generation : Nat) : Prop :=
  start.instant + stopGrace < system.now ∧ ∃ service,
    system.host.service? start.service = some (.threaded service) ∧
      service.lifecycle.isFinished generation = false

/-- A stop whose run outlives the grace has been told so. -/
theorem Braked.of_outlives (braked : Braked moments last start generation)
    (worked : Worked moments last) (punctual : Punctual id moments last)
    (begun : start ∈ begun moments) (own : start.service = id)
    (outlives : Outlives last start generation) :
    ∃ ended ∈ returned moments, ended.number = start.number ∧
      ended.ending = .value overstayed := by
  obtain ⟨long, service, found, unfinished⟩ := outlives
  cases braked with
  | refused member number told => exact ⟨_, member, number, told⟩
  | passed there _ finished =>
    cases there.symm.trans found
    cases finished.symm.trans unfinished
  | waits member number service asks phase =>
    cases punctual.running _ member (service.trans own) (by rw [asks]; simp) with
    | fresh fresh => simp [phase, Phase.isFresh] at fresh
    | stops there same _ soon =>
      -- The work of a call begins once, so that is the stop itself, and its grace is not over.
      obtain rfl := List.inj_on_of_nodup_map worked.once there begun (same.trans number)
      omega

/-- What is tended to in all of a history is tended to in the first part of it. -/
theorem Tended.of_append (books : Books past middle stages) (onward : History middle more last)
    (tended : Tended id (past ++ more) last) : Tended id past middle := by
  obtain ⟨_, _, back⟩ := books.onward onward
    (fun done system _ => Tended id (past ++ done) system → Tended id past middle)
    (fun tended => by rwa [List.append_nil] at tended)
    fun _ _ _ step back tended => by
      rw [← List.append_assoc] at tended
      exact back (tended.earlier step)
  exact back tended

/-- Whenever a run has outlived the grace of a stop, the stop has been told so. -/
theorem History.overstays {host : Host} {capacity : Nat} (unused : host.Unused)
    (history : History (.start host capacity) past middle) (onward : History middle more last)
    (tended : Tended id (past ++ more) last) (member : moment ∈ past)
    (brakes : moment.Brakes start generation) (own : start.service = id)
    (outlives : Outlives middle start generation) :
    ∃ ended ∈ returned (past ++ more), ended.number = start.number ∧
      ended.ending = .value overstayed := by
  obtain ⟨stages, books⟩ := history.books unused
  have punctual := history.punctual unused (tended.of_append books onward)
  have begun : start ∈ begun past := List.mem_filterMap.mpr ⟨moment, member, brakes.1⟩
  have braked := history.braked unused moment member start generation brakes
  obtain ⟨ended, told, rest⟩ := braked.of_outlives books.worked punctual begun own outlives
  exact ⟨ended, returned_grows told more, rest⟩

end System
end ServiceHost
