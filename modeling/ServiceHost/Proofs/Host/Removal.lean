import ServiceHost.Proofs.Host.Removing
import ServiceHost.Proofs.Host.Spares
import ServiceHost.Proofs.Service.Stopped
import ServiceHost.Service.Builtin

/-! What a removal leaves of a service with a run loop.

A removal asks for the state, and then for a stop, unless it was told STOPPED or PAUSED. So the
service is stopped by the end of it, except when it was PAUSED: then nobody asks its run to stop,
and the run is let loose once nobody holds the service any more.
-/

set_option autoImplicit false

namespace ServiceHost

/-- A row of removals asks for the state of every server that it is to remove, in its turn. -/
theorem Sweep.finds {result : Answer} {ids : List String} {host after : Host} {halt : Halt}
    (sweep : Sweep result ids host halt after) {id : String} {server : ServerId}
    {number : ServiceId} (member : id ∈ ids) (lists : host.Lists id server number) :
    after.Lists id server number ∧
      ((∃ rest, halt = .waits number (.judging id server rest result)) ∨
        ∃ service other holder rest, halt = .waits service (.judging other holder rest result) ∧
          other ≠ id ∧ id ∈ rest) := by
  induction sweep with
  | ended => cases member
  | absent none _ ih =>
    rcases List.mem_cons.mp member with rfl | member
    · cases none.symm.trans lists.there
    · exact ih member lists
  | @killed left _ host _ _ _ there killed _ ih =>
    have apart : id ≠ left := by
      rintro rfl
      cases there.symm.trans lists.there
      cases killed.symm.trans lists.held
    exact ih ((List.mem_cons.mp member).resolve_left apart) (lists.leave apart)
  | @asks asked rest host _ _ there alive =>
    refine ⟨lists, ?_⟩
    by_cases same : id = asked
    · subst same
      cases there.symm.trans lists.there
      cases alive.symm.trans lists.held
      exact .inl ⟨rest, rfl⟩
    · exact .inr ⟨_, _, _, _, rfl, Ne.symm same, (List.mem_cons.mp member).resolve_left same⟩

theorem Registry.restsIn_iff {state : State} :
    restsIn (some state) = true ↔ state = .stopped ∨ state = .paused := by
  cases state <;> simp [restsIn]

def Progression.waits : Progression Answer → Bool
  | waiting .. => true
  | _ => false

def Answer.yes : Answer → Bool
  | flag value => value
  | _ => false

theorem Builtin.heedful_beating (config : Properties) : (beating config).heedful = true := rfl

namespace System

variable {before after : System Answer} {stages later : Nat → Option Stage} {event : Event}
  {place : Nat} {id : String} {server : ServerId} {number : ServiceId} {service next : Threaded}

/-- How far the removal of one server is, and what holds of its service meanwhile. -/
inductive Fate (system : System Answer) (place : Nat) (id : String) (server : ServerId)
    (number : ServiceId) (service : Threaded) : Option Stage → Prop where
  | ended {stage? : Option Stage} :
      service.Over → Fate system place id server number service stage?
  /-- Other removals come first. -/
  | upcoming {stage : Stage} {other : String} {holder : ServerId} :
      stage.removal? = some (other, holder) → other ≠ id → id ∈ stage.rest →
      system.host.Lists id server number → service.lifecycle.state ≠ .paused →
      Fate system place id server number service (some stage)
  | judging {rest : List String} {result : Answer} {call : Running Body} {since : Nat} :
      system.Asking place (.judging id server rest result) call since →
      call.work.service = number → call.work.phase = .fresh →
      system.host.Lists id server number → service.lifecycle.state ≠ .paused →
      Fate system place id server number service (some (.judging id server rest result))
  | judged {rest : List String} {result : Answer} :
      system.Told place (.judging id server rest result)
        (.ok (.ok (.state service.lifecycle.state))) →
      system.host.Lists id server number → service.lifecycle.state ≠ .paused →
      Fate system place id server number service (some (.judging id server rest result))
  | stopping {rest : List String} {result : Answer} {call : Running Body} {since : Nat} :
      system.Asking place (.stopping id server rest result) call since →
      call.work.service = number → call.work.phase = .fresh →
      Fate system place id server number service (some (.stopping id server rest result))
  | ending {rest : List String} {result : Answer} {call : Running Body} {since : Nat}
      {generation expires : Nat} :
      system.Asking place (.stopping id server rest result) call since →
      call.work.service = number → call.work.phase = .stopping generation expires →
      service.Ending generation expires system.now →
      Fate system place id server number service (some (.stopping id server rest result))

/-- A row of removals that goes on has the server still before it, or asks for its state. -/
theorem fate_of_sweep {result : Answer} {ids : List String} {host middle : Host} {halt : Halt}
    (sweep : Sweep result ids middle halt host) (member : id ∈ ids)
    (lists : middle.Lists id server number) (awake : service.lifecycle.state ≠ .paused)
    (same : after.host = host) {since : Nat}
    (asks : ∀ asked waiting, halt = .waits asked waiting →
      ∃ request, after.Asking place waiting ⟨request, true, ⟨asked, waiting.query, .fresh⟩⟩ since) :
    after.Fate place id server number service halt.stage? := by
  obtain ⟨lists, ⟨rest, rfl⟩ | ⟨asked, other, holder, rest, rfl, apart, member⟩⟩ :=
    sweep.finds member lists
  · obtain ⟨request, asking⟩ := asks _ _ rfl
    exact .judging asking rfl rfl (same ▸ lists) awake
  · exact .upcoming rfl apart member (same ▸ lists) awake

/-- While the removal and its call stand still, its service may do something by itself. -/
theorem Fate.stays {stage? : Option Stage} (fate : before.Fate place id server number service stage?)
    (sound : service.Sound) (executor : after.executor = before.executor)
    (now : after.now = before.now) (lists : before.host.Lists id server number →
      after.host.Lists id server number)
    (waits : ∀ call next, before.procedures[place]? = some (.waiting call next) →
      after.procedures[place]? = some (.waiting call next))
    (services : ∀ number service, before.host.service? number = some (.threaded service) →
      ∃ next, after.host.service? number = some (.threaded next))
    (change : next = service ∨ service.Stir next) :
    after.Fate place id server number next stage? := by
  have state : next.lifecycle.state = service.lifecycle.state := by
    rcases change with rfl | stir
    · rfl
    · exact stir.machine.1
  cases fate with
  | ended stopped =>
    rcases change with rfl | stir
    · exact .ended stopped
    · exact .ended (stir.keeps_over sound stopped)
  | upcoming removal apart member listed awake =>
    exact .upcoming removal apart member (lists listed) (state ▸ awake)
  | judging asking own fresh listed awake =>
    exact .judging (asking.stays executor now waits services) own fresh (lists listed)
      (state ▸ awake)
  | judged told listed awake =>
    obtain ⟨call, waiting, answered⟩ := told.waits
    exact .judged ⟨executor ▸ told.idle, call, waits _ _ waiting, by rw [executor, state, answered]⟩
      (lists listed) (state ▸ awake)
  | stopping asking own fresh =>
    exact .stopping (asking.stays executor now waits services) own fresh
  | ending asking own phase ending =>
    refine .ending (asking.stays executor now waits services) own phase ?_
    rw [now]
    rcases change with rfl | stir
    · exact ending
    · exact stir.ending sound ending

/-- Time passes only when runs that heed stops are gone. -/
theorem Fate.wait {stage? : Option Stage} (fate : before.Fate place id server number service stage?)
    (sound : service.Sound) (found : before.host.service? number = some (.threaded service))
    {instant : Nat} (prompt : before.prompts (.wait instant) = true) :
    System.Fate { before with now := instant } place id server number service stage? := by
  have quiet := quiet_of_wait prompt
  cases fate with
  | ended stopped => exact .ended stopped
  | upcoming removal apart member lists awake => exact .upcoming removal apart member lists awake
  | judging asking own fresh lists awake =>
    exact .judging (asking.wait prompt) own fresh lists awake
  | judged told =>
    obtain ⟨call, waiting, answered⟩ := told.waits
    cases (not_answered_of_quiet quiet waiting).symm.trans answered
  | stopping asking own fresh => exact .stopping (asking.wait prompt) own fresh
  | ending asking own phase ending =>
    refine .ending (asking.wait prompt) own phase ⟨ending.task, ending.asked, ?_⟩
    intro heedful alive
    -- A run that heeds stops would be ready.
    exact absurd (not_lively quiet found) (ending.ready sound heedful alive _ _)

theorem Fate.turn {stage? : Option Stage} (fate : before.Fate place id server number service stage?)
    (posture : before.Posture place stage?) (sound : before.Sound) {call : Running Body}
    {served changed : Threaded} {phase : Phase}
    (found : before.host.service? number = some (.threaded service))
    (running : before.executor.running = [call])
    (there : before.host.service? call.work.service = some (.threaded served))
    (turn : served.Turn before.now call.work.query call.work.phase phase changed) :
    ∃ next, (before.withService call.work.service (.threaded changed)).host.service? number =
        some (.threaded next) ∧ next.loop = service.loop ∧
      System.Fate
        { before.withService call.work.service (.threaded changed) with
          executor := moved before.executor call phase }
        place id server number next stage? := by
  have own := sound.threaded _ _ there
  by_cases mine : call.work.service = number
  · subst mine
    cases found.symm.trans there
    refine ⟨changed, service?_withService_self found _, turn.loop, ?_⟩
    cases posture with
    | ended idle => cases idle.running.symm.trans running
    | told _ _ told => cases told.idle.running.symm.trans running
    | asks removal _ asking =>
      cases asking.running.symm.trans running
      have query := asking.query
      obtain ⟨no_start, no_pause⟩ := Stage.query_of_removal removal
      cases fate with
      | ended stopped => exact .ended (turn.keeps_over own (query ▸ no_start) stopped)
      | upcoming removal' apart member lists awake =>
        exact .upcoming removal' apart member ⟨lists.there, lists.held⟩
          (turn.not_paused (query ▸ no_pause) awake)
      | judging asking' mine fresh lists awake =>
        cases asking'.running.symm.trans running
        rw [query, fresh] at turn
        cases turn with
        | told => exact .judged asking.ends ⟨lists.there, lists.held⟩ awake
      | judged told => cases told.idle.running.symm.trans running
      | stopping asking' mine fresh =>
        cases asking'.running.symm.trans running
        rw [query, fresh] at turn
        rcases turn.begins_stop own with ⟨generation, rfl, ending⟩ | ⟨rfl, stopped⟩
        · exact .ending (asking.waits_on fresh ⟨_, found⟩) rfl rfl ending
        · exact .ended stopped
      | ending asking' mine waiting ending =>
        cases asking'.running.symm.trans running
        rw [waiting] at turn
        exact .ended (turn.ends_stop own ending).2
  -- The call is made of another service, so ours has none under way.
  · have same := service?_withService_of_ne before (Ne.symm mine) (.threaded changed)
    refine ⟨service, same.trans found, rfl, ?_⟩
    cases fate with
    | ended stopped => exact .ended stopped
    | upcoming removal apart member lists awake =>
      exact .upcoming removal apart member ⟨lists.there, lists.held⟩ awake
    | judging asking own | stopping asking own | ending asking own =>
      cases asking.running.symm.trans running
      exact absurd own mine
    | judged told => cases told.idle.running.symm.trans running

theorem Fate.resume {stage : Stage} (fate : before.Fate place id server number service (some stage))
    (posture : before.Posture place (some stage)) (sound : service.Sound)
    (permits : 0 < before.executor.capacity) (numbered : before.executor.Numbered)
    (lively : before.host.Lively) {call : Nat} {answer : CallAnswer} {halt : Halt} {host : Host}
    (waits : before.procedures[place]? = some (.waiting call stage.next))
    (answered : before.executor.answer? call = some answer)
    (part : stage.Section before.host answer halt host) :
    System.Fate
      { (before.answered call).arrived host halt with
        procedures := before.procedures.set place ((before.answered call).progression halt) }
      place id server number service halt.stage? := by
  have silent : ∀ {asked : Running Body} {since : Nat}, ¬before.Asking place stage asked since := by
    intro asked since asking
    cases asking.waits.symm.trans waits
    cases asking.unanswered.symm.trans answered
  cases posture with
  | asks _ _ asking => exact absurd asking silent
  | told removal there free =>
    have asks : ∀ asked waiting, halt = .waits asked waiting → ∃ request, System.Asking
        { (before.answered call).arrived host halt with
          procedures := before.procedures.set place ((before.answered call).progression halt) }
        place waiting ⟨request, true, ⟨asked, waiting.query, .fresh⟩⟩ before.now := by
      rintro asked waiting rfl
      obtain ⟨other, holder, _, lists⟩ := part.waits_for removal there
      exact free.asks permits numbered waits
        ((part.shrinks removal).lively lively other holder asked lists.there lists.held)
    cases fate with
    | ended stopped => exact .ended stopped
    | judging asking | stopping asking | ending asking => exact absurd asking silent
    | judged told lists awake =>
      obtain ⟨number', waiting, told⟩ := told.waits
      cases waiting.symm.trans waits
      obtain rfl := Option.some.inj (told.symm.trans answered)
      cases part with
      | judged rests =>
        -- The service is not PAUSED, so the removal has gone without a stop because of STOPPED.
        have stopped := (Registry.restsIn_iff.mp rests).resolve_right awake
        exact .ended (sound.over_of_task_none (by rw [sound.machine.task_eq, if_pos stopped]))
      | stops _ alive =>
        cases alive.symm.trans lists.held
        obtain ⟨request, asking⟩ := asks _ _ rfl
        exact .stopping asking rfl rfl
      | outrun _ killed => cases killed.symm.trans lists.held
    -- Nothing that is done for the other server touches the entry of ours.
    | upcoming removal' apart member lists awake =>
      cases part with
      | unwrapped | duplicate | entered | starts | started | rollsBack | answered => cases removal
      | judged _ sweep =>
        cases removal'
        exact fate_of_sweep sweep member ((lists.noted ..).leave apart.symm) awake
          (host_arrived ..) asks
      | stops =>
        cases removal'
        exact .upcoming rfl apart member (lists.noted ..) awake
      | outrun _ _ sweep =>
        cases removal'
        exact fate_of_sweep sweep member (((lists.noted ..).record ..).unregistered apart.symm ..)
          awake (host_arrived ..) asks
      | stopped sweep =>
        cases removal'
        exact fate_of_sweep sweep member ((lists.noted ..).unregistered apart.symm ..) awake
          (host_arrived ..) asks

/-! ## Removals from beginning to end -/

/-- Whether no call is under way: none in the executor, and no procedure that waits for one. -/
structure Quiet (system : System Answer) : Prop where
  idle : system.executor.Idle
  silent : system.procedures.any Progression.waits = false

/-- A removal that is alone: the one that began in a place, and what it does to a service. -/
structure Removing (place : Nat) (id : String) (server : ServerId) (number : ServiceId)
    (loop : RunLoop) (system : System Answer) (stages : Nat → Option Stage) : Prop where
  sound : system.Sound
  numbered : system.executor.Numbered
  permits : 0 < system.executor.capacity
  lively : system.host.Lively
  alone : ∀ other, other ≠ place → stages other = none
  posture : system.Posture place (stages place)
  held : system.host.serviceOf server = some number
  fate : ∃ service, system.host.service? number = some (.threaded service) ∧
    service.loop = loop ∧ system.Fate place id server number service (stages place)

theorem Removing.step {loop : RunLoop} (removing : Removing place id server number loop before stages)
    (step : before.Step stages event after later) (prompt : before.prompts event = true) :
    Removing place id server number loop after later := by
  obtain ⟨service, found, loop_eq, fate⟩ := removing.fate
  have own := removing.sound.threaded _ _ found
  have move := removing.posture.move removing.sound removing.alone step prompt
  obtain ⟨there, held⟩ := move.shrinks removing.posture
  have lively := step.lively removing.sound removing.lively there held
  refine ⟨step.sound removing.sound, step.numbered removing.numbered,
    move.capacity ▸ removing.permits, lively, move.alone removing.alone,
    removing.posture.step removing.permits removing.numbered lively move,
    (held server).trans removing.held, ?_⟩
  cases move with
  | stays executor now directory servers waits services =>
    obtain ⟨next, here, change⟩ := services number service found
    have same : next.loop = service.loop := by
      rcases change with rfl | stir
      · rfl
      · exact stir.machine.2.2.2
    refine ⟨next, here, same.trans loop_eq, fate.stays own executor now ?_ waits ?_ change⟩
    · exact fun lists => ⟨directory ▸ lists.there, (held server).trans lists.held⟩
    · intro number service found
      obtain ⟨next, there, _⟩ := services number service found
      exact ⟨next, there⟩
  | waits prompt => exact ⟨service, found, loop_eq, fate.wait own found prompt⟩
  | turns running served turn =>
    obtain ⟨next, here, same, fate⟩ := fate.turn removing.posture removing.sound found running served turn
    exact ⟨next, here, same.trans loop_eq, fate⟩
  | @resumes stage call answer halt host stands waits answered part =>
    have posture := removing.posture
    rw [stands] at posture fate
    obtain ⟨about, removal⟩ := posture.removal
    refine ⟨service, ?_, loop_eq, ?_⟩
    · refine Eq.trans ?_ found
      rw [← Host.service?_eq_of_services (part.shrinks removal).alike.services number]
      exact congrArg (fun host : Host => host.service? number) (host_arrived ..)
    · rw [Stage.put_self]
      exact fate.resume posture own removing.permits removing.numbered removing.lively waits answered
        part

theorem Quiet.no_stages (quiet : before.Quiet) (tracks : before.Tracks stages) (place : Nat) :
    stages place = none := by
  cases stands : stages place with
  | none => rfl
  | some stage =>
    obtain ⟨call, waits⟩ := tracks.waits place stage stands
    have silent := List.any_eq_false.mp quiet.silent _ (List.mem_of_getElem? waits)
    exact absurd rfl silent

/-- A removal begins while nothing else is under way: it makes its first call, or is over. -/
theorem removing_of_sweep {result : Answer} {ids : List String} {halt : Halt} {host : Host}
    (sweep : Sweep result ids before.host halt host)
    (numbered : before.executor.Numbered) (idle : before.executor.Idle)
    (permits : 0 < before.executor.capacity) (lively : before.host.Lively) :
    (∀ asked waiting, halt = .waits asked waiting → ∃ request, System.Asking
        { before.arrived host halt with
          procedures := before.procedures ++ [before.progression halt] }
        before.procedures.length waiting ⟨request, true, ⟨asked, waiting.query, .fresh⟩⟩
        before.now) ∧
      System.Posture
        { before.arrived host halt with
          procedures := before.procedures ++ [before.progression halt] }
        before.procedures.length halt.stage? := by
  have asks : ∀ asked waiting, halt = .waits asked waiting → ∃ request, System.Asking
      { before.arrived host halt with
        procedures := before.procedures ++ [before.progression halt] }
      before.procedures.length waiting ⟨request, true, ⟨asked, waiting.query, .fresh⟩⟩
      before.now := by
    rintro asked waiting rfl
    obtain ⟨other, holder, _, _, listed⟩ := sweep.waits_for
    exact asking_of_arrived before _ host idle permits numbered rfl rfl
      (List.getElem?_concat_length ..)
      ((Host.Shrinks.of_sweep sweep).lively lively other holder asked listed.there listed.held)
  refine ⟨asks, ?_⟩
  cases halt with
  | ended => exact .ended idle
  | waits asked waiting =>
    obtain ⟨other, holder, rest, rfl, listed⟩ := sweep.waits_for
    obtain ⟨request, asking⟩ := asks _ _ rfl
    exact .asks rfl listed.there asking

theorem Step.removing {operation : Operation}
    (step : before.Step stages (.launch operation) after later) (tracks : before.Tracks stages)
    (sound : before.Sound) (numbered : before.executor.Numbered) (quiet : before.Quiet)
    (permits : 0 < before.executor.capacity) (lively : before.host.Lively)
    (removes : operation = .remove id ∨ operation = .shutdown)
    (lists : before.host.Lists id server number)
    (found : before.host.service? number = some (.threaded service))
    (ready : service.lifecycle.state = .paused → service.lifecycle.isAlive = false) :
    Removing before.procedures.length id server number service.loop after later := by
  have after_sound := step.sound sound
  have after_numbered := step.numbered numbered
  have alone : ∀ halt : Halt, ∀ other, other ≠ before.procedures.length →
      Stage.put stages before.procedures.length halt.stage? other = none := by
    intro halt other apart
    rw [Stage.put_of_ne apart, quiet.no_stages tracks other]
  have swept : ∀ {result : Answer} {ids : List String} {halt : Halt} {host : Host},
      Sweep result ids before.host halt host → id ∈ ids →
      after = { before.arrived host halt with
        procedures := before.procedures ++ [before.progression halt] } →
      later = Stage.put stages before.procedures.length halt.stage? →
      Removing before.procedures.length id server number service.loop after later := by
    rintro result ids halt host sweep member rfl rfl
    have shrinks := Host.Shrinks.of_sweep sweep
    obtain ⟨asks, posture⟩ := removing_of_sweep sweep numbered quiet.idle permits lively
    have capacity : (before.arrived host halt).executor.capacity = before.executor.capacity := by
      cases halt <;> rfl
    refine ⟨after_sound, after_numbered, capacity ▸ permits, ?_, alone halt, ?_, ?_, service, ?_,
      rfl, ?_⟩
    · simpa using shrinks.lively lively
    · rw [Stage.put_self]
      exact posture
    · simpa using (shrinks.alike.serviceOf server).trans lists.held
    · simpa [Host.service?_eq_of_services shrinks.alike.services] using found
    · rw [Stage.put_self]
      -- A paused service whose run is over has nothing left to be stopped.
      by_cases paused : service.lifecycle.state = .paused
      · exact .ended ((sound.threaded _ _ found).over_of_not_isAlive (ready paused))
      · exact fate_of_sweep sweep member lists paused (host_arrived ..) asks
  have listed : id ∈ before.host.ids := before.host.directory.mem_keys_of_get? lists.there
  cases step with
  | stir stirs => cases stirs
  | launch part =>
    rcases removes with rfl | rfl
    · exact swept (part.sweep_of_remove lists.there) (List.mem_singleton.mpr rfl) rfl rfl
    · exact swept part.sweep_of_shutdown listed rfl rfl

/-- Nothing comes alive, or counts, before the next launch. -/
theorem Step.still (step : before.Step stages event after later) (sound : before.Sound)
    (found : before.host.service? number = some (.threaded service)) :
    ∃ next, after.host.service? number = some (.threaded next) ∧
      service.lifecycle.generations.issued ≤ next.lifecycle.generations.issued ∧
      (next.lifecycle.generations.issued = service.lifecycle.generations.issued →
        service.live = [] → service.dying = [] →
          next.live = [] ∧ next.dying = [] ∧ next.count = service.count) := by
  obtain ⟨next, there, effect⟩ := step.effect sound found
  refine ⟨next, there, (effect.extends_ (sound.threaded _ _ found)).issued,
    fun same quiet whole => ?_⟩
  cases effect with
  | same | configured => exact ⟨quiet, whole, rfl⟩
  | killed => exact ⟨by simp [Threaded.kill, quiet], by simp [Threaded.kill, quiet, whole], rfl⟩
  | turned _ _ turn => exact ⟨(turn.live same).trans quiet, turn.dying.trans whole, turn.count⟩
  | stirred stir =>
    obtain ⟨live, count⟩ := stir.live_nil quiet
    exact ⟨live, stir.dying_eq_nil whole, count⟩

/-- When a removal or a shutdown has returned that was alone, every run of a service with a run
loop that it removed has ended or was asked to stop, unless the service was PAUSED and its run went
on. If runs heed such requests, none is alive, and until somebody launches one by hand the service
counts no more. -/
theorem stopped_when_removed {host : Host} {capacity : Nat} {past events : List Event}
    {begun : System Answer} {operation : Operation} {yield : Yield Answer} (unused : host.Unused)
    (reaches : Reaches (.start host capacity) past before) (quiet : before.Quiet)
    (permits : before.executor.inFlight < before.executor.capacity)
    (lively : before.host.Lively) (removes : operation = .remove id ∨ operation = .shutdown)
    (lists : before.host.Lists id server number)
    (found : before.host.service? number = some (.threaded service))
    (ready : service.lifecycle.state = .paused → service.lifecycle.isAlive = false)
    (launched : before.after? (.launch operation) = some begun)
    (proceeds : begun.proceeds? events = some after)
    (returned : after.yield? before.procedures.length = some yield) :
    ∃ removed, after.host.service? number = some (.threaded removed) ∧
      (∀ generation, removed.lifecycle.isFinished generation = true ∨
        removed.lifecycle.stopRequested generation = true) ∧
      (service.Heedful → removed.live = [] ∧ removed.dying = [] ∧
        ∀ more last, after.runs? more = some last →
          ∃ final, last.host.service? number = some (.threaded final) ∧
            (final.lifecycle.generations.issued = removed.lifecycle.generations.issued →
              final.live = [] ∧ final.dying = [] ∧ final.count = removed.count)) := by
  obtain ⟨stages, trail⟩ := reaches_iff_trail.mp reaches
  obtain ⟨sound, _⟩ := trail.sound unused
  obtain ⟨later, step⟩ := trail.tracks.exists_step launched
  have removing := step.removing trail.tracks sound trail.numbered quiet
    (Nat.lt_of_le_of_lt (Nat.zero_le _) permits) lively removes lists found ready
  obtain ⟨final, onward, removing⟩ := (trail.next launched step).proceeds proceeds removing
    fun _ step prompt removing => removing.step step prompt
  -- What has yielded waits for nothing.
  have stopped : final before.procedures.length = none := by
    cases stands : final before.procedures.length with
    | none => rfl
    | some stage =>
      obtain ⟨call, waits⟩ := onward.tracks.waits _ stage stands
      simp [yield?, waits] at returned
  obtain ⟨removed, there, loop, fate⟩ := removing.fate
  rw [stopped] at fate
  have own := removing.sound.threaded _ _ there
  cases fate with
  | ended stopped =>
    refine ⟨removed, there, own.asked_of_over stopped, fun heedful => ?_⟩
    have ended := stopped.ended (Threaded.heedful_of_loop loop.symm heedful)
    have whole := onward.intact unused number (.server server) removed removing.held there
    refine ⟨ended, whole, fun more last runs => ?_⟩
    -- From here on anybody may do anything; the count stands still until the next launch.
    let Holds (system : System Answer) (_ : Nat → Option Stage) : Prop := system.Sound ∧
      ∃ service, system.host.service? number = some (.threaded service) ∧
        removed.lifecycle.generations.issued ≤ service.lifecycle.generations.issued ∧
        (service.lifecycle.generations.issued = removed.lifecycle.generations.issued →
          service.live = [] ∧ service.dying = [] ∧ service.count = removed.count)
    have holds : Holds after final :=
      ⟨removing.sound, removed, there, Nat.le_refl _, fun _ => ⟨ended, whole, rfl⟩⟩
    obtain ⟨_, _, _, last_service, here, _, still⟩ := onward.onward runs holds
      fun {_ _ _ _ _} _ _ step holds => by
        obtain ⟨sound, service, found, since, still⟩ := holds
        obtain ⟨next, there, grows, quiet⟩ := step.still sound found
        refine ⟨step.sound sound, next, there, Nat.le_trans since grows, fun same => ?_⟩
        obtain ⟨idle, spared, counts⟩ := still (Nat.le_antisymm (same ▸ grows) since)
        obtain ⟨live, dying, count⟩ := quiet (Nat.le_antisymm (same ▸ since) grows) idle spared
        exact ⟨live, dying, count.trans counts⟩
    exact ⟨last_service, here, still⟩

/-! ### A removal while the service goes on, and one while it is paused -/

def sole : System Answer := .start .bare 1

def beater : Blueprint := ⟨"beater", .threaded "Beater" "1" Builtin.beating⟩

def beaterId : String := "Beater:1:0.0/local"

/-- The beater is started, and waits for its first beat. Only the directory holds its server. -/
def beating : List Event :=
  [.launch (.add beater Table.empty), .serve 0, .resume 0, .serve 0, .resume 0, .take 0 none,
    .go 0 0, .go 0 0, .go 0 0, .go 0 0]

/-- The removal is told the state, and then waits for the run. -/
def stopping : List Event :=
  [.serve 0, .resume 1, .serve 0, .go 0 0, .record 0 1, .serve 0, .resume 1]

/-- The beater is paused; after one more beat its run waits for the end of the pause. -/
def parking : List Event :=
  [.launch (.call 0 (.control .pause)), .serve 0, .resume 1, .wait 1000, .go 0 0, .go 0 0, .go 0 0,
    .go 0 0]

/-- The removal is told the state, and is over. -/
def sparing : List Event := [.serve 0, .resume 2]

/-- The run goes on by itself, up to its next beat. -/
def loosened : List Event := [.go 0 0, .go 0 0, .wait 2000, .go 0 0, .go 0 0]

/-- Whether nothing is under way, all servers are around services with a run loop, and the beater
can be found. -/
def removable (system : System Answer) : Bool :=
  system.executor.queue.isEmpty && system.executor.running.isEmpty &&
    !system.procedures.any Progression.waits &&
    decide (system.executor.inFlight < system.executor.capacity) &&
    system.host.servers.all (fun entry => entry.service.all fun number =>
      (system.host.threaded? number).isSome) &&
    system.host.directory.get? beaterId == some 0 && system.host.serviceOf 0 == some 0

theorem lively_of_threaded {host : Host}
    (all : host.servers.all (fun entry => entry.service.all fun number =>
      (host.threaded? number).isSome) = true) : host.Lively := by
  intro id server number _ held
  obtain ⟨entry, there, own⟩ := Option.bind_eq_some_iff.mp held
  have some_there := List.all_eq_true.mp all entry (List.mem_of_getElem? there)
  rw [own, Option.all_some] at some_there
  obtain ⟨service, found⟩ := Option.isSome_iff_exists.mp some_there
  exact ⟨service, Host.threaded?_eq_some.mp found⟩

theorem spec_of_removable {system : System Answer} (removable : system.removable = true) :
    system.Quiet ∧ system.executor.inFlight < system.executor.capacity ∧ system.host.Lively ∧
      system.host.Lists beaterId 0 0 := by
  simp only [System.removable, Bool.and_eq_true, List.isEmpty_iff, Bool.not_eq_true',
    decide_eq_true_eq, beq_iff_eq] at removable
  obtain ⟨⟨⟨⟨⟨⟨queue, running⟩, silent⟩, permits⟩, threaded⟩, there⟩, held⟩ := removable
  exact ⟨⟨⟨queue, running⟩, silent⟩, permits, lively_of_threaded threaded, there, held⟩

/-- What can be seen of the removal of the beater, and of what comes after it. -/
def sight {α : Type} (past events more : List Event)
    (view : System Answer → System Answer → System Answer → Option α) : Option α :=
  (sole.runs? past).bind fun before =>
    (before.after? (.launch (.remove beaterId))).bind fun begun =>
      (begun.proceeds? events).bind fun after =>
        (after.proceeds? more).bind fun last => view before after last

theorem exists_of_sight {α : Type} {past events more : List Event}
    {view : System Answer → System Answer → System Answer → Option α} {seen : α}
    (saw : sight past events more view = some seen) :
    ∃ before begun after last, sole.runs? past = some before ∧
      before.after? (.launch (.remove beaterId)) = some begun ∧
      begun.proceeds? events = some after ∧ after.proceeds? more = some last ∧
      view before after last = some seen := by
  obtain ⟨before, enters, saw⟩ := Option.bind_eq_some_iff.mp saw
  obtain ⟨begun, begins, saw⟩ := Option.bind_eq_some_iff.mp saw
  obtain ⟨after, ends, saw⟩ := Option.bind_eq_some_iff.mp saw
  obtain ⟨last, goes, saw⟩ := Option.bind_eq_some_iff.mp saw
  exact ⟨before, begun, after, last, enters, begins, ends, goes, saw⟩

theorem heedful_of_beater {past : List Event} {system : System Answer} {service : Threaded}
    (runs : sole.runs? past = some system)
    (fact : (sole.runs? past).map (fun system => (system.host.threaded? 0).map Threaded.loop) =
      some (some Builtin.beating))
    (found : system.host.threaded? 0 = some service) : service.Heedful := by
  have loop := view_of_runs runs (fun system => (system.host.threaded? 0).map Threaded.loop) fact
  rw [found] at loop
  have same : service.loop = Builtin.beating := Option.some.inj loop
  unfold Threaded.Heedful
  rw [same]
  exact Builtin.heedful_beating

/-- A removal of the beater is over: nobody has asked its run to stop, and it beats again. -/
theorem loose_when_removed :
    ∃ before begun after last service removed final, Reaches sole (beating ++ parking) before ∧
      before.Quiet ∧ before.executor.inFlight < before.executor.capacity ∧ before.host.Lively ∧
      before.host.Lists beaterId 0 0 ∧ before.host.service? 0 = some (.threaded service) ∧
      service.Heedful ∧ service.lifecycle.state = .paused ∧
      before.after? (.launch (.remove beaterId)) = some begun ∧
      begun.proceeds? sparing = some after ∧
      (after.yield? before.procedures.length).any (fun yield => yield.value.yes) = true ∧
      after.host.service? 0 = some (.threaded removed) ∧
      removed.lifecycle.isFinished 1 = false ∧ removed.lifecycle.stopRequested 1 = false ∧
      after.proceeds? loosened = some last ∧ last.host.service? 0 = some (.threaded final) ∧
      final.count = removed.count + 1 := by
  obtain ⟨before, begun, after, last, enters, begins, ends, goes, saw⟩ := exists_of_sight
    (by decide +kernel : sight (beating ++ parking) sparing loosened (fun before after last =>
      (before.host.threaded? 0).bind fun service => (after.host.threaded? 0).bind fun removed =>
        (last.host.threaded? 0).map fun final =>
          (before.removable, service.lifecycle.state,
            (after.yield? before.procedures.length).any fun yield => yield.value.yes,
            removed.lifecycle.isFinished 1, removed.lifecycle.stopRequested 1,
            decide (final.count = removed.count + 1))) =
      some (true, State.paused, true, false, false, true))
  obtain ⟨service, found, saw⟩ := Option.bind_eq_some_iff.mp saw
  obtain ⟨removed, there, saw⟩ := Option.bind_eq_some_iff.mp saw
  obtain ⟨final, here, saw⟩ := Option.map_eq_some_iff.mp saw
  simp only [Prod.mk.injEq, decide_eq_true_eq] at saw
  obtain ⟨removable, paused, yes, unfinished, unasked, beats⟩ := saw
  obtain ⟨quiet, permits, lively, lists⟩ := spec_of_removable removable
  have threaded := Host.threaded?_eq_some.mp found
  have heedful := heedful_of_beater enters (by rfl) found
  exact ⟨before, begun, after, last, service, removed, final, Reaches.start.runs enters, quiet,
    permits, lively, lists, threaded, heedful, paused, begins, ends, yes,
    Host.threaded?_eq_some.mp there, unfinished, unasked, goes, Host.threaded?_eq_some.mp here,
    beats⟩

/-- The beater is removed while it goes on: its run has ended when the removal returns. -/
theorem stopped_when_removed_beating :
    ∃ before begun after removed, Reaches sole beating before ∧
      before.after? (.launch (.remove beaterId)) = some begun ∧
      begun.proceeds? stopping = some after ∧
      after.host.service? 0 = some (.threaded removed) ∧
      (∀ generation, removed.lifecycle.isFinished generation = true ∨
        removed.lifecycle.stopRequested generation = true) ∧
      removed.live = [] ∧ removed.dying = [] := by
  obtain ⟨before, begun, after, _, enters, begins, ends, _, saw⟩ := exists_of_sight
    (by decide +kernel : sight beating stopping [] (fun before after _ =>
      (before.host.threaded? 0).map fun service =>
        (before.removable, decide (service.lifecycle.state ≠ .paused),
          (after.yield? before.procedures.length).isSome)) = some (true, true, true))
  obtain ⟨service, found, saw⟩ := Option.map_eq_some_iff.mp saw
  simp only [Prod.mk.injEq, decide_eq_true_eq] at saw
  obtain ⟨removable, awake, yields⟩ := saw
  obtain ⟨quiet, permits, lively, lists⟩ := spec_of_removable removable
  obtain ⟨yield, returned⟩ := Option.isSome_iff_exists.mp yields
  obtain ⟨removed, there, asked, heeds⟩ := stopped_when_removed Host.unused_bare
    (Reaches.start.runs enters) quiet permits lively (.inl rfl) lists
    (Host.threaded?_eq_some.mp found) (fun paused => absurd paused awake) begins ends returned
  have heedful := heedful_of_beater enters (by rfl) found
  obtain ⟨ended, dropped, _⟩ := heeds heedful
  exact ⟨before, begun, after, removed, Reaches.start.runs enters, begins, ends, there, asked, ended,
    dropped⟩

end System
end ServiceHost
