import ServiceHost.Proofs.Host.Effects

/-! What becomes of a service that somebody holds.

A host tears no service down but with the server around it. So while its server has not been killed,
all that is done to a service from outside of its calls is that it is configured.
-/

set_option autoImplicit false

namespace ServiceHost

variable {host after : Host} {halt : Halt} {id : ServiceId} {service : Service}

/-- Nothing has been done to a service, save that it may have been configured. -/
def Host.Spares (host after : Host) (id : ServiceId) : Prop :=
  after.service? id = host.service? id ∨
    ∃ config, after.service? id = (host.service? id).map (Service.setConfig config)

namespace Host.Spares

theorem of_services (same : after.services = host.services) : host.Spares after id :=
  .inl (service?_eq_of_services same id)

theorem make (blueprint : Blueprint) (found : host.service? id = some service) :
    host.Spares (host.make blueprint).2 id := by
  obtain ⟨made, services, _⟩ := host.services_make blueprint
  left
  rw [service?, service?, services, List.getElem?_append_left (lt_of_service? found)]

/-- A server that is killed takes no other service with it than its own. -/
theorem killServer {target : ServerId} (spared : host.serviceOf target ≠ some id) :
    host.Spares (host.killServer target).2 id := by
  left
  rw [service?_killServer, if_neg spared]

theorem configure (target : ServerId) (config : Properties) :
    host.Spares (host.configure target config) id := by
  unfold Spares
  rw [service?_configure]
  split
  · exact .inr ⟨config, rfl⟩
  · exact .inl rfl

theorem following {first : Host} (spares : host.Spares after id)
    (same : host.services = first.services) : first.Spares after id := by
  unfold Spares at *
  rwa [← service?_eq_of_services same id]

end Host.Spares

theorem Operation.Section.sparing {operation : Operation} (part : operation.Section host halt after)
    (found : host.service? id = some service)
    (keeps : ∀ server, host.serviceOf server = some id → after.serviceOf server = some id) :
    host.Spares after id := by
  cases part with
  | rejected | absent | spares | calls | rests | refused => exact .of_services rfl
  | made blueprint resolvers =>
    have there : ({ host with resolvers } : Host).service? id = some service := found
    exact (Host.Spares.make blueprint there).following rfl
  | removes _ sweep | shuts sweep => exact .of_services sweep.alike.services
  | configures => exact .configure ..
  | @kills left target there =>
    refine (Host.Spares.killServer fun held => ?_).following rfl
    have kept := keeps target held
    rw [Host.serviceOf_killServer, if_pos rfl] at kept
    cases kept
  | @killsServer target =>
    refine .killServer fun held => ?_
    have kept := keeps target held
    rw [Host.serviceOf_killServer, if_pos rfl] at kept
    cases kept

theorem Stage.Section.sparing {stage : Stage} {answer : CallAnswer}
    (part : stage.Section host answer halt after)
    (keeps : ∀ server, host.serviceOf server = some id → after.serviceOf server = some id)
    (passes : stage.wraps? = some id → after.serviceOf host.servers.length = some id) :
    host.Spares after id := by
  cases part with
  | unwrapped | started | entered => exact .of_services rfl
  | @duplicate service origin _ answer taken =>
    refine (Host.Spares.killServer fun held => ?_).following rfl
    rw [Host.serviceOf_addServer, if_pos rfl] at held
    have passed := passes held
    rw [Host.serviceOf_killServer, if_pos rfl] at passed
    cases passed
  | starts => exact (Host.Spares.configure ..).following rfl
  | @rollsBack target =>
    let noted := host.noted target (.control .start) answer
    have same : (noted.leave (noted.idOf target)).services = host.services :=
      ((Host.Alike.refl host).noted ..).services
    have spared : (noted.leave (noted.idOf target)).serviceOf target ≠ some id := by
      intro held
      change noted.serviceOf target = some id at held
      rw [Host.serviceOf_noted] at held
      have kept := keeps target held
      change ((noted.leave (noted.idOf target)).killServer target).2.serviceOf target = _ at kept
      rw [Host.serviceOf_killServer, if_pos rfl] at kept
      cases kept
    exact (Host.Spares.killServer spared).following same
  | judged _ sweep =>
    exact .of_services ((((Host.Alike.refl _).noted ..).leave _).trans sweep.alike).services
  | stops | answered => exact .of_services ((Host.Alike.refl _).noted ..).services
  | outrun _ _ sweep =>
    exact .of_services
      (((((Host.Alike.refl _).noted ..).record ..).unregistered ..).trans sweep.alike).services
  | stopped sweep =>
    exact .of_services ((((Host.Alike.refl _).noted ..).unregistered ..).trans sweep.alike).services

namespace System

variable {before after : System Answer} {stages later : Nat → Option Stage} {event : Event}
  {holder : Holder}

/-- As long as somebody holds a service, no server has let go of it. -/
theorem Step.keeps_holding (step : before.Step stages event after later)
    (owned : before.host.Owned stages) (held : after.host.holds later id holder) {server : ServerId}
    (mine : before.host.serviceOf server = some id) : after.host.serviceOf server = some id := by
  obtain ⟨place, origin⟩ := step.origin
  have own : before.host.holds stages id (.server server) := mine
  cases origin id holder held with
  | kept earlier =>
    cases owned.sole _ _ _ own earlier
    exact held
  | passed earlier => cases owned.sole _ _ _ own earlier
  | made new => exact absurd new (Nat.ne_of_lt (owned.bound _ _ own))

/-- As long as somebody holds a service, it is spared by whatever is not done to it by itself. -/
theorem Step.spares (step : before.Step stages event after later) (owned : before.host.Owned stages)
    (held : after.host.holds later id holder) (found : before.host.service? id = some service)
    (serves : ∀ place, event ≠ .serve place) (stirs : event.stirs = false) :
    before.host.Spares after.host id := by
  have keeps : ∀ server, before.host.serviceOf server = some id →
      after.host.serviceOf server = some id := fun _ => step.keeps_holding owned held
  cases step with
  | launch part =>
    rw [host_arrived] at keeps ⊢
    exact part.sparing found keeps
  | @resume place call stage answer halt host stands waits told part =>
    rw [host_arrived] at keeps held ⊢
    apply part.sparing keeps
    intro wrapped
    have own : before.host.holds stages id (.procedure place) := by
      simp [Host.holds, stands, wrapped]
    -- The procedure itself holds nothing any more, so it has passed the service on to a server.
    cases holder with
    | server server =>
      rcases part.deals.servers server id held with earlier | ⟨rfl, _⟩
      · cases owned.sole id _ (.server server) own earlier
      · exact held
    | procedure other =>
      by_cases same : other = place
      · subst same
        simp [Host.holds, part.not_wraps] at held
      · rw [Host.holds, Stage.put_of_ne same] at held
        cases owned.sole id _ (.procedure other) own held
        exact absurd rfl same
  | serve => exact absurd rfl (serves _)
  | stir own => cases own.symm.trans stirs
  | expire | take | drop | wait => exact .of_services rfl

/-- A service that somebody holds was held before, unless it was just made. -/
theorem Step.held_before (step : before.Step stages event after later)
    (held : after.host.holds later id holder) (found : before.host.service? id = some service) :
    ∃ former, before.host.holds stages id former := by
  obtain ⟨place, origin⟩ := step.origin
  cases origin id holder held with
  | kept earlier | passed earlier => exact ⟨_, earlier⟩
  | made new => exact absurd new (Nat.ne_of_lt (Host.lt_of_service? found))

/-! ## No service that somebody holds was killed -/

/-- No run of a service that somebody holds was killed. -/
def Intact (system : System Answer) (stages : Nat → Option Stage) : Prop :=
  ∀ id holder service, system.host.holds stages id holder →
    system.host.service? id = some (.threaded service) → service.dying = []

/-- Neither a call of a service nor what it does by itself kills a run. -/
theorem Step.intact_of_own {service next : Threaded} (step : before.Step stages event after later)
    (sound : before.Sound) (found : before.host.service? id = some (.threaded service))
    (there : after.host.service? id = some (.threaded next)) (whole : service.dying = [])
    (own : (∃ place, event = .serve place) ∨ event.stirs = true) : next.dying = [] := by
  cases step with
  | @serve _ call serving _ _ listed served goes =>
    by_cases mine : call.work.service = id
    · subst mine
      cases served.symm.trans found
      obtain ⟨⟨turned, changed⟩, went, equation⟩ := Option.map_eq_some_iff.mp goes
      cases equation
      cases (service?_withService_self found _).symm.trans there
      exact (sound.turn (List.mem_of_getElem? listed) found went).dying.trans whole
    · cases ((service?_withService_of_ne before (Ne.symm mine) _).trans found).symm.trans there
      exact whole
  | @stir _ other _ _ _ here stir =>
    by_cases mine : id = other
    · subst mine
      cases here.symm.trans found
      cases (service?_withService_self found _).symm.trans there
      exact stir.dying_eq_nil whole
    · cases ((service?_withService_of_ne before mine _).trans found).symm.trans there
      exact whole
  | launch | resume | expire | take | drop | wait =>
    obtain ⟨_, none⟩ | none := own <;> cases none

theorem Step.intact (step : before.Step stages event after later) (owned : before.host.Owned stages)
    (sound : before.Sound) (intact : before.Intact stages) : after.Intact later := by
  intro id holder next held there
  rcases step.kinds there with ⟨_, new⟩ | ⟨service, found⟩
  · cases new
    rfl
  obtain ⟨former, earlier⟩ := step.held_before held found
  have whole := intact id former service earlier found
  by_cases own : (∃ place, event = .serve place) ∨ event.stirs = true
  · exact step.intact_of_own sound found there whole own
  obtain ⟨serves, stirs⟩ := not_or.mp own
  have spares := step.spares owned held found (fun place same => serves ⟨place, same⟩)
    (Bool.eq_false_iff.mpr stirs)
  rcases spares with same | ⟨config, same⟩ <;> rw [there, found] at same <;> cases same <;>
    exact whole

theorem Trail.intact {host : Host} {capacity : Nat} {past : List Event} (unused : host.Unused)
    (trail : Trail (.start host capacity) past before stages) : before.Intact stages := by
  induction trail with
  | start =>
    intro id holder service _ found
    simp [System.start, Host.service?, unused.services] at found
  | next earlier _ step ih =>
    obtain ⟨sound, owned⟩ := earlier.sound unused
    exact step.intact owned sound ih

end System
end ServiceHost
