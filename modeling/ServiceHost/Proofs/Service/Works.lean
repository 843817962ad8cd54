import Mathlib.Logic.Relation
import ServiceHost.Proofs.Service.Threaded
import ServiceHost.Service.Basic

/-! What a service does by itself, between a kill or a configuration and the next one.

Its calls and its runs take it from one state to another. None of them changes what it was
configured with, or how often it was torn down.
-/

set_option autoImplicit false

namespace ServiceHost

namespace Threaded

variable {service after : Threaded} {now : Nat} {query : Query} {before phase : Phase}

theorem config_startWith (service : Threaded) (config : Properties) :
    (service.startWith config).2.config = service.config := by
  cases began : service.lifecycle.locked Lifecycle.start with
  | mk answer lifecycle =>
    simp only [startWith, locked, began]
    cases answer <;> rfl

theorem config_begin (service : Threaded) (now : Nat) (query : Query) :
    (service.begin now query).2.config = service.config := by
  rcases query with (_ | _ | _ | _) | _ | _
  case control.start => exact service.config_startWith service.config
  case control.stop =>
    cases asked : service.lifecycle.locked Lifecycle.requestStop with
    | mk answer lifecycle =>
      simp only [begin, locked, asked]
      rcases answer with _ | (_ | _) <;> rfl
  all_goals rfl

theorem config_goOn (goes : service.goOn now query before = some (phase, after)) :
    after.config = service.config := by
  unfold goOn at goes
  split at goes
  · have begins := service.config_begin now query
    rwa [Option.some.inj goes] at begins
  · unfold finishStop locked at goes
    split at goes <;> cases goes <;> rfl
  · cases goes

theorem Stir.config (stir : service.Stir after) : after.config = service.config := by
  cases stir with
  | on | ended | reaped | record => rfl

end Threaded

namespace Scripted

variable {service after : Scripted} {now : Nat} {query : Query} {before phase : Phase}

theorem keeps_goOn (goes : service.goOn now query before = some (phase, after)) :
    after.config = service.config ∧ after.kills = service.kills := by
  unfold goOn at goes
  split at goes
  · cases goes
    exact ⟨rfl, rfl⟩
  · rename_i instant ending
    split at goes
    · cases goes
      rcases ending with (_ | _ | _ | _) | payload <;> exact ⟨rfl, rfl⟩
    · cases goes
  · cases goes

end Scripted

namespace Service

/-- One call or one run of a service goes on. -/
inductive Goes (service : Service) : Service → Prop where
  | called {now : Nat} {query : Query} {before phase : Phase} {after : Service} :
      service.goOn now query before = some (phase, after) → Goes service after
  | stirred {inner after : Threaded} :
      service = .threaded inner → inner.Stir after → Goes service (.threaded after)

def Works : Service → Service → Prop := Relation.ReflTransGen Goes

/-- How often a service was torn down, for services that keep count. -/
def kills? : Service → Option Nat
  | threaded _ => none
  | scripted service => some service.kills

variable {service middle after : Service}

theorem Goes.keeps (goes : Goes service after) :
    after.config = service.config ∧ after.kills? = service.kills? := by
  cases goes with
  | called goes =>
    cases service with
    | threaded service =>
      obtain ⟨⟨_, next⟩, went, equation⟩ := Option.map_eq_some_iff.mp goes
      cases equation
      exact ⟨Threaded.config_goOn went, rfl⟩
    | scripted service =>
      obtain ⟨⟨_, next⟩, went, equation⟩ := Option.map_eq_some_iff.mp goes
      cases equation
      obtain ⟨config, kills⟩ := Scripted.keeps_goOn went
      exact ⟨config, congrArg some kills⟩
  | stirred same stir =>
    subst same
    exact ⟨stir.config, rfl⟩

namespace Works

theorem refl (service : Service) : Works service service := Relation.ReflTransGen.refl

theorem trans (left : Works service middle) (right : Works middle after) : Works service after :=
  Relation.ReflTransGen.trans left right

theorem of_goes (goes : Goes service after) : Works service after :=
  Relation.ReflTransGen.single goes

theorem keeps (works : Works service after) :
    after.config = service.config ∧ after.kills? = service.kills? := by
  induction works with
  | refl => exact ⟨rfl, rfl⟩
  | tail _ goes ih => exact ⟨goes.keeps.1.trans ih.1, goes.keeps.2.trans ih.2⟩

theorem rel_trans {left right last : Option Service} (first : Option.Rel Works left right)
    (second : Option.Rel Works right last) : Option.Rel Works left last := by
  cases first with
  | none => exact second
  | some goes =>
    cases second with
    | some more => exact .some (goes.trans more)

theorem rel_refl (service : Option Service) : Option.Rel Works service service := by
  cases service with
  | none => exact .none
  | some service => exact .some (.refl service)

end Works

/-! ## What is done to a service from outside -/

inductive Treatment where
  | configured (config : Properties)
  | killed

namespace Treatment

def apply : Treatment → Service → Service
  | configured config, service => service.setConfig config
  | killed, service => service.kill

def kills : Treatment → Bool
  | configured _ => false
  | killed => true

def config? : Treatment → Option Properties
  | configured config => some config
  | killed => none

end Treatment

/-- The life of a service, with all that was done to it from outside, oldest first. -/
inductive Treated (made : Service) : List Treatment → Service → Prop where
  | made : Treated made [] made
  | works {done : List Treatment} {service after : Service} :
      Treated made done service → service.Works after → Treated made done after
  | treated {done : List Treatment} {service : Service} (treatment : Treatment) :
      Treated made done service → Treated made (done ++ [treatment]) (treatment.apply service)

namespace Treated

variable {made : Service} {done : List Treatment}

/-- A service that keeps count of its kills counts every one. -/
theorem kills? (treated : made.Treated done service) :
    service.kills? = made.kills?.map (· + done.countP Treatment.kills) := by
  induction treated with
  | made => simp
  | works _ works ih => rw [works.keeps.2, ih]
  | @treated done service treatment _ ih =>
    rw [List.countP_append]
    cases treatment with
    | configured config =>
      have same : (service.setConfig config).kills? = service.kills? := by cases service <;> rfl
      exact same.trans (by simpa [Treatment.kills] using ih)
    | killed =>
      have more : service.kill.kills? = service.kills?.map (· + 1) := by cases service <;> rfl
      rw [Treatment.apply, more, ih, Option.map_map]
      rfl

/-- The last configuration holds. -/
theorem config (treated : made.Treated done service) :
    service.config = ((done.filterMap Treatment.config?).getLast?).getD made.config := by
  induction treated with
  | made => rfl
  | works _ works ih => rw [works.keeps.1, ih]
  | @treated done service treatment _ ih =>
    rw [List.filterMap_append]
    cases treatment with
    | configured config =>
      have set : (service.setConfig config).config = config := by cases service <;> rfl
      simp [Treatment.apply, Treatment.config?, set]
    | killed =>
      have kept : service.kill.config = service.config := by cases service <;> rfl
      simp [Treatment.apply, Treatment.config?, kept, ih]

end Treated

end Service
end ServiceHost
