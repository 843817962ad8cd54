import ServiceHost.Proofs.Host.Operation
import ServiceHost.Proofs.Service.Threaded

/-! The host as a system in which things happen one at a time, in any order.

The clocked system picks the next thing that is ready by rules of its own. Here every
choice is left open, and time may pass at any moment, so that what holds of all orders
holds of every schedule.
-/

set_option autoImplicit false

namespace ServiceHost

inductive Event where
  | launch (operation : Operation)
  /-- A caller takes what an operation yielded, and keeps the server under a name or not at all. -/
  | take (place : Nat) (name : Option String)
  | drop (name : String)
  | expire
  | resume (place : Nat)
  | serve (place : Nat)
  | go (service : ServiceId) (place : Nat)
  /-- A run that was killed is dropped. -/
  | reap (service : ServiceId) (place : Nat)
  | record (service : ServiceId) (generation : Nat)
  | wait (instant : Nat)

/-- Whether an event is that a service does something by itself. -/
def Event.stirs : Event → Bool
  | go .. | reap .. | record .. => true
  | _ => false

/-- Whether an event is that an operation is launched. -/
def Event.launches : Event → Bool
  | launch _ => true
  | _ => false

/-- Whether an event is that the procedure in a place goes on. -/
def Event.resumes (place : Nat) : Event → Bool
  | resume other => other == place
  | _ => false

namespace System

section
variable {ρ : Type} {system after : System ρ} {id : ServiceId} {act : Threaded → Option Threaded}

/-- The system with another service in the place of one. -/
def withService (system : System ρ) (id : ServiceId) (service : Service) : System ρ :=
  { system with host := system.host.updateService id fun _ => service }

/-- The system when a service with a run loop has done something by itself, if it can. -/
def stirred? (system : System ρ) (id : ServiceId) (act : Threaded → Option Threaded) :
    Option (System ρ) :=
  match system.host.service? id with
  | some (.threaded service) => (act service).map fun next => system.withService id (.threaded next)
  | _ => none

theorem stirred?_eq_some (done : system.stirred? id act = some after) :
    ∃ service next, system.host.service? id = some (.threaded service) ∧
      act service = some next ∧ after = system.withService id (.threaded next) := by
  unfold stirred? at done
  split at done
  · rename_i service found
    obtain ⟨next, acts, rfl⟩ := Option.map_eq_some_iff.mp done
    exact ⟨service, next, found, acts, rfl⟩
  · cases done

end

/-- What an event makes of the system, if it can happen. -/
def after? (system : System Answer) : Event → Option (System Answer)
  | .launch operation => some (system.launch operation.flow)
  | .take place name => (system.yield? place).map fun _ => system.take place name
  | .drop name => some { system with kept := system.kept.erase name }
  | .expire => system.expire?
  | .resume place => (system.procedures[place]?).bind (system.resumeAt? place)
  | .serve place => (system.executor.running[place]?).bind system.serveCall?
  | .go id place => system.stirred? id (·.go? system.now (system.closed id) place)
  | .reap id place => system.stirred? id (·.reap? place)
  | .record id generation => system.stirred? id (·.look? generation)
  | .wait instant => if system.now ≤ instant then some { system with now := instant } else none

def runs? (system : System Answer) : List Event → Option (System Answer)
  | [] => some system
  | event :: rest => (system.after? event).bind fun next => next.runs? rest

@[simp] theorem runs?_singleton (system : System Answer) (event : Event) :
    system.runs? [event] = system.after? event := by
  simp [runs?]

theorem runs?_append {system after : System Answer} {events more : List Event} :
    system.runs? (events ++ more) = some after ↔
      ∃ between, system.runs? events = some between ∧ between.runs? more = some after := by
  induction events generalizing system with
  | nil => simp [runs?]
  | cons event rest ih =>
    simp only [List.cons_append, runs?, Option.bind_eq_some_iff, ih]
    constructor
    · rintro ⟨next, step, between, runs, ends⟩
      exact ⟨between, ⟨next, step, runs⟩, ends⟩
    · rintro ⟨between, ⟨next, step, runs⟩, ends⟩
      exact ⟨next, step, between, runs, ends⟩

theorem view_of_runs {α : Type} {system : System Answer} {outcome : Option (System Answer)}
    (runs : outcome = some system) (view : System Answer → α) {seen : α}
    (fact : outcome.map view = some seen) : view system = seen := by
  subst runs
  exact Option.some.inj fact

/-- What a host can come to, from its beginning on. -/
inductive Reaches (first : System Answer) : List Event → System Answer → Prop where
  | start : Reaches first [] first
  | next {events : List Event} {event : Event} {system after : System Answer} :
      Reaches first events system → system.after? event = some after →
      Reaches first (events ++ [event]) after

theorem Reaches.runs {first system after : System Answer} {past : List Event}
    (reaches : Reaches first past system) {events : List Event}
    (runs : system.runs? events = some after) : Reaches first (past ++ events) after := by
  induction events generalizing past system with
  | nil =>
    cases runs
    rwa [List.append_nil]
  | cons event rest ih =>
    obtain ⟨next, step, runs⟩ := Option.bind_eq_some_iff.mp runs
    have onward := ih (reaches.next step) runs
    rwa [List.append_assoc] at onward

end System

/-- A host that has not been used: nothing was made or wrapped. -/
structure Host.Unused (host : Host) : Prop where
  services : host.services = []
  servers : host.servers = []

/-- A host with no files around it, to which nothing was added. -/
def Host.bare : Host := .fresh ⟨⟨.directory [], []⟩, fun _ _ => none⟩ fun _ => 0

theorem Host.unused_bare : Host.bare.Unused := ⟨rfl, rfl⟩

end ServiceHost
