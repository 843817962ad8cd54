import Mathlib.Data.Nat.ModEq
import ServiceHost.Proofs.Host.Swift
import ServiceHost.Proofs.Service.Identity

/-! The stamps of the services that a host makes, over whole runs.

The time in a stamp may stand still or go back. The number behind it is counted on with every
service, so it tells apart any services that are no more than there are numbers.
-/

set_option autoImplicit false

namespace ServiceHost

/-- Whether a service has a run loop, and no slash in its name or version. -/
def Service.isPlain : Service → Bool
  | .threaded inner => !inner.typeName.toList.contains '/' && !inner.version.toList.contains '/'
  | .scripted _ => false

namespace Host

variable {host after : Host} {base : Nat} {id : ServiceId}

/-- Every service has a run loop, and no slash in its name or version. -/
def Plain (host : Host) : Prop :=
  ∀ id service, host.service? id = some service → ∃ inner, service = .threaded inner ∧
    '/' ∉ inner.typeName.toList ∧ '/' ∉ inner.version.toList

theorem plain_iff : host.Plain ↔ ∀ hosted ∈ host.services, hosted.service.isPlain = true := by
  constructor
  · intro plain hosted member
    obtain ⟨id, there⟩ := List.mem_iff_getElem?.mp member
    obtain ⟨inner, same, typeName, version⟩ :=
      plain id hosted.service (by rw [service?, there, Option.map_some])
    simp [same, Service.isPlain, typeName, version]
  · intro all id service found
    obtain ⟨hosted, there, rfl⟩ := Option.map_eq_some_iff.mp found
    have plain := all hosted (List.mem_of_getElem? there)
    cases own : hosted.service with
    | threaded inner =>
      simp only [own, Service.isPlain, Bool.and_eq_true, Bool.not_eq_true',
        List.contains_eq_mem, decide_eq_false_iff_not] at plain
      exact ⟨inner, rfl, plain⟩
    | scripted => simp [own, Service.isPlain] at plain

instance (host : Host) : Decidable host.Plain := decidable_of_iff' _ plain_iff

theorem Plain.exists_threaded (plain : host.Plain) (bound : id < host.services.length) :
    ∃ inner, host.service? id = some (.threaded inner) := by
  obtain ⟨service, found⟩ := exists_service? bound
  obtain ⟨inner, rfl, _⟩ := plain id service found
  exact ⟨inner, found⟩

/-- The services are numbered in the order in which they were made, on from a base. -/
structure Stamped (base : Nat) (host : Host) : Prop where
  count : host.stamped = base + host.services.length
  numbered : ∀ id service, host.service? id = some (.threaded service) →
    service.Numbered ((base + id) % stampNumbers)

/-- A service with a run loop is made under the next number. -/
theorem make_cases (host : Host) (blueprint : Blueprint) :
    (∃ typeName version stamp loop,
      stamp = s!"{host.wallClock host.stamped}.{host.stamped % stampNumbers}" ∧
      (host.make blueprint).2.services = host.services ++
        [⟨blueprint.label, .threaded (.new typeName version stamp loop)⟩] ∧
      (host.make blueprint).2.stamped = host.stamped + 1) ∨
    ∃ script state, (host.make blueprint).2.services = host.services ++
      [⟨blueprint.label, .scripted (.new script state)⟩] := by
  unfold make
  split
  · exact .inl ⟨_, _, _, _, rfl, rfl, rfl⟩
  · exact .inr ⟨_, _, rfl⟩

end Host

namespace System

variable {before after : System Answer} {stages later : Nat → Option Stage} {event : Event}
  {id : ServiceId} {service next : Threaded} {base : Nat}

/-- Whatever happens to a service, it keeps its identity. -/
theorem Effect.twin (effect : before.Effect stages after id service next) : service.Twin next := by
  cases effect with
  | same => exact .refl _
  | killed | configured => exact ⟨rfl, rfl, rfl⟩
  | turned _ _ turn => exact turn.twin
  | stirred stir => exact stir.twin

namespace Step

theorem twin (step : before.Step stages event after later) (sound : before.Sound)
    (found : before.host.service? id = some (.threaded service))
    (there : after.host.service? id = some (.threaded next)) : service.Twin next := by
  obtain ⟨other, here, effect⟩ := step.effect sound found
  cases here.symm.trans there
  exact effect.twin

/-- One service is made at most. -/
theorem makes (step : before.Step stages event after later) :
    (after.host.services.length = before.host.services.length ∧
      after.host.stamped = before.host.stamped) ∨
    ∃ blueprint resolvers,
      after.host = (Host.make blueprint { before.host with resolvers }).2 := by
  have attended : ∀ {resolvers : Resolvers} {host : Host},
      Host.Attends { before.host with resolvers } host →
      host.services.length = before.host.services.length ∧ host.stamped = before.host.stamped := by
    rintro resolvers host ⟨_, _, _, _, same, rfl⟩
    exact ⟨same, rfl⟩
  cases step with
  | launch part =>
    rw [host_arrived]
    exact part.makes_or_attends.symm.imp_left fun ⟨_, attends⟩ => attended attends
  | resume _ _ _ part =>
    rw [host_arrived]
    exact .inl (attended part.attends)
  | serve | stir => exact .inl ⟨List.length_modify .., rfl⟩
  | expire | take | drop | wait => exact .inl ⟨rfl, rfl⟩

/-- Services that are plain were so before. -/
theorem plain (step : before.Step stages event after later) (sound : before.Sound)
    (plain : after.host.Plain) : before.host.Plain := by
  intro id service found
  have looped := step.looped fun service there => (plain id service there).imp fun _ => And.left
  obtain ⟨inner, rfl⟩ := looped service found
  obtain ⟨next, there, effect⟩ := step.effect sound found
  obtain ⟨_, ⟨⟩, typeName, version⟩ := plain id _ there
  exact ⟨inner, rfl, effect.twin.typeName ▸ typeName, effect.twin.version ▸ version⟩

theorem stamped (step : before.Step stages event after later) (sound : before.Sound)
    (plain : after.host.Plain) (stamped : before.host.Stamped base) : after.host.Stamped base := by
  have old : ∀ id service, id < before.host.services.length →
      after.host.service? id = some (.threaded service) →
      service.Numbered ((base + id) % Host.stampNumbers) := by
    intro id service bound there
    obtain ⟨earlier, found⟩ := (step.plain sound plain).exists_threaded bound
    exact (stamped.numbered id earlier found).twin (step.twin sound found there)
  rcases step.makes with ⟨same, count⟩ | ⟨blueprint, resolvers, made⟩
  · refine ⟨by rw [count, same, stamped.count], fun id service there => ?_⟩
    exact old id service (same ▸ Host.lt_of_service? there) there
  have last : ∀ hosted, after.host.services = before.host.services ++ [hosted] →
      after.host.service? before.host.services.length = some hosted.service := by
    intro hosted services
    rw [Host.service?, services, List.getElem?_concat_length, Option.map_some]
  rcases Host.make_cases { before.host with resolvers } blueprint with
    ⟨typeName, version, stamp, loop, own, services, count⟩ | ⟨script, state, services⟩
  · rw [← made] at services count
    have length : after.host.services.length = before.host.services.length + 1 := by
      rw [services, List.length_append, List.length_singleton]
    refine ⟨by rw [count, length, stamped.count, Nat.add_assoc], fun id service there => ?_⟩
    rcases Nat.lt_succ_iff_lt_or_eq.mp (length ▸ Host.lt_of_service? there) with bound | rfl
    · exact old id service bound there
    · cases (last _ services).symm.trans there
      obtain ⟨_, ⟨⟩, typeName, version⟩ := plain _ _ there
      exact ⟨typeName, version, _, by rw [← stamped.count]; exact own⟩
  · rw [← made] at services
    obtain ⟨_, ⟨⟩, _⟩ := plain _ _ (last _ services)

end Step
end System

namespace Host

variable {host : Host} {base : Nat} {first second : ServiceId}

/-- What a service with a run loop says if it is asked for its id. -/
def nameOf (host : Host) (id : ServiceId) : String :=
  match host.service? id with
  | some (.threaded service) => service.id
  | _ => ""

/-- The id of a server around a service with a run loop. -/
def label (host : Host) (id : ServiceId) (origin : String) : String :=
  (Server.around id origin (.ok (.id (host.nameOf id)))).id

theorem nameOf_eq {service : Threaded} (found : host.service? first = some (.threaded service)) :
    host.nameOf first = service.id := by
  rw [nameOf, found]

/-- Wherever they come from, two services have two ids. -/
theorem Stamped.eq_of_label (stamped : host.Stamped base) (plain : host.Plain)
    (few : host.services.length ≤ stampNumbers) (one : first < host.services.length)
    (two : second < host.services.length) {origin elsewhere : String}
    (same : host.label first origin = host.label second elsewhere) : first = second := by
  obtain ⟨service, found⟩ := plain.exists_threaded one
  obtain ⟨other, there⟩ := plain.exists_threaded two
  rw [label, label, nameOf_eq found, nameOf_eq there] at same
  have equal := (stamped.numbered first service found).eq_of_label
    (stamped.numbered second other there) same
  have mod : first ≡ second [MOD stampNumbers] := Nat.ModEq.add_left_cancel' base equal
  exact mod.eq_of_lt_of_lt (Nat.lt_of_lt_of_le one few) (Nat.lt_of_lt_of_le two few)

end Host

/-- A service that was made has the same id for ever. -/
theorem System.Step.nameOf {before after : System Answer} {stages later : Nat → Option Stage}
    {event : Event} {id : ServiceId} (step : before.Step stages event after later)
    (sound : before.Sound) (plain : after.host.Plain) (bound : id < before.host.services.length) :
    after.host.nameOf id = before.host.nameOf id := by
  obtain ⟨service, found⟩ := (step.plain sound plain).exists_threaded bound
  obtain ⟨next, there, effect⟩ := step.effect sound found
  rw [Host.nameOf_eq found, Host.nameOf_eq there, effect.twin.id_eq]

end ServiceHost
