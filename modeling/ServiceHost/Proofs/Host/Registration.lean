import ServiceHost.Proofs.Host.Departure
import ServiceHost.Proofs.Host.History

/-! The directory over whole runs.

Whatever the operations do in between, an entry comes to the end of the directory, together with
the server that it names, and leaves it without a trace. A server that the registry kills has left
before, or never was in.
-/

set_option autoImplicit false

namespace ServiceHost

namespace Host

/-- An unused host with an empty directory. -/
structure Vacant (host : Host) : Prop extends Unused host where
  directory : host.directory.entries = []

theorem vacant_bare : Host.bare.Vacant := ⟨unused_bare, rfl⟩

/-- Every server stands in the directory under its own id. -/
def Keyed (host : Host) : Prop :=
  ∀ id server, (id, server) ∈ host.directory.entries →
    ∃ entry, host.server? server = some entry ∧ entry.id = id

variable {host middle after : Host} {id : String} {server : ServerId} {service : ServiceId}

theorem Keyed.lt_length (keyed : host.Keyed) (member : (id, server) ∈ host.directory.entries) :
    server < host.servers.length := by
  obtain ⟨entry, found, _⟩ := keyed id server member
  exact (List.getElem?_eq_some_iff.mp found).1

theorem Keyed.idOf (keyed : host.Keyed) (member : (id, server) ∈ host.directory.entries) :
    host.idOf server = id := by
  obtain ⟨entry, found, same⟩ := keyed id server member
  rw [idOf_eq host found, same]

theorem KeepsIds.length_le (keeps : KeepsIds host after) :
    host.servers.length ≤ after.servers.length := by
  refine Nat.le_of_not_lt fun fewer => ?_
  obtain ⟨entry, there, _⟩ := keeps.kept after.servers.length (host.servers[after.servers.length])
    (List.getElem?_eq_getElem fewer)
  exact absurd (List.getElem?_eq_some_iff.mp there).1 (Nat.lt_irrefl _)

/-- What can become of a directory between two waits. -/
inductive Revises (host after : Host) : Prop where
  | thins : after.directory.entries.Sublist host.directory.entries → Revises host after
  /-- A server that was just put around its service enters. -/
  | enrols {entry : Server} {service : ServiceId} :
      after.directory.entries = host.directory.entries ++ [(entry.id, host.servers.length)] →
      after.server? host.servers.length = some entry → entry.service = some service →
      Revises host after

theorem Revises.same (same : after.directory = host.directory) : Revises host after :=
  .thins (same ▸ .refl _)

@[simp] theorem directory_leave (host : Host) (id : String) :
    (host.leave id).directory = host.directory.erase id := rfl

@[simp] theorem serviceOf_leave (host : Host) (id : String) (server : ServerId) :
    (host.leave id).serviceOf server = host.serviceOf server := rfl

theorem Keyed.revise (keyed : host.Keyed) (keeps : KeepsIds host after)
    (revises : Revises host after) : after.Keyed := by
  intro id server member
  have kept : (id, server) ∈ host.directory.entries →
      ∃ entry, after.server? server = some entry ∧ entry.id = id := fun member => by
    obtain ⟨entry, found, same⟩ := keyed id server member
    obtain ⟨later, there, equal⟩ := keeps.kept server entry found
    exact ⟨later, there, equal.trans same⟩
  cases revises with
  | thins fewer => exact kept (fewer.subset member)
  | enrols entries found =>
    rw [entries, List.mem_append, List.mem_singleton] at member
    rcases member with old | new
    · exact kept old
    · cases new
      exact ⟨_, found, rfl⟩

end Host

theorem Sweep.entries {result : Answer} {ids : List String} {host after : Host} {halt : Halt}
    (sweep : Sweep result ids host halt after) :
    after.directory.entries.Sublist host.directory.entries := by
  induction sweep with
  | ended | asks => exact .refl _
  | absent _ _ ih => exact ih
  | killed _ _ _ ih => exact ih.trans (Table.sublist_erase ..)

@[simp] theorem Host.directory_rolledBack (host : Host) (server : ServerId) :
    (Registry.rolledBack server host).directory = host.directory.erase (host.idOf server) := by
  simp [Registry.rolledBack]

@[simp] theorem Host.directory_unregistered (host : Host) (id : String) (server : ServerId)
    (stopped : Bool) :
    (Registry.unregistered id server stopped host).directory = host.directory.erase id := by
  unfold Registry.unregistered
  split <;> rfl

variable {host after : Host} {halt : Halt}

theorem Operation.Section.thins {operation : Operation} (part : operation.Section host halt after) :
    after.directory.entries.Sublist host.directory.entries := by
  cases part with
  | rejected | absent | spares | calls | rests | refused => exact .refl _
  | made | killsServer | configures => simp
  | removes _ sweep | shuts sweep => exact sweep.entries
  | kills => simpa using Table.sublist_erase ..

/-- Whatever a server's service was asked, the entry is there, with its service. -/
theorem Host.enrols_around (host : Host) (service : ServiceId) (origin : String)
    (answer : Except ServiceError Reply)
    (vacant : host.directory.get? (Server.around service origin answer).id = none) :
    Host.Revises host ((host.addServer (.around service origin answer)).2.enter
      (Server.around service origin answer).id host.servers.length) := by
  refine @Host.Revises.enrols _ _ (.around service origin answer) service ?_ ?_ rfl
  · exact Table.entries_insert_of_absent _ vacant _
  · simp [Host.server?, Host.enter, Host.addServer]

theorem Host.Revises.configure {config : Properties} {server : ServerId}
    (revises : Host.Revises host after) : Host.Revises host (after.configure server config) := by
  cases revises with
  | thins fewer => exact .thins (by simpa using fewer)
  | enrols entries found own =>
    refine .enrols (by simpa using entries) ?_ own
    unfold Host.configure
    split <;> exact found

theorem Stage.Section.revises {stage : Stage} {answer : CallAnswer}
    (part : stage.Section host answer halt after) : Host.Revises host after := by
  cases part with
  | unwrapped | started => exact .same rfl
  | duplicate => exact .same (by simp)
  | entered vacant => exact host.enrols_around _ _ _ vacant
  | starts vacant => exact (host.enrols_around _ _ _ vacant).configure
  | rollsBack => exact .thins (by simpa using Table.sublist_erase ..)
  | judged _ sweep =>
    exact .thins (sweep.entries.trans (by simpa using Table.sublist_erase ..))
  | stops | answered => exact .same (by simp)
  | outrun _ _ sweep | stopped sweep =>
    exact .thins (sweep.entries.trans (by simpa using Table.sublist_erase ..))

/-! ## Who kills a listed server -/

theorem Operation.Section.lets_go {operation : Operation} {server : ServerId} {service : ServiceId}
    (part : operation.Section host halt after) (keyed : host.Keyed)
    (held : host.serviceOf server = some service) (gone : after.serviceOf server = none) :
    operation = .killServer server ∨ ∀ id, (id, server) ∉ after.directory.entries := by
  cases part with
  | rejected | absent | spares | calls | rests => cases held.symm.trans gone
  | made =>
    rw [Host.serviceOf_make] at gone
    cases held.symm.trans gone
  | removes _ sweep | shuts sweep =>
    rw [sweep.alike.serviceOf] at gone
    cases held.symm.trans gone
  | refused =>
    rw [Host.serviceOf_record] at gone
    cases held.symm.trans gone
  | configures =>
    rw [Host.serviceOf_configure] at gone
    cases held.symm.trans gone
  | @kills left target there =>
    rw [Host.serviceOf_killServer] at gone
    split at gone
    -- The server stood under the one id that has left.
    · rename_i same
      subst same
      refine .inr fun id member => ?_
      rw [Host.directory_killServer, Host.directory_leave] at member
      have stood := (Table.sublist_erase ..).subset member
      have entered := host.directory.mem_of_get? there
      obtain rfl : id = left := (keyed.idOf stood).symm.trans (keyed.idOf entered)
      exact Table.not_mem_erase _ _ _ member
    · cases held.symm.trans gone
  | @killsServer target =>
    rw [Host.serviceOf_killServer] at gone
    split at gone
    · exact .inl (by rw [‹server = target›])
    · cases held.symm.trans gone

theorem Stage.Section.lets_go {stage : Stage} {answer : CallAnswer} {server : ServerId}
    {service : ServiceId} (part : stage.Section host answer halt after) (keyed : host.Keyed)
    (held : host.serviceOf server = some service) (gone : after.serviceOf server = none) :
    ∀ id, (id, server) ∉ after.directory.entries := by
  have old : server ≠ host.servers.length := Nat.ne_of_lt (Host.lt_of_serviceOf held)
  cases part with
  | unwrapped | started => cases held.symm.trans gone
  | duplicate =>
    -- The duplicate itself is killed, which was never entered.
    rw [Host.serviceOf_killServer, if_neg old, Host.serviceOf_addServer, if_neg old] at gone
    cases held.symm.trans gone
  | entered =>
    rw [Host.serviceOf_enter, Host.serviceOf_addServer, if_neg old] at gone
    cases held.symm.trans gone
  | starts =>
    rw [Host.serviceOf_configure, Host.serviceOf_enter, Host.serviceOf_addServer, if_neg old] at gone
    cases held.symm.trans gone
  | @rollsBack target =>
    intro id member
    rw [Host.directory_rolledBack, Host.idOf_noted, Host.directory_noted] at member
    change ((((host.noted target _ answer).leave _).killServer target).2).serviceOf server = _ at gone
    rw [Host.serviceOf_killServer] at gone
    split at gone
    · rename_i same
      subst same
      rw [keyed.idOf ((Table.sublist_erase ..).subset member)] at member
      exact Table.not_mem_erase _ _ _ member
    · rw [Host.serviceOf_leave, Host.serviceOf_noted] at gone
      cases held.symm.trans gone
  | judged _ sweep =>
    rw [sweep.alike.serviceOf, Host.serviceOf_leave, Host.serviceOf_noted] at gone
    cases held.symm.trans gone
  | stops | answered =>
    rw [Host.serviceOf_noted] at gone
    cases held.symm.trans gone
  | outrun _ _ sweep =>
    rw [sweep.alike.serviceOf, Registry.serviceOf_unregistered, Host.serviceOf_record,
      Host.serviceOf_noted] at gone
    cases held.symm.trans gone
  | stopped sweep =>
    rw [sweep.alike.serviceOf, Registry.serviceOf_unregistered, Host.serviceOf_noted] at gone
    cases held.symm.trans gone

namespace System

variable {before after last : System Answer} {stages later : Nat → Option Stage} {event : Event}
  {moments : List Moment} {server : ServerId} {service : ServiceId}

theorem Step.keepsIds (step : before.Step stages event after later) :
    Host.KeepsIds before.host after.host := by
  cases step with
  | launch part => simpa using part.keepsIds
  | resume _ _ _ part => simpa using part.keepsIds
  | serve | stir | expire | take | drop | wait => exact .of_servers rfl

theorem Step.revises (step : before.Step stages event after later) :
    Host.Revises before.host after.host := by
  cases step with
  | launch part => exact .thins (by simpa using part.thins)
  | resume _ _ _ part => simpa using part.revises
  | serve | stir | expire | take | drop | wait => exact .same rfl

/-- A server that lets go of its service was killed by its holder, or is not listed. -/
theorem Step.lets_go (step : before.Step stages event after later) (keyed : before.host.Keyed)
    (held : before.host.serviceOf server = some service)
    (gone : after.host.serviceOf server = none) :
    event = .launch (.killServer server) ∨
      ∀ id, (id, server) ∉ after.host.directory.entries := by
  cases step with
  | launch part =>
    rw [host_arrived] at gone ⊢
    rcases part.lets_go keyed held gone with rfl | absent
    · exact .inl rfl
    · exact .inr absent
  | resume _ _ _ part =>
    rw [host_arrived] at gone ⊢
    exact .inr (part.lets_go keyed held gone)
  | serve | stir | expire | take | drop | wait => cases held.symm.trans gone

namespace Moment

/-- The entries that came into the directory. -/
def newcomers (moment : Moment) : List (String × ServerId) :=
  moment.after.host.directory.entries.filter fun entry =>
    !moment.before.host.directory.entries.contains entry

/-- Whether a server was killed. -/
def kills (moment : Moment) (server : ServerId) : Bool :=
  !moment.before.host.isKilled server && moment.after.host.isKilled server

/-- The entries that stay keep their order, and stand before those that come. -/
def Orderly (moment : Moment) : Prop :=
  ∃ kept, kept.Sublist moment.before.host.directory.entries ∧
    moment.after.host.directory.entries = kept ++ moment.newcomers

end Moment

/-- All entries that ever came into the directory, in the order in which they came. -/
def registrations (moments : List Moment) : List (String × ServerId) :=
  moments.flatMap Moment.newcomers

theorem registrations_append (past : List Moment) (moment : Moment) :
    registrations (past ++ [moment]) = registrations past ++ moment.newcomers := by
  simp [registrations]

theorem Moment.newcomers_cases {moment : Moment} (keyed : moment.before.host.Keyed)
    (revises : Host.Revises moment.before.host moment.after.host) :
    (moment.newcomers = [] ∧
      moment.after.host.directory.entries.Sublist moment.before.host.directory.entries) ∨
    ∃ entry service, moment.newcomers = [(entry.id, moment.before.host.servers.length)] ∧
      moment.after.host.directory.entries =
        moment.before.host.directory.entries ++ moment.newcomers ∧
      moment.after.host.server? moment.before.host.servers.length = some entry ∧
      entry.service = some service := by
  cases revises with
  | thins fewer =>
    refine .inl ⟨List.filter_eq_nil_iff.mpr fun entry member => ?_, fewer⟩
    simpa using fewer.subset member
  | @enrols entry service entries found own =>
    have fresh : (entry.id, moment.before.host.servers.length) ∉
        moment.before.host.directory.entries :=
      fun member => Nat.lt_irrefl _ (keyed.lt_length member)
    have new : moment.newcomers = [(entry.id, moment.before.host.servers.length)] := by
      unfold newcomers
      rw [entries, List.filter_append, List.filter_eq_nil_iff.mpr (by simp), List.nil_append]
      simp [fresh]
    exact .inr ⟨entry, service, new, by rw [entries, new], found, own⟩

/-- The directory and the book of the entries that ever came into it. -/
structure Booked (moments : List Moment) (system : System Answer) : Prop where
  keyed : system.host.Keyed
  listed : system.host.directory.entries.Sublist (registrations moments)
  ascending : (registrations moments).Pairwise fun first second => first.2 < second.2
  bound : ∀ entry ∈ registrations moments, entry.2 < system.host.servers.length
  orderly : ∀ moment ∈ moments, moment.Orderly

/-- The servers in the directory, and who has killed those of them that are killed. -/
structure Guarded (moments : List Moment) (system : System Answer) : Prop where
  grown : ∀ moment ∈ moments, moment.before.host.servers.length ≤ system.host.servers.length
  spared : ∀ id server, (id, server) ∈ system.host.directory.entries → ∀ moment ∈ moments,
    moment.kills server = true → moment.event = .launch (.killServer server)
  known : ∀ id server, (id, server) ∈ system.host.directory.entries →
    system.host.isKilled server = true → ∃ moment ∈ moments, moment.kills server = true

theorem not_listed_of_vacant {host : Host} (vacant : host.Vacant) (id : String) (server : ServerId) :
    (id, server) ∉ host.directory.entries := by
  rw [vacant.directory]
  exact List.not_mem_nil

theorem Booked.start {host : Host} (vacant : host.Vacant) (capacity : Nat) :
    Booked [] (.start host capacity) where
  keyed id server member := absurd member (not_listed_of_vacant vacant id server)
  listed := (vacant.directory ▸ List.nil_sublist _ : host.directory.entries.Sublist [])
  ascending := .nil
  bound _ member := by cases member
  orderly _ member := by cases member

theorem Guarded.start {host : Host} (vacant : host.Vacant) (capacity : Nat) :
    Guarded [] (.start host capacity) where
  grown _ member := by cases member
  spared id server member := absurd member (not_listed_of_vacant vacant id server)
  known id server member := absurd member (not_listed_of_vacant vacant id server)

theorem Booked.step (booked : Booked moments before) (step : before.Step stages event after later) :
    Booked (moments ++ [⟨before, event, after⟩]) after := by
  let moment : Moment := ⟨before, event, after⟩
  have grows : before.host.servers.length ≤ after.host.servers.length := step.keepsIds.length_le
  have old : ∀ entry ∈ registrations moments, entry.2 < after.host.servers.length :=
    fun entry earlier => Nat.lt_of_lt_of_le (booked.bound entry earlier) grows
  have orderly : moment.Orderly → ∀ other ∈ moments ++ [moment], other.Orderly := by
    intro here other member
    rcases List.mem_append.mp member with earlier | last
    · exact booked.orderly other earlier
    · exact List.mem_singleton.mp last ▸ here
  have keyed := booked.keyed.revise step.keepsIds step.revises
  rcases moment.newcomers_cases booked.keyed step.revises with
    ⟨none, fewer⟩ | ⟨entry, _, new, entries, found, _⟩
  · have same : registrations (moments ++ [moment]) = registrations moments := by
      rw [registrations_append, none, List.append_nil]
    refine ⟨keyed, ?_, ?_, ?_, orderly ⟨_, fewer, by rw [none, List.append_nil]⟩⟩
    · exact same ▸ fewer.trans booked.listed
    · exact same ▸ booked.ascending
    · exact same ▸ old
  -- The new server has the highest number so far, and its entry stands at the end of the book.
  · have longer : registrations (moments ++ [moment]) =
        registrations moments ++ [(entry.id, before.host.servers.length)] := by
      rw [registrations_append, new]
    refine ⟨keyed, ?_, ?_, ?_, orderly ⟨_, .refl _, entries⟩⟩
    · rw [registrations_append]
      exact entries ▸ booked.listed.append (.refl _)
    · rw [longer, List.pairwise_append]
      refine ⟨booked.ascending, List.pairwise_singleton .., fun other earlier last same => ?_⟩
      rw [List.mem_singleton.mp same]
      exact booked.bound other earlier
    · intro other member
      rw [longer] at member
      rcases List.mem_append.mp member with earlier | last
      · exact old other earlier
      · rw [List.mem_singleton.mp last]
        exact (List.getElem?_eq_some_iff.mp found).1

theorem Moment.not_kills_unknown {moment : Moment}
    (unknown : moment.before.host.servers.length ≤ server) : moment.kills server = false := by
  have absent : moment.before.host.isKilled server = true := by
    rw [Host.isKilled, Host.serviceOf, Host.server?, List.getElem?_eq_none unknown]
    rfl
  simp [kills, absent]

theorem Step.kills (step : before.Step stages event after later) (keyed : before.host.Keyed)
    {id : String} (member : (id, server) ∈ after.host.directory.entries)
    (kills : (⟨before, event, after⟩ : Moment).kills server = true) :
    event = .launch (.killServer server) := by
  simp only [Moment.kills, Host.isKilled, Bool.and_eq_true, Bool.not_eq_true',
    Option.isNone_eq_false_iff, Option.isSome_iff_exists, Option.isNone_iff_eq_none] at kills
  obtain ⟨⟨service, held⟩, gone⟩ := kills
  exact (step.lets_go keyed held gone).resolve_right fun absent => absent id member

theorem Guarded.step (guarded : Guarded moments before) (keyed : before.host.Keyed)
    (step : before.Step stages event after later) :
    Guarded (moments ++ [⟨before, event, after⟩]) after := by
  let moment : Moment := ⟨before, event, after⟩
  have news := moment.newcomers_cases keyed step.revises
  constructor
  case grown =>
    intro other member
    rcases List.mem_append.mp member with earlier | last
    · exact Nat.le_trans (guarded.grown other earlier) step.keepsIds.length_le
    · rw [List.mem_singleton.mp last]
      exact step.keepsIds.length_le
  case spared =>
    intro id server member other there kills
    rcases List.mem_append.mp there with earlier | last
    · rcases news with ⟨_, fewer⟩ | ⟨entry, _, new, entries, _⟩
      · exact guarded.spared id server (fewer.subset member) other earlier kills
      · rw [entries, new, List.mem_append, List.mem_singleton] at member
        rcases member with old | fresh
        · exact guarded.spared id server old other earlier kills
        · cases fresh
          cases (Moment.not_kills_unknown (guarded.grown other earlier)).symm.trans kills
    · cases List.mem_singleton.mp last
      exact step.kills keyed member kills
  case known =>
    intro id server member gone
    have old : (id, server) ∈ before.host.directory.entries →
        ∃ other ∈ moments ++ [moment], other.kills server = true := by
      intro stood
      cases alive : before.host.isKilled server with
      | true =>
        obtain ⟨other, earlier, kills⟩ := guarded.known id server stood alive
        exact ⟨other, List.mem_append_left _ earlier, kills⟩
      | false => exact ⟨moment, by simp, by simp [Moment.kills, moment, alive, gone]⟩
    rcases news with ⟨_, fewer⟩ | ⟨entry, service, new, entries, found, own⟩
    · exact old (fewer.subset member)
    · rw [entries, new, List.mem_append, List.mem_singleton] at member
      rcases member with stood | fresh
      · exact old stood
      · cases fresh
        simp [Host.isKilled, Host.serviceOf, moment, found, own] at gone

theorem History.booked {host : Host} {capacity : Nat} (vacant : host.Vacant)
    (history : History (.start host capacity) moments last) :
    Booked moments last ∧ Guarded moments last := by
  obtain ⟨_, _, both⟩ := history.induct
    (fun moments system _ => Booked moments system ∧ Guarded moments system)
    (.start host capacity) ⟨.start vacant capacity, .start vacant capacity⟩
    fun _ _ _ step both => ⟨both.1.step step, both.2.step both.1.keyed step⟩
  exact both

/-- In every run, whatever operations go on at the same time and whatever ids the services give: no
id stands twice in the directory, each of them is the id of its server, and the entries stand in
the order in which they came. A server that is listed has been killed only by a holder of it. -/
theorem directory_consistent {host : Host} {capacity : Nat} (vacant : host.Vacant)
    (history : History (.start host capacity) moments last) :
    last.host.ids.Nodup ∧
      (∀ id server, (id, server) ∈ last.host.directory.entries →
        (∃ entry, last.host.server? server = some entry ∧ entry.id = id) ∧
        (last.host.isKilled server = true → ∃ moment ∈ moments, moment.kills server = true) ∧
        ∀ moment ∈ moments, moment.kills server = true →
          moment.event = .launch (.killServer server)) ∧
      last.host.directory.entries.Sublist (registrations moments) ∧
      (registrations moments).Pairwise (fun first second => first.2 < second.2) ∧
      ∀ moment ∈ moments, moment.Orderly := by
  obtain ⟨booked, guarded⟩ := history.booked vacant
  refine ⟨last.host.directory.nodup, fun id server member => ?_, booked.listed, booked.ascending,
    booked.orderly⟩
  exact ⟨booked.keyed id server member, guarded.known id server member,
    guarded.spared id server member⟩

/-- While the first server under an id is being stopped it is killed, a second one takes the id over,
a third one is refused, and the holder of the second one kills it. -/
def crowding : List Event :=
  opening ++ [.launch (.remove "Same:1/local"), .serve 0, .serve 0, .resume 1] ++ takeover ++
    [.launch (.load slow), .serve 0, .serve 0, .resume 4, .launch (.killServer 1)]

theorem directory_consistent_crowded :
    ∃ moments last, History bare moments last ∧
      last.host.servers.length = 3 ∧ last.host.directory.entries = [("Same:1/local", 1)] ∧
      last.host.isKilled 1 = true ∧
      (∃ moment ∈ moments, moment.kills 1 = true) ∧
      (∀ moment ∈ moments, moment.kills 1 = true → moment.event = .launch (.killServer 1)) ∧
      [("Same:1/local", 1)].Sublist (registrations moments) := by
  obtain ⟨last, runs⟩ := Option.isSome_iff_exists.mp
    (by decide +kernel : (bare.runs? crowding).isSome = true)
  have entries := view_of_runs runs (fun system => system.host.directory.entries)
    (by decide +kernel : _ = some [("Same:1/local", 1)])
  have gone := view_of_runs runs (fun system => system.host.isKilled 1)
    (by decide +kernel : _ = some true)
  obtain ⟨moments, history, _⟩ := History.of_runs? runs
  obtain ⟨_, servers, listed, _⟩ := directory_consistent Host.vacant_bare history
  obtain ⟨_, known, spared⟩ := servers "Same:1/local" 1 (by simp [entries])
  have three := view_of_runs runs (fun system => system.host.servers.length)
    (by decide +kernel : _ = some 3)
  exact ⟨moments, last, history, three, entries, gone, known gone, spared, entries ▸ listed⟩

end System
end ServiceHost
