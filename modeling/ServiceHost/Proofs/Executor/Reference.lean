import Mathlib.Data.List.Induction
import ServiceHost.Executor.Calls

/-! A first-come-first-served queue with a number of permits.

Who gets a permit and when is decided for one call after the other, in the order in which
they come and from nothing but the calls before. The work of a call, its permit and its
answer follow from that.
-/

set_option autoImplicit false

namespace ServiceHost

variable {ρ : Type} {capacity id now : Nat}

/-- A call with a deadline, in milliseconds, that comes at an instant. -/
structure Arrival (ρ : Type) where
  instant : Nat
  operation : String
  deadline : Nat
  work : Work ρ

def Arrival.expires (arrival : Arrival ρ) : Nat := arrival.instant + arrival.deadline

/-- The end of the instants at which a call can get a permit. Without any time it can take one that
is free when it comes. -/
def Arrival.closes (arrival : Arrival ρ) : Nat := arrival.instant + max 1 arrival.deadline

/-- What a caller is told of work that ends in time. -/
def Ending.outcome (operation : String) : Ending ρ → Except CallError ρ
  | .value result => .ok result
  | .panicked payload => .error (.panicked operation payload.message)

/-- A call with the instant at which it gets a permit, if it gets one. -/
structure Ticket (ρ : Type) where
  arrival : Arrival ρ
  granted : Option Nat

namespace Ticket

def request (ticket : Ticket ρ) (id : Nat) : Request :=
  ⟨id, ticket.arrival.operation, ticket.arrival.deadline, ticket.arrival.expires⟩

/-- Work begins with its permit and runs to its end, whatever its caller does. -/
def ends (ticket : Ticket ρ) : Option (Nat × Ending ρ) :=
  ticket.granted.bind ticket.arrival.work.endFrom

/-- Whether the call has a permit at an instant: from the grant to the end of its work. -/
def holds (ticket : Ticket ρ) (instant : Nat) : Bool :=
  ticket.granted.any (· ≤ instant) && ticket.ends.all (instant < ·.1)

def timeout (ticket : Ticket ρ) : Nat × Except CallError ρ :=
  (ticket.arrival.expires,
    .error (.timedOut ticket.arrival.operation (.ofMillis ticket.arrival.deadline)))

/-- When the caller is answered, and what. -/
def answer (ticket : Ticket ρ) : Nat × Except CallError ρ :=
  match ticket.ends with
  | some (instant, ending) =>
    if instant < ticket.arrival.expires then
      (instant, ending.outcome ticket.arrival.operation)
    else ticket.timeout
  | none => ticket.timeout

variable {ticket : Ticket ρ} {instant : Nat}

theorem holds_iff : ticket.holds instant = true ↔
    (∃ since ∈ ticket.granted, since ≤ instant) ∧ ∀ ending ∈ ticket.ends, instant < ending.1 := by
  simp [holds, Option.any_eq_true, Option.all_eq_true]

theorem ends_of_none (never : ticket.granted = none) : ticket.ends = none := by
  rw [ends, never]
  rfl

theorem ends_of_some {since : Nat} (granted : ticket.granted = some since) :
    ticket.ends = ticket.arrival.work.endFrom since := by
  rw [ends, granted]
  rfl

/-- Work that never ends, or not before the deadline, comes too late for its caller. -/
theorem answer_of_late (late : ∀ ending ∈ ticket.ends, ticket.arrival.expires ≤ ending.1) :
    ticket.answer = ticket.timeout := by
  unfold answer
  split
  · rename_i ends
    rw [if_neg (Nat.not_lt.mpr (late _ ends))]
  · rfl

theorem answer_of_ends {ending : Ending ρ} (ends : ticket.ends = some (instant, ending))
    (before : instant < ticket.arrival.expires) :
    ticket.answer = (instant, ending.outcome ticket.arrival.operation) := by
  simp only [answer, ends, if_pos before]

/-- Work does not end before it begins. -/
theorem le_ends {since : Nat} (granted : ticket.granted = some since) :
    ∀ ending ∈ ticket.ends, since ≤ ending.1 := by
  intro ending ends
  rw [ends_of_some granted] at ends
  obtain ⟨_, _, rfl⟩ := Option.map_eq_some_iff.mp ends
  exact Nat.le_add_right ..

theorem lt_answer (going : ∀ ending ∈ ticket.ends, instant < ending.1)
    (timely : instant < ticket.arrival.expires) : instant < ticket.answer.1 := by
  unfold answer
  split
  · rename_i moment ending ends
    split
    · exact going _ ends
    · exact timely
  · exact timely

end Ticket

/-- A call gets a permit at the first instant at which the calls before it leave one free. -/
def seat (capacity : Nat) (earlier : List (Ticket ρ)) (arrival : Arrival ρ) : Option Nat :=
  (List.range' arrival.instant (max 1 arrival.deadline)).find? fun instant =>
    earlier.countP (·.holds instant) < capacity

def issue (capacity : Nat) (earlier : List (Ticket ρ)) (arrival : Arrival ρ) : List (Ticket ρ) :=
  earlier ++ [⟨arrival, seat capacity earlier arrival⟩]

def tickets (capacity : Nat) (arrivals : List (Arrival ρ)) : List (Ticket ρ) :=
  arrivals.foldl (issue capacity) []

theorem tickets_concat (arrivals : List (Arrival ρ)) (arrival : Arrival ρ) :
    tickets capacity (arrivals ++ [arrival]) =
      issue capacity (tickets capacity arrivals) arrival := by
  simp [tickets]

theorem map_arrival_tickets (capacity : Nat) (arrivals : List (Arrival ρ)) :
    (tickets capacity arrivals).map (·.arrival) = arrivals := by
  induction arrivals using List.reverseRecOn with
  | nil => rfl
  | append_singleton arrivals arrival ih => simp [tickets_concat, issue, ih]

theorem length_tickets (capacity : Nat) (arrivals : List (Arrival ρ)) :
    (tickets capacity arrivals).length = arrivals.length := by
  simpa using congrArg List.length (map_arrival_tickets capacity arrivals)

/-- Later calls change nothing for those before. -/
theorem tickets_append (capacity : Nat) (arrivals later : List (Arrival ρ)) :
    ∃ more, tickets capacity (arrivals ++ later) = tickets capacity arrivals ++ more := by
  induction later using List.reverseRecOn with
  | nil => exact ⟨[], by simp⟩
  | append_singleton later arrival ih =>
    obtain ⟨more, equation⟩ := ih
    rw [← List.append_assoc, tickets_concat, equation, issue, List.append_assoc]
    exact ⟨_, rfl⟩

/-- Every call of a book has the permit that the calls before it leave. -/
def Seated (capacity : Nat) (book : List (Ticket ρ)) : Prop :=
  ∀ ⦃id : Nat⦄ ⦃ticket : Ticket ρ⦄, book[id]? = some ticket →
    ticket.granted = seat capacity (book.take id) ticket.arrival

theorem Seated.issue {book : List (Ticket ρ)} (seated : Seated capacity book)
    (arrival : Arrival ρ) : Seated capacity (issue capacity book arrival) := by
  intro id ticket booked
  rw [ServiceHost.issue] at booked ⊢
  rcases Nat.lt_or_ge id book.length with old | new
  · rw [List.getElem?_append_left old] at booked
    rw [List.take_append_of_le_length (Nat.le_of_lt old)]
    exact seated booked
  · obtain ⟨bound, _⟩ := List.getElem?_eq_some_iff.mp booked
    obtain rfl : id = book.length := by
      rw [List.length_append, List.length_singleton] at bound
      omega
    rw [List.getElem?_concat_length] at booked
    obtain rfl := Option.some.inj booked
    rw [List.take_left]

theorem seated_tickets (capacity : Nat) (arrivals : List (Arrival ρ)) :
    Seated capacity (tickets capacity arrivals) := by
  induction arrivals using List.reverseRecOn with
  | nil => intro id ticket booked; cases booked
  | append_singleton arrivals arrival ih => rw [tickets_concat]; exact ih.issue arrival

/-! ## Seats -/

section

variable {earlier : List (Ticket ρ)} {arrival : Arrival ρ}

theorem seat_eq_some_iff : seat capacity earlier arrival = some now ↔
    (arrival.instant ≤ now ∧ now < arrival.closes) ∧ earlier.countP (·.holds now) < capacity ∧
      ∀ instant, arrival.instant ≤ instant → instant < now →
        capacity ≤ earlier.countP (·.holds instant) := by
  simp only [seat, List.find?_range'_eq_some, List.mem_range'_1, decide_eq_true_eq, Arrival.closes,
    Bool.not_eq_eq_eq_not, Bool.not_true, decide_eq_false_iff_not, Nat.not_lt]
  exact ⟨fun ⟨free, within, before⟩ => ⟨within, free, before⟩,
    fun ⟨within, free, before⟩ => ⟨free, within, before⟩⟩

theorem seat_eq_none (full : ∀ instant, arrival.instant ≤ instant → instant < arrival.closes →
    capacity ≤ earlier.countP (·.holds instant)) : seat capacity earlier arrival = none := by
  refine List.find?_range'_eq_none.mpr fun instant since before => ?_
  simpa using full instant since before

theorem seat_le (since : arrival.instant ≤ now) (before : now < arrival.closes)
    (free : earlier.countP (·.holds now) < capacity) :
    ∃ sooner, seat capacity earlier arrival = some sooner ∧ sooner ≤ now := by
  cases found : seat capacity earlier arrival with
  | none =>
    have full := List.find?_range'_eq_none.mp found now since before
    simp only [Bool.not_eq_eq_eq_not, Bool.not_true, decide_eq_false_iff_not] at full
    exact absurd free full
  | some sooner =>
    refine ⟨sooner, rfl, Nat.le_of_not_lt fun later => ?_⟩
    exact Nat.not_le_of_lt free ((seat_eq_some_iff.mp found).2.2 now since later)

/-- While a permit is free, calls do not know of each other. -/
theorem seat_of_free (free : earlier.countP (·.holds arrival.instant) < capacity) :
    seat capacity earlier arrival = some arrival.instant := by
  refine seat_eq_some_iff.mpr ⟨⟨Nat.le_refl _, ?_⟩, free, fun instant since before => by omega⟩
  rw [Arrival.closes]
  omega

/-- The ticket of a call that finds a permit free. Nothing in it comes from other calls. -/
def Arrival.unhindered (arrival : Arrival ρ) : Ticket ρ := ⟨arrival, some arrival.instant⟩

end

/-! ## Counting -/

section

variable {book : List (Ticket ρ)} {ids : List Nat} {instant : Nat}

/-- How many of the calls before one have a permit at an instant. -/
def busy (book : List (Ticket ρ)) (id instant : Nat) : Nat :=
  (book.take id).countP (·.holds instant)

/-- The calls before one that have a permit at an instant. -/
def busyOnes (book : List (Ticket ρ)) (id instant : Nat) : List Nat :=
  (List.range id).filter fun earlier => book[earlier]?.any (·.holds instant)

theorem length_busyOnes : (busyOnes book id instant).length = busy book id instant := by
  induction id with
  | zero => simp [busyOnes, busy]
  | succ id ih =>
    simp only [busyOnes, busy, List.range_succ, List.filter_append, List.length_append,
      List.take_add_one, List.countP_append] at ih ⊢
    rw [ih]
    cases booked : book[id]? with
    | none => simp [booked]
    | some ticket => cases holds : ticket.holds instant <;> simp [booked, holds]

theorem mem_busyOnes {earlier : Nat} : earlier ∈ busyOnes book id instant ↔
    earlier < id ∧ ∃ ticket, book[earlier]? = some ticket ∧ ticket.holds instant = true := by
  simp [busyOnes, Option.any_eq_true]

theorem nodup_busyOnes : (busyOnes book id instant).Nodup :=
  List.nodup_range.sublist List.filter_sublist

/-- A permit is left for a call that is itself among so many numbers as there are permits. -/
theorem busy_lt (few : ids.length ≤ capacity) (member : id ∈ ids)
    (held : ∀ earlier ∈ busyOnes book id instant, earlier ∈ ids) :
    busy book id instant < capacity := by
  have itself : id ∉ busyOnes book id instant :=
    fun busy => Nat.lt_irrefl id (mem_busyOnes.mp busy).1
  have := (List.nodup_cons.mpr ⟨itself, nodup_busyOnes⟩).length_le_of_subset
    (List.cons_subset.mpr ⟨member, held⟩)
  rw [List.length_cons, length_busyOnes] at this
  omega

theorem le_busy (once : ids.Nodup) (held : ∀ earlier ∈ ids, earlier ∈ busyOnes book id instant) :
    ids.length ≤ busy book id instant := by
  rw [← length_busyOnes]
  exact once.length_le_of_subset held

theorem busy_append (more : List (Ticket ρ)) (before : id ≤ book.length) :
    busy (book ++ more) id instant = busy book id instant := by
  rw [busy, busy, List.take_append_of_le_length before]

theorem busy_mono {later : Nat} (before : id ≤ later) :
    busy book id instant ≤ busy book later instant := by
  rw [← length_busyOnes]
  refine le_busy nodup_busyOnes fun earlier member => ?_
  obtain ⟨bound, holds⟩ := mem_busyOnes.mp member
  exact mem_busyOnes.mpr ⟨Nat.lt_of_lt_of_le bound before, holds⟩

/-- A call without any time is never answered by its work, even if it gets a permit. -/
theorem Seated.answer_of_no_time {book : List (Ticket ρ)} (seated : Seated capacity book)
    {ticket : Ticket ρ} (member : ticket ∈ book) (zero : ticket.arrival.deadline = 0) :
    ticket.answer = ticket.timeout := by
  obtain ⟨id, booked⟩ := List.mem_iff_getElem?.mp member
  refine Ticket.answer_of_late fun ending ends => ?_
  obtain ⟨since, granted, _⟩ := Option.bind_eq_some_iff.mp ends
  have begun := Ticket.le_ends granted ending ends
  rw [seated booked, seat_eq_some_iff] at granted
  rw [Arrival.expires, zero]
  exact Nat.le_trans granted.1.1 begun

/-- A permit goes to the oldest call that waits: when one gets it, every older one has had a permit
by then or is out of time. -/
def InTurn (book : List (Ticket ρ)) : Prop :=
  ∀ ⦃older younger since : Nat⦄ ⦃first second : Ticket ρ⦄, older < younger →
    book[older]? = some first → book[younger]? = some second → second.granted = some since →
    first.arrival.expires ≤ since ∨ ∃ sooner, first.granted = some sooner ∧ sooner ≤ since

theorem inTurn_tickets {arrivals : List (Arrival ρ)}
    (sorted : arrivals.Pairwise (·.instant ≤ ·.instant)) : InTurn (tickets capacity arrivals) := by
  intro older younger since first second before one other granted
  rw [seated_tickets capacity arrivals other, seat_eq_some_iff] at granted
  obtain ⟨⟨came, _⟩, free, _⟩ := granted
  have sooner : first.arrival.instant ≤ second.arrival.instant := by
    rw [← map_arrival_tickets capacity arrivals, List.pairwise_map] at sorted
    obtain ⟨_, rfl⟩ := List.getElem?_eq_some_iff.mp one
    obtain ⟨_, rfl⟩ := List.getElem?_eq_some_iff.mp other
    exact List.pairwise_iff_getElem.mp sorted older younger _ _ before
  rcases Nat.lt_or_ge since first.arrival.closes with within | closed
  · rw [seated_tickets capacity arrivals one]
    have fewer : busy (tickets capacity arrivals) older since ≤ busy _ younger since :=
      busy_mono (Nat.le_of_lt before)
    exact .inr (seat_le (Nat.le_trans sooner came) within (Nat.lt_of_le_of_lt fewer free))
  · rw [Arrival.closes] at closed
    rw [Arrival.expires]
    omega

end

end ServiceHost
