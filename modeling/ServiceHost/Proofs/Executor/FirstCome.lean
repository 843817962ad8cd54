import ServiceHost.Proofs.Executor.Progress

/-! Calls with a deadline are served first come, first served.

Under any schedule, what is seen of a call is what its ticket in the reference queue says:
when its work begins, when it ends, and when its caller is told what.
-/

set_option autoImplicit false

namespace ServiceHost.Calls

variable {ρ : Type} {capacity id instant now : Nat} {calls : Calls ρ} {book : List (Ticket ρ)}
  {log : Log ρ} {ticket : Ticket ρ} {arrivals : List (Arrival ρ)}

/-- All that is seen of a call up to an instant is what its ticket says up to then: its work begins
with its permit, once, and goes to its end, and its caller gets one answer. -/
structure Log.Agrees (log : Log ρ) (now id : Nat) (ticket : Ticket ρ) : Prop where
  begun : log.begun id = ticket.granted.toList.filter (· ≤ now)
  ended : log.ended id = (ticket.ends.toList.map Prod.fst).filter (· ≤ now)
  answers : log.answers id = [ticket.answer].filter (·.1 ≤ now)

/-! ## Calls at rest -/

theorem Gone.agrees (gone : Gone log now id ticket) : log.Agrees now id ticket := by
  have ended : ∀ ending ∈ ticket.ends, ending.1 ≤ now := by
    intro ending ends
    obtain ⟨since, granted, _⟩ := Option.bind_eq_some_iff.mp ends
    obtain ⟨other, same, done⟩ := gone.done since granted
    rwa [Option.some.inj (ends.symm.trans same)]
  have begun : ∀ since ∈ ticket.granted, since ≤ now := by
    intro since granted
    obtain ⟨ending, ends, done⟩ := gone.done since granted
    exact Nat.le_trans (Ticket.le_ends granted ending ends) done
  refine ⟨?_, ?_, ?_⟩
  · rw [gone.begun, List.filter_eq_self.mpr]
    simpa using begun
  · rw [gone.ended, List.filter_eq_self.mpr]
    simpa using ended
  · rw [gone.answers]
    simp [gone.past]

/-- What goes on when all that is ready has been done ends and is answered later. -/
theorem Goes.agrees {call : Running (Progress ρ)} {since : Nat}
    (goes : Goes book log calls.now call ticket since) (rest : calls.step? = none)
    (member : call ∈ calls.executor.running) : log.Agrees calls.now call.request.id ticket := by
  obtain ⟨under, begun⟩ := goes.planned rest member
  have going : ∀ ending ∈ ticket.ends, calls.now < ending.1 := by
    intro ending ends
    rw [Option.mem_def.mp ends] at under
    exact (Due.ends member under).later rest
  refine ⟨?_, ?_, ?_⟩
  · simp [begun, goes.granted, goes.passed]
  · rw [goes.ended, List.filter_eq_nil_iff.mpr]
    simpa using going
  · cases awaited : call.awaited with
    | true =>
      have timely := (Due.awaited member awaited).later rest
      rw [goes.request] at timely
      simp [(goes.awaited awaited).2, Ticket.lt_answer going timely]
    | false => simp [goes.detached awaited]

/-- What waits gets its permit, begins and is answered later. -/
theorem Waits.agrees {call : Request × Progress ρ}
    (waits : Waits capacity book log calls.now call ticket) (rest : calls.step? = none)
    (member : call ∈ calls.executor.queue)
    (later : ∀ since ∈ ticket.granted, calls.now < since) :
    log.Agrees calls.now call.1.id ticket := by
  have going : ∀ ending ∈ ticket.ends, calls.now < ending.1 := by
    intro ending ends
    obtain ⟨since, granted, _⟩ := Option.bind_eq_some_iff.mp ends
    exact Nat.lt_of_lt_of_le (later since granted) (Ticket.le_ends granted ending ends)
  have timely := (Due.waiting member).later rest
  rw [waits.request] at timely
  refine ⟨?_, ?_, ?_⟩
  · rw [waits.blank.begun, List.filter_eq_nil_iff.mpr]
    simpa using later
  · rw [waits.blank.ended, List.filter_eq_nil_iff.mpr]
    simpa using going
  · simp [waits.blank.answers, Ticket.lt_answer going timely]

theorem Waits.granted_later {call : Request × Progress ρ}
    (waits : Waits capacity book log calls.now call ticket)
    (follows : Follows capacity book log calls) (rest : calls.step? = none)
    (member : call ∈ calls.executor.queue) : ∀ since ∈ ticket.granted, calls.now < since := by
  intro since granted
  rw [Option.mem_def, follows.seated waits.booked, seat_eq_some_iff] at granted
  obtain ⟨⟨came, _⟩, free, _⟩ := granted
  by_contra passed
  have full : capacity ≤ busy book call.1.id since := by
    rcases Nat.lt_or_ge since (max calls.now (ticket.arrival.instant + 1)) with old | new
    · exact waits.full since came old
    · obtain rfl : since = calls.now := by omega
      exact follows.full_of_queued rest (Nat.le_refl _) (fun due planned => planned.later rest)
        member
  exact Nat.not_le_of_lt free full

namespace Reached

theorem agrees (reached : Reached capacity arrivals instant log calls)
    (booked : (tickets capacity arrivals)[id]? = some ticket) : log.Agrees instant id ticket := by
  obtain ⟨run, rest, rfl⟩ := reached
  have follows := run.follows
  by_cases waited : id ∈ calls.executor.line
  · obtain ⟨call, member, rfl, waits⟩ := follows.waits_of_line waited booked
    exact waits.agrees rest member (waits.granted_later follows rest member)
  · by_cases held : id ∈ calls.executor.holders
    · obtain ⟨call, member, since, rfl, goes⟩ := follows.goes_of_holder held booked
      exact goes.agrees rest member
    · exact (follows.gone id ticket booked waited held).agrees

/-- The executor and the tickets agree on how many permits are out. -/
theorem inFlight_eq (reached : Reached capacity arrivals instant log calls) :
    calls.executor.inFlight = (tickets capacity arrivals).countP (·.holds instant) := by
  obtain ⟨run, rest, rfl⟩ := reached
  have follows := run.follows
  have all : busy (tickets capacity arrivals) calls.executor.issued calls.now =
      (tickets capacity arrivals).countP (·.holds calls.now) := by
    rw [busy, follows.issued, List.take_length]
  have same : calls.executor.holders.length = calls.executor.inFlight := List.length_map ..
  rw [← all, ← same]
  refine Nat.le_antisymm (ServiceHost.le_busy follows.orderly.once fun holder holds => ?_) ?_
  · exact follows.holders_busy rest (Nat.le_refl _) (fun due planned => planned.later rest) holds
      (follows.orderly.lt_issued_of_holder holds)
  · rw [← length_busyOnes]
    refine nodup_busyOnes.length_le_of_subset fun id busy => ?_
    refine (follows.line_or_holders busy).resolve_left fun waited => ?_
    obtain ⟨_, ticket, booked, holds⟩ := mem_busyOnes.mp busy
    obtain ⟨call, member, _, waits⟩ := follows.waits_of_line waited booked
    obtain ⟨⟨since, granted, passed⟩, _⟩ := Ticket.holds_iff.mp holds
    exact Nat.not_le_of_lt (waits.granted_later follows rest member since granted) passed

/-- A call that finds a permit free is served as if it were alone, whatever comes later. -/
theorem unhindered (reached : Reached capacity arrivals instant log calls)
    (free : calls.executor.inFlight < capacity) {arrival : Arrival ρ}
    (comes : arrival.instant = instant) (later : List (Arrival ρ)) :
    (tickets capacity (arrivals ++ arrival :: later))[arrivals.length]? =
      some arrival.unhindered := by
  rw [reached.inFlight_eq, ← comes] at free
  obtain ⟨more, equation⟩ := tickets_append capacity (arrivals ++ [arrival]) later
  rw [List.append_cons, equation, tickets_concat, issue, seat_of_free free,
    ← length_tickets capacity arrivals, List.append_assoc]
  simp [Arrival.unhindered]

end Reached

/-- Any schedule can be run, and whatever the program does next is part of such a run. However it is
run, and at whatever instant it is looked at, all calls have been served as their tickets say, first
come, first served. A call without any time is always timed out. A call that comes while a permit is
free has a ticket that depends on nothing but the call. -/
theorem first_come_first_served (sorted : arrivals.Pairwise (·.instant ≤ ·.instant))
    (come : ∀ arrival ∈ arrivals, arrival.instant ≤ instant) :
    (∃ log calls, Reached capacity arrivals instant log calls) ∧
    (∀ log calls next, Run capacity arrivals log calls → calls.step? = some next →
      ∃ more, Run capacity arrivals (log ++ more) next) ∧
    InTurn (tickets capacity arrivals) ∧
    (∀ ticket ∈ tickets capacity arrivals, ticket.arrival.deadline = 0 →
      ticket.answer = ticket.timeout) ∧
    ∀ log calls, Reached capacity arrivals instant log calls →
      calls.executor.inFlight = (tickets capacity arrivals).countP (·.holds instant) ∧
      (∀ id ticket, (tickets capacity arrivals)[id]? = some ticket →
        log.Agrees instant id ticket) ∧
      ∀ arrival later, arrival.instant = instant → calls.executor.inFlight < capacity →
        (tickets capacity (arrivals ++ arrival :: later))[arrivals.length]? =
          some arrival.unhindered := by
  have seated := seated_tickets capacity arrivals
  refine ⟨exists_reached capacity sorted come, fun log calls next run step => ?_,
    inTurn_tickets sorted, fun ticket member => seated.answer_of_no_time member,
    fun log calls reached => ?_⟩
  · obtain ⟨happenings, turn⟩ := run.exists_turn step
    exact ⟨_, run.turn turn⟩
  · exact ⟨reached.inFlight_eq, fun id ticket => reached.agrees,
      fun arrival later comes free => reached.unhindered free comes later⟩

/-- Three calls for one permit: the first one holds it beyond its deadline, the second one does not
live to see it free, and the third one gets it then and panics. -/
def crowd : List (Arrival Nat) := [
  ⟨0, "hold", 5, ⟨10, some (.value 1)⟩⟩,
  ⟨1, "miss", 4, ⟨1, some (.value 2)⟩⟩,
  ⟨2, "break", 20, ⟨3, some (.panicked (.text "boom"))⟩⟩]

/-- It finds the permit free and has no time to use it. -/
def straggler : Arrival Nat := ⟨20, "poll", 0, ⟨2, some (.value 3)⟩⟩

theorem first_come_first_served_crowd : ∃ log calls, Reached 1 crowd 20 log calls ∧
    (log.begun 0 = [0] ∧ log.ended 0 = [10] ∧
      log.answers 0 = [(5, .error (.timedOut "hold" (.ofMillis 5)))]) ∧
    (log.begun 1 = [] ∧ log.answers 1 = [(5, .error (.timedOut "miss" (.ofMillis 4)))]) ∧
    (log.begun 2 = [10] ∧ log.ended 2 = [13] ∧
      log.answers 2 = [(13, .error (.panicked "break" "boom"))]) ∧
    (tickets 1 (crowd ++ [straggler]))[3]? = some straggler.unhindered := by
  have sorted : crowd.Pairwise (·.instant ≤ ·.instant) := by decide
  have come : ∀ arrival ∈ crowd, arrival.instant ≤ 20 := by decide
  obtain ⟨⟨log, calls, reached⟩, _, _, _, served⟩ :
      (∃ log calls, Reached 1 crowd 20 log calls) ∧ _ := first_come_first_served sorted come
  obtain ⟨inFlight, agrees, unhindered⟩ := served log calls reached
  have free : calls.executor.inFlight < 1 := inFlight ▸ by decide
  have hold := agrees 0 _ rfl
  have miss := agrees 1 _ rfl
  have break_ := agrees 2 _ rfl
  exact ⟨log, calls, reached, ⟨hold.begun, hold.ended, hold.answers⟩,
    ⟨miss.begun, miss.answers⟩, ⟨break_.begun, break_.ended, break_.answers⟩,
    unhindered straggler [] rfl free⟩

end ServiceHost.Calls
