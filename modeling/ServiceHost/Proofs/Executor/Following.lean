import ServiceHost.Proofs.Executor.Replies

/-! An executor under a schedule keeps to the reference queue.

Every call of the schedule waits, goes on or is gone, and each time the log of what is seen
of it says what the reference queue has said of it so far.
-/

set_option autoImplicit false

namespace ServiceHost.Calls

variable {ρ : Type} {capacity id now instant : Nat} {calls next : Calls ρ}
  {executor : Executor (Progress ρ) ρ} {book : List (Ticket ρ)} {log more : Log ρ}
  {ticket : Ticket ρ}

/-! ## Where a call stands -/

/-- A call waits: no permit was left for it so far. -/
structure Waits (capacity : Nat) (book : List (Ticket ρ)) (log : Log ρ) (now : Nat)
    (call : Request × Progress ρ) (ticket : Ticket ρ) : Prop where
  booked : book[call.1.id]? = some ticket
  request : call.1 = ticket.request call.1.id
  work : call.2 = .fresh ticket.arrival.work
  came : ticket.arrival.instant ≤ now
  inTime : now ≤ ticket.arrival.expires
  -- The instant of its arrival counts even before it is over.
  full : ∀ instant, ticket.arrival.instant ≤ instant →
    instant < max now (ticket.arrival.instant + 1) → capacity ≤ busy book call.1.id instant
  blank : log.Blank call.1.id

/-- A call has had a permit since an instant and goes on. -/
structure Goes (book : List (Ticket ρ)) (log : Log ρ) (now : Nat) (call : Running (Progress ρ))
    (ticket : Ticket ρ) (since : Nat) : Prop where
  booked : book[call.request.id]? = some ticket
  request : call.request = ticket.request call.request.id
  granted : ticket.granted = some since
  passed : since ≤ now
  work : (call.work = .fresh ticket.arrival.work ∧ since = now ∧
      log.begun call.request.id = []) ∨
    (call.work = .under ticket.ends ∧ log.begun call.request.id = [since])
  going : ∀ ending ∈ ticket.ends, now ≤ ending.1
  ended : log.ended call.request.id = []
  awaited : call.awaited = true →
    now ≤ ticket.arrival.expires ∧ log.answers call.request.id = []
  detached : call.awaited = false →
    ticket.answer.1 ≤ now ∧ log.answers call.request.id = [ticket.answer]

/-- A call is gone: it never got a permit, or its work has ended. -/
structure Gone (log : Log ρ) (now id : Nat) (ticket : Ticket ρ) : Prop where
  done : ∀ since ∈ ticket.granted, ∃ ending ∈ ticket.ends, ending.1 ≤ now
  begun : log.begun id = ticket.granted.toList
  ended : log.ended id = ticket.ends.toList.map Prod.fst
  past : ticket.answer.1 ≤ now
  answers : log.answers id = [ticket.answer]

/-- An executor after a schedule, beside the tickets of the reference queue. -/
structure Follows (capacity : Nat) (book : List (Ticket ρ)) (log : Log ρ) (calls : Calls ρ) :
    Prop where
  orderly : calls.executor.Orderly
  seated : Seated capacity book
  permits : calls.executor.capacity = capacity
  issued : calls.executor.issued = book.length
  waits : ∀ call ∈ calls.executor.queue, ∃ ticket, Waits capacity book log calls.now call ticket
  goes : ∀ call ∈ calls.executor.running, ∃ ticket since, Goes book log calls.now call ticket since
  gone : ∀ id ticket, book[id]? = some ticket →
    id ∉ calls.executor.line → id ∉ calls.executor.holders → Gone log calls.now id ticket
  blank : ∀ id, book.length ≤ id → log.Blank id

theorem Log.Blank.append (blank : log.Blank id) (silent : more.Blank id) :
    (log ++ more).Blank id where
  begun := by rw [begun_append, blank.begun, silent.begun, List.append_nil]
  ended := by rw [ended_append, blank.ended, silent.ended, List.append_nil]
  answers := by rw [answers_append, blank.answers, silent.answers, List.append_nil]

theorem Waits.append {call : Request × Progress ρ} (waits : Waits capacity book log now call ticket)
    (silent : more.Blank call.1.id) : Waits capacity book (log ++ more) now call ticket :=
  { waits with blank := waits.blank.append silent }

theorem Goes.append {call : Running (Progress ρ)} {since : Nat}
    (goes : Goes book log now call ticket since) (silent : more.Blank call.request.id) :
    Goes book (log ++ more) now call ticket since where
  booked := goes.booked
  request := goes.request
  granted := goes.granted
  passed := goes.passed
  work := by simpa [silent.begun] using goes.work
  going := goes.going
  ended := by simpa [silent.ended] using goes.ended
  awaited := by simpa [silent.answers] using goes.awaited
  detached := by simpa [silent.answers] using goes.detached

theorem Gone.append (gone : Gone log now id ticket) (silent : more.Blank id) :
    Gone (log ++ more) now id ticket where
  done := gone.done
  begun := by simpa [silent.begun] using gone.begun
  ended := by simpa [silent.ended] using gone.ended
  past := gone.past
  answers := by simpa [silent.answers] using gone.answers

theorem Waits.expires {call : Request × Progress ρ}
    (waits : Waits capacity book log now call ticket) :
    call.1.expires = ticket.arrival.expires := by
  rw [waits.request]
  rfl

theorem Goes.expires {call : Running (Progress ρ)} {since : Nat}
    (goes : Goes book log now call ticket since) :
    call.request.expires = ticket.arrival.expires := by
  rw [goes.request]
  rfl

theorem Gone.not_holds (gone : Gone log now id ticket) (since : now ≤ instant) :
    ¬ ticket.holds instant = true := by
  intro holds
  obtain ⟨⟨granted, there, _⟩, going⟩ := Ticket.holds_iff.mp holds
  obtain ⟨ending, ends, done⟩ := gone.done granted there
  have := going ending ends
  omega

theorem Goes.holds {call : Running (Progress ρ)} {since : Nat}
    (goes : Goes book log now call ticket since) (passed : now ≤ instant)
    (going : ∀ ending ∈ ticket.ends, instant < ending.1) : ticket.holds instant = true :=
  Ticket.holds_iff.mpr
    ⟨⟨since, goes.granted, Nat.le_trans goes.passed passed⟩, going⟩

/-- A caller that goes away with nothing leaves no trace. -/
theorem Waits.expire {call : Request × Progress ρ}
    (waits : Waits capacity book log now call ticket) (orderly : executor.Orderly)
    (member : call ∈ executor.queue) (expired : call.1.expires ≤ now)
    (seated : ticket.granted = seat capacity (book.take call.1.id) ticket.arrival) :
    Gone (log ++ noted now (replies executor (executor.expire now))) now call.1.id ticket := by
  have expires := waits.expires
  have instant : ticket.arrival.expires = now := by
    have := waits.inTime
    omega
  have never : ticket.granted = none := by
    rw [seated]
    refine seat_eq_none fun instant since before => waits.full instant since ?_
    rw [Arrival.closes] at before
    rw [Arrival.expires] at expires
    omega
  have answer : ticket.answer = (now, .error call.1.timeout) := by
    rw [Ticket.answer_of_late (by simp [Ticket.ends_of_none never]), waits.request, ← instant]
    rfl
  obtain ⟨begun, ended, answers⟩ := noted_expire orderly (mem_late_of_queued member expired)
  refine ⟨by simp [never], ?_, ?_, by simp [answer], ?_⟩
  · simp [begun, waits.blank.begun, never]
  · simp [ended, waits.blank.ended, Ticket.ends_of_none never]
  · rw [Log.answers_append, waits.blank.answers, answer, answers, List.nil_append]

/-- A caller that goes away leaves its work alone. -/
theorem Goes.expire {call : Running (Progress ρ)} {since : Nat}
    (goes : Goes book log now call ticket since) (orderly : executor.Orderly)
    (member : call ∈ executor.running) (awaited : call.awaited = true)
    (expired : call.request.expires ≤ now) :
    Goes book (log ++ noted now (replies executor (executor.expire now))) now
      { call with awaited := call.awaited && !decide (call.request.expires ≤ now) } ticket
      since := by
  have expires := goes.expires
  obtain ⟨inTime, unanswered⟩ := goes.awaited awaited
  have instant : ticket.arrival.expires = now := by omega
  have answer : ticket.answer = (now, .error call.request.timeout) := by
    rw [Ticket.answer_of_late (by rw [instant]; exact goes.going), goes.request, ← instant]
    rfl
  obtain ⟨begun, ended, answers⟩ :=
    noted_expire orderly (mem_late_of_awaited member awaited expired)
  exact {
    booked := goes.booked
    request := goes.request
    granted := goes.granted
    passed := goes.passed
    work := by simpa [begun] using goes.work
    going := goes.going
    ended := by simpa [ended] using goes.ended
    awaited := fun still => by simp [expired] at still
    detached := fun _ => by
      rw [Log.answers_append, unanswered, answer, answers]
      exact ⟨Nat.le_refl _, rfl⟩ }

theorem Goes.begin {call : Running (Progress ρ)} {since : Nat}
    (goes : Goes book log now call ticket since) {work : Work ρ} (fresh : call.work = .fresh work) :
    Goes book (log ++ noted now [.began call.request.id]) now
      { call with work := .under (work.endFrom now) } ticket since := by
  obtain ⟨same, instant, unbegun⟩ : call.work = .fresh ticket.arrival.work ∧ since = now ∧
      log.begun call.request.id = [] := by
    refine goes.work.resolve_right fun under => ?_
    rw [fresh] at under
    cases under.1
  obtain rfl : work = ticket.arrival.work := Progress.fresh.inj (fresh.symm.trans same)
  exact {
    booked := goes.booked
    request := goes.request
    granted := goes.granted
    passed := goes.passed
    work := .inr ⟨by rw [Ticket.ends_of_some goes.granted, instant],
      by rw [Log.begun_append, unbegun]; simp [noted, Log.begun, instant]⟩
    going := goes.going
    ended := by simpa [noted, Log.ended] using goes.ended
    awaited := by simpa [noted, Log.answers] using goes.awaited
    detached := by simpa [noted, Log.answers] using goes.detached }

/-- Once nothing is ready, all work that has a permit has begun. -/
theorem Goes.planned {call : Running (Progress ρ)} {since : Nat}
    (goes : Goes book log now call ticket since) (rest : calls.step? = none)
    (member : call ∈ calls.executor.running) :
    call.work = .under ticket.ends ∧ log.begun call.request.id = [since] := by
  refine goes.work.resolve_left fun fresh => ?_
  obtain ⟨plan, under⟩ := under_of_rest rest member
  rw [under] at fresh
  cases fresh.1

theorem Goes.ends {call : Running (Progress ρ)} {since : Nat}
    (goes : Goes book log now call ticket since) {ending : Ending ρ}
    (under : call.work = .under (some (instant, ending))) :
    ticket.ends = some (instant, ending) := by
  rcases goes.work with ⟨fresh, _⟩ | ⟨planned, _⟩
  · rw [under] at fresh
    cases fresh
  · exact (Progress.under.inj (under.symm.trans planned)).symm

theorem Goes.finish {call : Running (Progress ρ)} {since : Nat}
    (goes : Goes book log now call ticket since) (orderly : executor.Orderly)
    (member : call ∈ executor.running) (timely : executor.overdue now = false) {ending : Ending ρ}
    (under : call.work = .under (some (instant, ending))) (due : instant ≤ now) :
    Gone (log ++ noted now (.ended call.request.id ::
      replies executor (executor.finish call.request.id ending))) now call.request.id ticket := by
  have ends := goes.ends under
  obtain rfl : instant = now := Nat.le_antisymm due (goes.going _ ends)
  have begun : log.begun call.request.id = [since] := by
    rcases goes.work with ⟨fresh, _⟩ | ⟨_, begun⟩
    · rw [under] at fresh
      cases fresh
    · exact begun
  have answered : ticket.answer.1 ≤ instant ∧ log.answers call.request.id ++
      (if call.awaited then [(instant, ending.outcome call.request.operation)] else []) =
        [ticket.answer] := by
    cases awaited : call.awaited with
    | true =>
      have before := lt_of_timely_of_awaited timely member awaited
      rw [goes.request] at before
      rw [Ticket.answer_of_ends ends before, (goes.awaited awaited).2, goes.request]
      exact ⟨Nat.le_refl _, rfl⟩
    | false =>
      obtain ⟨past, answered⟩ := goes.detached awaited
      exact ⟨past, by rw [answered]; rfl⟩
  obtain ⟨nothing, once, told⟩ := noted_finish instant orderly member ending
  refine ⟨fun _ _ => ⟨_, ends, Nat.le_refl _⟩, ?_, ?_, answered.1, ?_⟩
  · simp [nothing, begun, goes.granted]
  · simp [once, goes.ended, ends]
  · rw [Log.answers_append, told, answered.2]

/-- A call that gets the permit that its ticket names. -/
theorem goes_admitted (call : Request × Progress ρ) (booked : book[call.1.id]? = some ticket)
    (request : call.1 = ticket.request call.1.id) (work : call.2 = .fresh ticket.arrival.work)
    (granted : ticket.granted = some now) (inTime : now ≤ ticket.arrival.expires)
    (blank : log.Blank call.1.id) : Goes book log now (Executor.admitted call) ticket now where
  booked := booked
  request := request
  granted := granted
  passed := Nat.le_refl now
  work := .inl ⟨work, rfl, blank.begun⟩
  going := Ticket.le_ends granted
  ended := blank.ended
  awaited := fun _ => ⟨inTime, blank.answers⟩
  detached := nofun

/-- A call at the front that still has time takes the permit that its ticket names. -/
theorem Waits.enters {call : Request × Progress ρ}
    (waits : Waits capacity book log now call ticket) (timely : now < call.1.expires)
    (free : busy book call.1.id now < capacity)
    (seated : ticket.granted = seat capacity (book.take call.1.id) ticket.arrival) :
    Goes book log now (Executor.admitted call) ticket now := by
  have expires := waits.expires
  have granted : ticket.granted = some now := by
    rw [seated, seat_eq_some_iff]
    refine ⟨⟨waits.came, ?_⟩, free, fun instant since before => waits.full instant since ?_⟩
    · rw [Arrival.expires] at expires
      rw [Arrival.closes]
      omega
    · omega
  exact goes_admitted call waits.booked waits.request waits.work granted waits.inTime waits.blank

/-! ## Later calls -/

theorem Waits.extend {call : Request × Progress ρ} (later : List (Ticket ρ))
    (waits : Waits capacity book log now call ticket) :
    Waits capacity (book ++ later) log now call ticket := by
  obtain ⟨bound, _⟩ := List.getElem?_eq_some_iff.mp waits.booked
  exact { waits with
    booked := by rw [List.getElem?_append_left bound, waits.booked]
    full := fun instant since before => by
      rw [busy_append later (Nat.le_of_lt bound)]
      exact waits.full instant since before }

theorem Goes.extend {call : Running (Progress ρ)} {since : Nat} (later : List (Ticket ρ))
    (goes : Goes book log now call ticket since) :
    Goes (book ++ later) log now call ticket since := by
  obtain ⟨bound, _⟩ := List.getElem?_eq_some_iff.mp goes.booked
  exact { goes with booked := by rw [List.getElem?_append_left bound, goes.booked] }

namespace Follows

theorem waits_of_line (follows : Follows capacity book log calls)
    (waited : id ∈ calls.executor.line) (booked : book[id]? = some ticket) :
    ∃ call ∈ calls.executor.queue,
      call.1.id = id ∧ Waits capacity book log calls.now call ticket := by
  obtain ⟨call, member, rfl⟩ := List.mem_map.mp waited
  obtain ⟨other, waits⟩ := follows.waits call member
  obtain rfl : other = ticket := Option.some.inj (waits.booked.symm.trans booked)
  exact ⟨call, member, rfl, waits⟩

theorem goes_of_holder (follows : Follows capacity book log calls)
    (held : id ∈ calls.executor.holders) (booked : book[id]? = some ticket) :
    ∃ call ∈ calls.executor.running, ∃ since,
      call.request.id = id ∧ Goes book log calls.now call ticket since := by
  obtain ⟨call, member, rfl⟩ := List.mem_map.mp held
  obtain ⟨other, since, goes⟩ := follows.goes call member
  obtain rfl : other = ticket := Option.some.inj (goes.booked.symm.trans booked)
  exact ⟨call, member, since, rfl, goes⟩

/-- A call that has not come yet is nowhere. -/
theorem absent_of_beyond (follows : Follows capacity book log calls) (beyond : book.length ≤ id) :
    id ∉ calls.executor.line ∧ id ∉ calls.executor.holders := by
  have issued := follows.issued
  refine ⟨fun waits => ?_, fun holds => ?_⟩
  · have := follows.orderly.lt_issued_of_waiting waits
    omega
  · have := follows.orderly.lt_issued_of_holder holds
    omega

/-- Whoever has a permit now by the tickets has one, or is about to get it. -/
theorem line_or_holders (follows : Follows capacity book log calls) {earlier : Nat}
    (busy : earlier ∈ busyOnes book id calls.now) :
    earlier ∈ calls.executor.line ∨ earlier ∈ calls.executor.holders := by
  obtain ⟨_, ticket, booked, holds⟩ := mem_busyOnes.mp busy
  by_contra absent
  rw [not_or] at absent
  exact (follows.gone earlier ticket booked absent.1 absent.2).not_holds (Nat.le_refl _) holds

/-- While nothing is due, whoever has a permit keeps it. -/
theorem holders_busy (follows : Follows capacity book log calls) (rest : calls.step? = none)
    (passed : calls.now ≤ instant) (quiet : ∀ due, Due calls due → instant < due) {holder : Nat}
    (holds : holder ∈ calls.executor.holders) (before : holder < id) :
    holder ∈ busyOnes book id instant := by
  obtain ⟨call, member, rfl⟩ := List.mem_map.mp holds
  obtain ⟨ticket, since, goes⟩ := follows.goes call member
  refine mem_busyOnes.mpr ⟨before, ticket, goes.booked, goes.holds passed ?_⟩
  intro ending ends
  refine quiet _ (.ends member (?_ : call.work = .under (some ending)))
  rw [(goes.planned rest member).1, Option.mem_def.mp ends]

theorem le_busy (follows : Follows capacity book log calls) (rest : calls.step? = none)
    (passed : calls.now ≤ instant) (quiet : ∀ due, Due calls due → instant < due)
    (full : calls.executor.running.length = calls.executor.capacity)
    (last : ∀ holder ∈ calls.executor.holders, holder < id) :
    capacity ≤ busy book id instant := by
  have all : _ ≤ busy book id instant := ServiceHost.le_busy follows.orderly.once
    fun holder holds => follows.holders_busy rest passed quiet holds (last holder holds)
  rw [Executor.holders, List.length_map, full, follows.permits] at all
  exact all

/-- While nothing is due, a call in line finds no permit free. -/
theorem full_of_queued (follows : Follows capacity book log calls) (rest : calls.step? = none)
    (passed : calls.now ≤ instant) (quiet : ∀ due, Due calls due → instant < due)
    {call : Request × Progress ρ} (member : call ∈ calls.executor.queue) :
    capacity ≤ busy book call.1.id instant :=
  follows.le_busy rest passed quiet (follows.orderly.full (List.ne_nil_of_mem member))
    fun holder holds => follows.orderly.older holder holds _ (List.mem_map_of_mem member)

/-! ## Time -/

theorem pass (follows : Follows capacity book log calls) (rest : calls.step? = none)
    (passed : calls.now ≤ instant) (clock : ∀ timer, calls.timer? = some timer → instant ≤ timer) :
    Follows capacity book log { calls with now := instant } := by
  have next (due : Nat) (planned : Due calls due) : instant ≤ due := by
    obtain ⟨timer, found, sooner⟩ := planned.timer?
    exact Nat.le_trans (clock timer found) sooner
  refine { follows with waits := ?waits, goes := ?goes, gone := ?gone }
  case waits =>
    intro call member
    obtain ⟨ticket, waits⟩ := follows.waits call member
    have expires := waits.expires
    refine ⟨ticket, { waits with
      came := Nat.le_trans waits.came passed
      inTime := expires ▸ next _ (.waiting member)
      full := fun moment since (before : moment < max instant _) => ?_ }⟩
    rcases Nat.lt_or_ge moment (max calls.now (ticket.arrival.instant + 1)) with old | new
    · exact waits.full moment since old
    -- Nobody gave a permit back in the meantime.
    · have now : calls.now ≤ moment ∧ moment < instant := by omega
      exact follows.full_of_queued rest now.1
        (fun due planned => Nat.lt_of_lt_of_le now.2 (next due planned)) member
  case goes =>
    intro call member
    obtain ⟨ticket, since, goes⟩ := follows.goes call member
    have expires := goes.expires
    have work := goes.planned rest member
    refine ⟨ticket, since, { goes with
      passed := Nat.le_trans goes.passed passed
      work := .inr work
      going := fun ending ends => next _ (.ends member (?_ : call.work = .under (some ending)))
      awaited := fun awaited =>
        ⟨expires ▸ next _ (.awaited member awaited), (goes.awaited awaited).2⟩
      detached := fun detached =>
        ⟨Nat.le_trans (goes.detached detached).1 passed, (goes.detached detached).2⟩ }⟩
    rw [work.1, Option.mem_def.mp ends]
  case gone =>
    intro id ticket booked waits holds
    have gone := follows.gone id ticket booked waits holds
    refine { gone with
      done := fun since granted => ?_
      past := Nat.le_trans gone.past passed }
    obtain ⟨ending, ends, done⟩ := gone.done since granted
    exact ⟨ending, ends, Nat.le_trans done passed⟩

/-! ## Deadlines -/

theorem deadlines (follows : Follows capacity book log calls) :
    Follows capacity book
      (log ++ noted calls.now (replies calls.executor (calls.executor.expire calls.now)))
      { calls with executor := calls.executor.expire calls.now } := by
  have orderly := follows.orderly
  refine { follows with
    orderly := orderly.expire _, waits := ?waits, goes := ?goes, gone := ?gone, blank := ?blank }
  case waits =>
    intro call member
    obtain ⟨member, timely⟩ := List.mem_filter.mp member
    obtain ⟨ticket, waits⟩ := follows.waits call member
    exact ⟨ticket, waits.append (blank_expire
      (not_late_of_queued orderly member (by simpa using timely)))⟩
  case goes =>
    intro call member
    obtain ⟨before, there, rfl⟩ := List.mem_map.mp member
    obtain ⟨ticket, since, goes⟩ := follows.goes before there
    by_cases given : before.awaited = true ∧ before.request.expires ≤ calls.now
    · exact ⟨ticket, since, goes.expire orderly there given.1 given.2⟩
    · have same : (before.awaited && !decide (before.request.expires ≤ calls.now)) =
          before.awaited := by
        cases awaited : before.awaited <;> simp_all
      rw [same]
      exact ⟨ticket, since, goes.append (blank_expire
        (not_late_of_granted orderly there fun awaited => by simpa [awaited] using given))⟩
  case gone =>
    intro id ticket booked waits holds
    rw [Executor.holders_expire] at holds
    by_cases waited : id ∈ calls.executor.line
    · obtain ⟨call, member, rfl, waiting⟩ := follows.waits_of_line waited booked
      have expired : call.1.expires ≤ calls.now := by
        by_contra timely
        exact waits (List.mem_map_of_mem (List.mem_filter.mpr ⟨member, by simpa using timely⟩))
      exact waiting.expire orderly member expired (follows.seated booked)
    · exact (follows.gone id ticket booked waited holds).append
        (blank_expire (not_late_of_absent waited holds))
  case blank =>
    intro id beyond
    obtain ⟨waits, holds⟩ := follows.absent_of_beyond beyond
    exact (follows.blank id beyond).append (blank_expire (not_late_of_absent waits holds))

/-! ## Work -/

theorem begin (follows : Follows capacity book log calls) {call : Running (Progress ρ)}
    (member : call ∈ calls.executor.running) {work : Work ρ} (fresh : call.work = .fresh work) :
    Follows capacity book (log ++ noted calls.now [.began call.request.id])
      { calls with
        executor := calls.executor.continueWith call.request.id
          (.under (work.endFrom calls.now)) } := by
  have orderly := follows.orderly
  have own : call.request.id ∈ calls.executor.holders := List.mem_map_of_mem member
  refine { follows with
    orderly := orderly.continueWith .., waits := ?waits, goes := ?goes, gone := ?gone
    blank := ?blank }
  case waits =>
    intro waiting queued
    obtain ⟨ticket, waits⟩ := follows.waits waiting queued
    have older := orderly.older _ own _ (List.mem_map_of_mem queued)
    exact ⟨ticket, waits.append (blank_began (Nat.ne_of_lt older))⟩
  case goes =>
    intro after granted
    obtain ⟨before, there, rfl⟩ := List.mem_map.mp granted
    obtain ⟨ticket, since, goes⟩ := follows.goes before there
    split
    · rename_i same
      obtain rfl := List.inj_on_of_nodup_map orderly.once there member (beq_iff_eq.mp same)
      exact ⟨ticket, since, goes.begin fresh⟩
    · rename_i differs
      exact ⟨ticket, since, goes.append (blank_began fun same => differs (by simp [same]))⟩
  case gone =>
    intro id ticket booked waits holds
    rw [Executor.holders_continueWith] at holds
    exact (follows.gone id ticket booked waits holds).append
      (blank_began fun same => holds (same ▸ own))
  case blank =>
    intro id beyond
    exact (follows.blank id beyond).append
      (blank_began fun same => (follows.absent_of_beyond beyond).2 (same ▸ own))

/-- A permit that comes back is free by the tickets, too. -/
theorem free_of_finish (follows : Follows capacity book log calls) {call : Running (Progress ρ)}
    (member : call ∈ calls.executor.running) {ending : Ending ρ}
    (under : call.work = .under (some (instant, ending))) (due : instant ≤ calls.now)
    (holds : id ∈ (calls.executor.finish call.request.id ending).holders) :
    busy book id calls.now < capacity := by
  have after : (calls.executor.finish call.request.id ending).Orderly :=
    follows.orderly.conclude ..
  refine busy_lt ?_ holds fun earlier busy => ?_
  · rw [Executor.holders, List.length_map, ← follows.permits]
    exact after.within
  · obtain ⟨before, ticket, booked, holding⟩ := mem_busyOnes.mp busy
    rcases follows.line_or_holders busy with waits | held
    -- An older call that waited has been served before this one.
    · refine (Executor.waiting_conclude waits).resolve_right fun still => ?_
      exact Nat.lt_asymm before (after.older id holds earlier still)
    · refine Executor.holds_conclude held fun same => ?_
      obtain ⟨other, there, since, number, goes⟩ := follows.goes_of_holder held booked
      obtain rfl := List.inj_on_of_nodup_map follows.orderly.once there member (number.trans same)
      have := (Ticket.holds_iff.mp holding).2 _ (goes.ends under)
      exact absurd (Nat.lt_of_le_of_lt due this) (Nat.lt_irrefl _)

theorem finish (follows : Follows capacity book log calls)
    (timely : calls.executor.overdue calls.now = false) {call : Running (Progress ρ)}
    (member : call ∈ calls.executor.running) {ending : Ending ρ}
    (under : call.work = .under (some (instant, ending))) (due : instant ≤ calls.now) :
    Follows capacity book
      (log ++ noted calls.now (.ended call.request.id ::
        replies calls.executor (calls.executor.finish call.request.id ending)))
      { calls with executor := calls.executor.finish call.request.id ending } := by
  have orderly := follows.orderly
  have after : (calls.executor.finish call.request.id ending).Orderly := orderly.conclude ..
  have own : call.request.id ∈ calls.executor.holders := List.mem_map_of_mem member
  have silent {id : Nat} (differs : call.request.id ≠ id) :=
    blank_finish calls.now orderly member ending differs
  have older {waiting : Request × Progress ρ} (queued : waiting ∈ calls.executor.queue) :
      call.request.id ≠ waiting.1.id :=
    Nat.ne_of_lt (orderly.older _ own _ (List.mem_map_of_mem queued))
  have parts : ∃ freed, (calls.executor.finish call.request.id ending).running = _ ∧
      (calls.executor.finish call.request.id ending).queue = calls.executor.queue.drop freed :=
    Executor.conclude_parts ..
  obtain ⟨freed, running, queue⟩ := parts
  refine { follows with
    orderly := after, waits := ?waits, goes := ?goes, gone := ?gone, blank := ?blank }
  case waits =>
    intro waiting queued
    have queued := List.mem_of_mem_drop (queue ▸ queued)
    obtain ⟨ticket, waits⟩ := follows.waits waiting queued
    exact ⟨ticket, waits.append (silent (older queued))⟩
  case goes =>
    intro after granted
    rcases List.mem_append.mp (running ▸ granted) with old | new
    · obtain ⟨there, differs⟩ := List.mem_filter.mp old
      obtain ⟨ticket, since, goes⟩ := follows.goes after there
      exact ⟨ticket, since, goes.append (silent fun same => by simp [same] at differs)⟩
    · obtain ⟨waiting, taken, rfl⟩ := List.mem_map.mp new
      have queued := List.mem_of_mem_take taken
      obtain ⟨ticket, waits⟩ := follows.waits waiting queued
      have free := follows.free_of_finish member under due (List.mem_map_of_mem granted)
      have goes := waits.enters (lt_of_timely_of_queued timely queued) free
        (follows.seated waits.booked)
      exact ⟨ticket, calls.now, goes.append (silent (older queued))⟩
  case gone =>
    intro id ticket booked waits holds
    by_cases itself : call.request.id = id
    · subst itself
      obtain ⟨other, there, since, number, goes⟩ := follows.goes_of_holder own booked
      obtain rfl := List.inj_on_of_nodup_map orderly.once there member number
      exact goes.finish orderly member timely under due
    · refine (follows.gone id ticket booked ?_ ?_).append (silent itself)
      · intro waited
        exact (Executor.waiting_conclude waited).elim holds waits
      · exact fun held => holds (Executor.holds_conclude held (Ne.symm itself))
  case blank =>
    intro id beyond
    exact (follows.blank id beyond).append
      (silent fun same => (follows.absent_of_beyond beyond).2 (same ▸ own))

/-! ## Calls -/

/-- A permit that is free is free by the tickets, too. -/
theorem free_of_call (follows : Follows capacity book log calls)
    (free : calls.executor.running.length < calls.executor.capacity) :
    book.countP (·.holds calls.now) < capacity := by
  have all : busy book calls.executor.issued calls.now = book.countP (·.holds calls.now) := by
    rw [busy, follows.issued, List.take_length]
  rw [← all]
  have alone : calls.executor.line = [] :=
    Decidable.byContradiction fun waits =>
      Nat.ne_of_lt free (follows.orderly.full fun empty => waits (congrArg _ empty))
  have last : calls.executor.issued ∈ calls.executor.holders ++ [calls.executor.issued] :=
    List.mem_append_right _ (List.mem_singleton_self _)
  refine busy_lt ?_ last fun earlier busy => ?_
  · rw [List.length_append, Executor.holders, List.length_map, ← follows.permits]
    exact free
  · have known := follows.line_or_holders busy
    rw [alone] at known
    exact List.mem_append_left _ (known.resolve_left List.not_mem_nil)

theorem call (follows : Follows capacity book log calls) (rest : calls.step? = none)
    {arrival : Arrival ρ} (comes : arrival.instant = calls.now) :
    Follows capacity (issue capacity book arrival) log
      (calls.submit arrival.operation arrival.deadline (.fresh arrival.work)) := by
  have orderly := follows.orderly
  have issued := follows.issued
  have blank : log.Blank calls.executor.issued := follows.blank _ (Nat.le_of_eq issued.symm)
  have inTime : calls.now ≤ arrival.expires := comes ▸ Nat.le_add_right ..
  have booked : (issue capacity book arrival)[calls.executor.issued]? =
      some ⟨arrival, seat capacity book arrival⟩ := by
    rw [issued, issue, List.getElem?_concat_length]
  have request : (⟨calls.executor.issued, arrival.operation, arrival.deadline,
      calls.now + arrival.deadline⟩ : Request) =
        Ticket.request ⟨arrival, seat capacity book arrival⟩ calls.executor.issued := by
    rw [← comes]
    rfl
  have room := Nat.lt_or_eq_of_le orderly.within
  refine ⟨orderly.arrive .., follows.seated.issue arrival, follows.permits, ?issued, ?waits, ?goes,
    ?gone, ?blank⟩
  case issued => simp [issue, submit, Executor.submit, Executor.grantFree, issued]
  case waits =>
    intro waiting queued
    rcases room with free | full
    · rw [submit, orderly.submit_of_free free] at queued
      cases queued
    · rw [submit, Executor.submit_of_full full] at queued
      rcases List.mem_append.mp queued with old | new
      · obtain ⟨ticket, waits⟩ := follows.waits waiting old
        exact ⟨ticket, waits.extend _⟩
      · rw [List.mem_singleton.mp new]
        refine ⟨_, booked, request, rfl, Nat.le_of_eq comes, inTime, ?_, blank⟩
        intro instant since before
        obtain rfl : calls.now = instant := by
          simp only [comes, submit] at since before
          omega
        rw [issue, busy_append _ (Nat.le_of_eq issued)]
        exact follows.le_busy rest (Nat.le_refl _) (fun due planned => planned.later rest) full
          fun holder => orderly.lt_issued_of_holder
  case goes =>
    intro going granted
    rcases room with free | full
    · rw [submit, orderly.submit_of_free free] at granted
      rcases List.mem_append.mp granted with old | new
      · obtain ⟨ticket, since, goes⟩ := follows.goes going old
        exact ⟨ticket, since, goes.extend _⟩
      · rw [List.mem_singleton.mp new]
        have granted : seat capacity book arrival = some calls.now := by
          rw [← comes]
          exact seat_of_free (comes ▸ follows.free_of_call free)
        exact ⟨_, calls.now, goes_admitted (_, _) booked request rfl granted inTime blank⟩
    · rw [submit, Executor.submit_of_full full] at granted
      obtain ⟨ticket, since, goes⟩ := follows.goes going granted
      exact ⟨ticket, since, goes.extend _⟩
  case gone =>
    intro id ticket found waits holds
    have absent : id ∉ calls.executor.line ++ [calls.executor.issued] :=
      fun waited => (Executor.waiting_submit waited).elim holds waits
    have old : id < book.length := by
      obtain ⟨bound, _⟩ := List.getElem?_eq_some_iff.mp found
      have last : id ≠ calls.executor.issued :=
        fun same => absent (List.mem_append_right _ (List.mem_singleton.mpr same))
      rw [issue, List.length_append, List.length_singleton] at bound
      omega
    rw [issue, List.getElem?_append_left old] at found
    exact follows.gone id ticket found (fun waited => absent (List.mem_append_left _ waited))
      fun held => holds (by rw [submit, Executor.holders_submit]; exact List.mem_append_left _ held)
  case blank =>
    intro id beyond
    rw [issue, List.length_append] at beyond
    exact follows.blank id (Nat.le_of_add_right_le beyond)

/-! ## Runs -/

theorem start : Follows capacity [] [] (start capacity : Calls ρ) where
  orderly := .start capacity
  seated := fun _ _ booked => (by cases booked)
  permits := rfl
  issued := rfl
  waits := fun _ member => (by cases member)
  goes := fun _ member => (by cases member)
  gone := fun _ _ booked => (by cases booked)
  blank := fun _ _ => ⟨rfl, rfl, rfl⟩

theorem turn {happenings : List (Happening ρ)} (follows : Follows capacity book log calls)
    (turn : Turn calls happenings next) :
    Follows capacity book (log ++ noted calls.now happenings) next := by
  cases turn with
  | deadlines => exact follows.deadlines
  | begin _ member fresh => exact follows.begin member fresh
  | finish timely member under due => exact follows.finish timely member under due

end Follows

theorem Run.follows {arrivals : List (Arrival ρ)} (run : Run capacity arrivals log calls) :
    Follows capacity (tickets capacity arrivals) log calls := by
  induction run with
  | start => exact .start
  | call _ rest comes ih => rw [tickets_concat]; exact ih.call rest comes
  | turn _ turn ih => exact ih.turn turn
  | pass _ rest passed clock ih => exact ih.pass rest passed clock

end ServiceHost.Calls
