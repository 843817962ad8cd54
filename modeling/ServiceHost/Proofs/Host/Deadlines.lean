import ServiceHost.Proofs.Host.Answers

/-! How long an operation can take.

An operation makes a bounded number of calls, one after the other, and none of them is waited for
beyond its deadline.
-/

set_option autoImplicit false

namespace ServiceHost

/-- How many calls there may be until an operation returns that waits at a stage. -/
def Stage.calls : Stage → Nat
  | wrapping _ _ config => if config.isSome then 2 else 1
  | starting _ | calling .. => 1
  | judging _ _ rest _ => 2 * rest.length + 2
  | stopping _ _ rest _ => 2 * rest.length + 1

/-- How many calls an operation may make. -/
def Operation.calls (host : Host) : Operation → Nat
  | shutdown => 2 * host.ids.length
  | _ => 2

/-- The call that is made with a halt, under the next number. -/
def Halt.inquiry? (now number : Nat) : Halt → Option Inquiry
  | ended _ => none
  | waits service stage => some ⟨now, number, service, stage.query⟩

variable {host after : Host} {service : ServiceId} {stage waiting : Stage}

theorem Stage.calls_pos (stage : Stage) : 0 < stage.calls := by
  cases stage with
  | wrapping _ _ config => cases config <;> simp [calls]
  | starting | calling | judging | stopping => simp [calls]

theorem Sweep.calls_le {result : Answer} {ids : List String}
    (sweep : Sweep result ids host (.waits service stage) after) :
    stage.calls ≤ 2 * ids.length := by
  generalize equation : Halt.waits service stage = halt at sweep
  induction sweep with
  | ended => cases equation
  | absent _ _ ih | killed _ _ _ ih =>
    have fewer := ih equation
    rw [List.length_cons]
    omega
  | asks =>
    cases equation
    simp only [Stage.calls, List.length_cons]
    omega

theorem Operation.Section.calls_le {operation : Operation}
    (part : operation.Section host (.waits service stage) after) :
    stage.calls ≤ operation.calls host := by
  cases part with
  | @made _ _ _ _ config enters =>
    have two : operation.calls host = 2 := by
      cases operation with
      | shutdown => cases enters
      | _ => rfl
    rw [two]
    cases config <;> simp [Stage.calls]
  | removes _ sweep => exact sweep.calls_le
  | shuts sweep => exact sweep.calls_le
  | calls => simp [Stage.calls, Operation.calls]

/-- With every call that is answered, fewer are left. -/
theorem Stage.Section.calls_lt {answer : CallAnswer}
    (part : stage.Section host answer (.waits service waiting) after) :
    waiting.calls < stage.calls := by
  cases part with
  | starts => simp [Stage.calls]
  | stops => simp [Stage.calls]
  | judged _ sweep | outrun _ _ sweep | stopped sweep =>
    refine Nat.lt_of_le_of_lt sweep.calls_le ?_
    simp only [Stage.calls]
    omega

/-- A service that is held was made. -/
theorem Host.Owned.lt_of_held {stages : Nat → Option Stage} (owned : host.Owned stages)
    (held : (∃ place, (stages place).bind Stage.wraps? = some service) ∨
      ∃ server, host.serviceOf server = some service) : service < host.services.length := by
  rcases held with ⟨place, wraps⟩ | ⟨server, held⟩
  · exact owned.bound service (.procedure place) wraps
  · exact owned.bound service (.server server) held

namespace System

variable {before after last middle : System Answer} {stages later : Nat → Option Stage}
  {event : Event} {moments past : List Moment} {moment : Moment} {place call : Nat}

/-! ## No call is waited for beyond its deadline -/

theorem deadline?_le {executor : Executor Body (Except ServiceError Reply)}
    (waits : call ∈ executor.pending) :
    ∃ entry ∈ executor.hand, entry.1.id = call ∧
      ∃ deadline, executor.deadline? = some deadline ∧ deadline ≤ entry.1.expires := by
  rcases Executor.mem_pending.mp waits with ⟨holder, running, awaited, rfl⟩ | ⟨waiting, queued, rfl⟩
  · refine ⟨_, Executor.mem_hand_of_running running, rfl, earlier_le (.inr (earliest_le ?_))⟩
    exact List.mem_map.mpr ⟨holder, running, if_pos awaited⟩
  · refine ⟨_, Executor.mem_hand_of_queue queued, rfl, earlier_le (.inl (earliest_le ?_))⟩
    exact List.mem_map.mpr ⟨waiting, queued, rfl⟩

/-- Whoever is owed an answer is owed it by its deadline. -/
def Early (moments : List Moment) (system : System Answer) : Prop :=
  Timely moments → ∀ inquiry ∈ asked moments, system.executor.Owes inquiry.number →
    system.now ≤ inquiry.deadline

theorem Turn.owes_cases (turn : before.Turn event after) (orderly : before.executor.Orderly)
    (owes : after.executor.Owes call) :
    before.executor.Owes call ∨ call = before.executor.issued := by
  have fewer : ∀ {answers : List (Nat × Except CallError (Except ServiceError Reply))},
      answers.Sublist before.executor.answers →
      Executor.Owes { before.executor with answers } call → before.executor.Owes call :=
    fun taken => Or.imp_right fun ⟨told, member⟩ => ⟨told, taken.subset member⟩
  cases turn with
  | rests _ taken same => exact .inl (fewer taken (same ▸ owes))
  | asks _ _ _ _ taken same =>
    exact (Executor.owes_submit.mp (same ▸ owes)).imp_left (fewer taken)
  | @serves _ _ served _ _ phase there _ _ same =>
    rw [same] at owes
    exact .inl ((owes_moved orderly (List.mem_of_getElem? there) phase).mp owes)
  | expires same => exact .inl (Executor.owes_expire.mp (same ▸ owes))
  | waits _ same => exact .inl (same ▸ owes)

/-- A call takes no time to be made. -/
theorem Turn.now_of_asked (turn : before.Turn event after) (entered : Entered past before)
    {inquiry : Inquiry} (made : (⟨before, event, after⟩ : Moment).asked? = some inquiry) :
    after.now = before.now := by
  cases turn with
  | rests _ _ _ now | asks _ _ _ _ _ _ now | serves _ _ _ _ now | expires _ now => exact now
  | @waits instant _ _ same =>
    have none : (⟨before, .wait instant, after⟩ : Moment).asked? = none :=
      entered.asked?_eq_none fun call member => ⟨call.2, by rw [same] at member; exact member⟩
    cases none.symm.trans made

namespace Early

theorem start (host : Host) (capacity : Nat) : Early [] (.start host capacity) :=
  fun _ _ member => by cases member

/-- Time passes no further than to the deadline of a call that somebody waits for. -/
theorem of_wait {instant : Nat} (accounts : Accounts moments before)
    (keeps : before.keepsTime (.wait instant) = true) {inquiry : Inquiry}
    (stands : inquiry ∈ asked moments) (owed : before.executor.Owes inquiry.number) :
    instant ≤ inquiry.deadline := by
  simp only [keepsTime, System.rests, Bool.and_eq_true, List.all_eq_true] at keeps
  obtain ⟨⟨_, silent, _⟩, bounded⟩ := keeps
  have waits : inquiry.number ∈ before.executor.pending := by
    apply owed.resolve_right
    rintro ⟨told, answered⟩
    obtain ⟨place, waits⟩ := (accounts.posted.owed _).mp owed
    obtain ⟨next, there⟩ := call?_eq_some.mp waits
    have none_told := silent _ (List.mem_of_getElem? there)
    simp only [Executor.answer?, Option.isNone_iff_eq_none, List.lookup_eq_none_iff] at none_told
    simpa using none_told _ answered
  obtain ⟨entry, member, same, deadline, found, bound⟩ := deadline?_le waits
  obtain ⟨own, there, heads, _⟩ := accounts.entered.hand entry member
  have mine : own = inquiry :=
    accounts.entered.eq_of_number there stands (by rw [← same, heads]; rfl)
  rw [found, Option.all_some, decide_eq_true_eq] at bounded
  rw [heads] at bound
  exact mine ▸ Nat.le_trans bounded bound

theorem turn (early : Early moments before) (accounts : Accounts moments before)
    (turn : before.Turn event after) : Early (moments ++ [⟨before, event, after⟩]) after := by
  intro timely inquiry stands owes
  obtain ⟨past, keeps⟩ := timely.of_append
  rw [asked_append, List.mem_append] at stands
  rcases turn.owes_cases accounts.entered.orderly owes with owed | new
  · have known : inquiry ∈ asked moments := by
      refine stands.resolve_right fun made => ?_
      have bound := owed.lt_issued accounts.entered.orderly.numbered
      rw [Moment.number_of_asked? (Option.mem_toList.mp made)] at bound
      exact Nat.lt_irrefl _ bound
    cases turn with
    | rests _ _ _ now | asks _ _ _ _ _ _ now | serves _ _ _ _ now | expires _ now =>
      exact now ▸ early past inquiry known owed
    | waits _ _ now => exact now ▸ of_wait accounts keeps known owed
  -- A call that is made has all its time before it.
  · rcases stands with old | made
    · exact absurd (accounts.entered.number_lt old) (new ▸ Nat.lt_irrefl _)
    · have made := Option.mem_toList.mp made
      rw [turn.now_of_asked accounts.entered made, Inquiry.deadline,
        Moment.instant_of_asked? made]
      exact Nat.le_add_right ..

end Early

/-! ## No operation takes longer than its calls -/

/-- The instant by which the operation returns that was launched. -/
def Moment.term? (moment : Moment) : Option Nat :=
  match moment.event with
  | .launch operation =>
    some (moment.before.now + operation.calls moment.before.host * callDeadline)
  | _ => none

/-- The terms of the operations, by their places. -/
def terms (moments : List Moment) : List Nat := moments.filterMap Moment.term?

theorem terms_append (past : List Moment) (moment : Moment) :
    terms (past ++ [moment]) = terms past ++ moment.term?.toList := by
  cases due : moment.term? <;> simp [terms, due]

theorem terms_append_of_ne (launches : ∀ operation, event ≠ .launch operation) :
    terms (past ++ [⟨before, event, after⟩]) = terms past := by
  have none : (⟨before, event, after⟩ : Moment).term? = none := by
    cases event with
    | launch operation => exact absurd rfl (launches operation)
    | _ => rfl
  rw [terms_append, none, Option.toList_none, List.append_nil]

theorem getElem?_terms_append {term : Nat} (there : (terms past)[place]? = some term) :
    (terms (past ++ [moment]))[place]? = some term := by
  rw [terms_append, List.getElem?_append_left (List.getElem?_eq_some_iff.mp there).1, there]

theorem Entered.asked?_arrived (entered : Entered moments before) (system : System Answer)
    (answers : List (Nat × Except CallError (Except ServiceError Reply))) (host : Host) (halt : Halt)
    (forgets : system = { before with executor := { before.executor with answers } })
    (same : after.executor = (system.arrived host halt).executor) :
    (⟨before, event, after⟩ : Moment).asked? =
      halt.inquiry? before.now before.executor.issued := by
  subst forgets
  cases halt with
  | ended =>
    exact entered.asked?_eq_none fun call member => ⟨call.2, by rw [same] at member; exact member⟩
  | waits service stage => exact entered.asked?_of_submit same

theorem Entered.asked?_launched (entered : Entered moments before) (operation : Operation)
    (host : Host) (halt : Halt) :
    (⟨before, .launch operation, before.launched host halt⟩ : Moment).asked? =
      halt.inquiry? before.now before.executor.issued :=
  entered.asked?_arrived before before.executor.answers host halt rfl rfl

theorem Entered.asked?_resumed (entered : Entered moments before) (place number : Nat)
    (host : Host) (halt : Halt) :
    (⟨before, .resume place, before.resumed place number host halt⟩ : Moment).asked? =
      halt.inquiry? before.now before.executor.issued :=
  entered.asked?_arrived (before.answered number) (before.executor.forget number).answers host halt
    rfl rfl

theorem Entered.asked?_of_idle (entered : Entered moments before)
    (step : before.Step stages event after later) (launches : ∀ operation, event ≠ .launch operation)
    (resumes : ∀ place, event ≠ .resume place) :
    (⟨before, event, after⟩ : Moment).asked? = none := by
  have old : ∀ call ∈ before.executor.hand, ∃ body, (call.1, body) ∈ before.executor.hand :=
    fun call member => ⟨call.2, member⟩
  cases step with
  | launch => exact absurd rfl (launches _)
  | resume => exact absurd rfl (resumes _)
  | @serve _ call _ _ phase there =>
    refine entered.asked?_eq_none fun entry member => ?_
    rcases Turn.mem_hand_moved entered.orderly (List.mem_of_getElem? there) member with
      ⟨old, _⟩ | ⟨rfl, _⟩
    · exact ⟨entry.2, old⟩
    · exact ⟨call.work, Executor.mem_hand_of_running (List.mem_of_getElem? there)⟩
  | expire => exact entered.asked?_eq_none fun call member => ⟨call.2, Executor.mem_hand_of_expire member⟩
  | stir | take | drop | wait => exact entered.asked?_eq_none old

/-- Every procedure that waits has made the call of its stage, in time for those that may follow. -/
structure Seated (moments : List Moment) (system : System Answer)
    (stages : Nat → Option Stage) : Prop where
  seats : ∀ place stage call, stages place = some stage → system.call? place = some call →
    ∃ inquiry ∈ asked moments, inquiry.number = call ∧ inquiry.query = stage.query ∧
      (Timely moments → ∃ term, (terms moments)[place]? = some term ∧
        inquiry.instant + stage.calls * callDeadline ≤ term)
  known : ∀ inquiry ∈ asked moments, inquiry.service < system.host.services.length
  terms : (terms moments).length = system.procedures.length

namespace Seated

theorem start (host : Host) (capacity : Nat) :
    Seated [] (.start host capacity) fun _ => none where
  seats _ _ _ stands := by cases stands
  known _ member := by cases member
  terms := rfl

/-- A procedure that has given up control sits at its stage. -/
theorem put (seated : Seated moments before stages) {place : Nat} {halt : Halt}
    (made : (⟨before, event, after⟩ : Moment).asked? =
      halt.inquiry? before.now before.executor.issued)
    (here : after.call? place = halt.stage?.map fun _ => before.executor.issued)
    (others : ∀ other, other ≠ place → after.call? other = before.call? other)
    (grows : before.host.services.length ≤ after.host.services.length)
    (bound : ∀ service stage, halt = .waits service stage →
      service < after.host.services.length)
    (due : ∀ service stage, halt = .waits service stage →
      Timely (moments ++ [⟨before, event, after⟩]) → ∃ term,
        (System.terms (moments ++ [⟨before, event, after⟩]))[place]? = some term ∧
          before.now + stage.calls * callDeadline ≤ term)
    (terms : (System.terms (moments ++ [⟨before, event, after⟩])).length =
      after.procedures.length) :
    Seated (moments ++ [⟨before, event, after⟩]) after (Stage.put stages place halt.stage?) where
  seats other stage call stands waits := by
    by_cases same : other = place
    · subst same
      rw [Stage.put_self] at stands
      cases halt with
      | ended => cases stands
      | waits service own =>
        cases stands
        cases here.symm.trans waits
        refine ⟨⟨before.now, before.executor.issued, service, stage.query⟩, ?_, rfl, rfl,
          due service stage rfl⟩
        rw [asked_append, made]
        exact List.mem_append_right _ List.mem_cons_self
    · rw [Stage.put_of_ne same] at stands
      rw [others other same] at waits
      obtain ⟨inquiry, there, number, asks, ready⟩ := seated.seats other stage call stands waits
      refine ⟨inquiry, Worked.asked_subset there, number, asks, fun timely => ?_⟩
      obtain ⟨term, found, long⟩ := ready timely.of_append.1
      exact ⟨term, getElem?_terms_append found, long⟩
  known inquiry member := by
    rw [asked_append, List.mem_append, made] at member
    rcases member with old | new
    · exact Nat.lt_of_lt_of_le (seated.known inquiry old) grows
    · cases halt with
      | ended => cases new
      | waits service stage =>
        cases List.mem_singleton.mp new
        exact bound service stage rfl
  terms := terms

/-- While no procedure goes on, each sits where it sat. -/
theorem idles (seated : Seated moments before stages)
    (made : (⟨before, event, after⟩ : Moment).asked? = none)
    (launches : ∀ operation, event ≠ .launch operation)
    (calls : ∀ place, after.call? place = before.call? place)
    (procedures : after.procedures.length = before.procedures.length)
    (grows : before.host.services.length ≤ after.host.services.length) :
    Seated (moments ++ [⟨before, event, after⟩]) after stages := by
  have asked : asked (moments ++ [⟨before, event, after⟩]) = asked moments := by
    rw [asked_append, made, Option.toList_none, List.append_nil]
  have terms : System.terms (moments ++ [⟨before, event, after⟩]) = System.terms moments :=
    terms_append_of_ne launches
  refine ⟨fun place stage call stands waits => ?_, fun inquiry member => ?_, ?_⟩
  · rw [calls] at waits
    obtain ⟨inquiry, there, number, asks, ready⟩ := seated.seats place stage call stands waits
    exact ⟨inquiry, asked ▸ there, number, asks, fun timely => terms ▸ ready timely.of_append.1⟩
  · exact Nat.lt_of_lt_of_le (seated.known inquiry (asked ▸ member)) grows
  · rw [terms, procedures, seated.terms]

theorem step (seated : Seated moments before stages) (accounts : Accounts moments before)
    (early : Early moments before) (owned : after.host.Owned later)
    (step : before.Step stages event after later) :
    Seated (moments ++ [⟨before, event, after⟩]) after later := by
  have grows := step.services_le
  have idle := accounts.entered.asked?_of_idle step
  cases step with
  | @launch operation halt host part =>
    refine seated.put (accounts.entered.asked?_launched operation host halt)
      (call?_of_progression before (List.getElem?_concat_length ..))
      (fun other apart => call?_of_append apart rfl) grows ?_ ?_ ?_
    · rintro service own rfl
      refine owned.lt_of_held (part.calls_held.imp ?_ ?_)
      · exact fun wraps => ⟨before.procedures.length, by simpa [Halt.stage?] using wraps⟩
      · exact fun held => by simpa using held
    · rintro service own rfl -
      refine ⟨before.now + operation.calls before.host * callDeadline, ?_, ?_⟩
      · rw [terms_append, ← seated.terms]
        exact List.getElem?_concat_length ..
      · exact Nat.add_le_add_left (Nat.mul_le_mul_right _ part.calls_le) _
    · rw [terms_append, List.length_append, List.length_append, seated.terms]
      rfl
  | @resume place number stage answer halt host stands waits told part =>
    have bound := (List.getElem?_eq_some_iff.mp waits).1
    refine seated.put (accounts.entered.asked?_resumed place number host halt)
      (call?_of_progression (before.answered number) (List.getElem?_set_self bound))
      (fun other apart => call?_of_set apart rfl) grows ?_ ?_ ?_
    · rintro service own rfl
      exact owned.lt_of_held (.inr (by simpa using part.calls_held))
    -- The answer came in time, so what was left for the later calls is left still.
    · rintro service own rfl timely
      obtain ⟨inquiry, there, rfl, _, ready⟩ :=
        seated.seats place stage number stands (call?_of_waiting waits)
      obtain ⟨term, found, long⟩ := ready timely.of_append.1
      have soon := early timely.of_append.1 inquiry there (.inr ⟨answer, mem_of_answer? told⟩)
      have fewer := Nat.mul_le_mul_right callDeadline part.calls_lt
      rw [Nat.succ_mul] at fewer
      rw [Inquiry.deadline] at soon
      exact ⟨term, getElem?_terms_append found, by omega⟩
    · rw [terms_append_of_ne (by simp), List.length_set, seated.terms]
  | serve | expire | drop | wait =>
    exact seated.idles (idle (by simp) (by simp)) (by simp) (fun _ => rfl) rfl grows
  | stir stirs => 
    exact seated.idles (idle (by rintro _ rfl; cases stirs) (by rintro _ rfl; cases stirs))
      (by rintro _ rfl; cases stirs) (fun _ => rfl) rfl grows
  | @take place name yield yielded =>
    exact seated.idles (idle (by simp) (by simp)) (by simp) (call?_take yielded)
      (List.length_set ..) grows

end Seated

/-! ## The books, with the procedures that they are about -/

structure Books (moments : List Moment) (system : System Answer) (stages : Nat → Option Stage) : Prop
    extends Accounts moments system where
  tracks : system.Tracks stages
  owned : system.host.Owned stages
  early : Early moments system
  seated : Seated moments system stages

namespace Books

theorem start {host : Host} (unused : host.Unused) (capacity : Nat) :
    Books [] (.start host capacity) fun _ => none where
  toAccounts := .start host capacity
  tracks := .start host capacity
  owned := (Trail.sound unused .start).2
  early := .start host capacity
  seated := .start host capacity

theorem step (books : Books moments before stages) (step : before.Step stages event after later) :
    Books (moments ++ [⟨before, event, after⟩]) after later where
  toAccounts := books.toAccounts.step step
  tracks := books.tracks.step step
  owned := step.owned books.owned
  early := books.early.turn books.toAccounts step.turn
  seated := books.seated.step books.toAccounts books.early (step.owned books.owned) step

/-- The books are kept on, together with whatever else every step keeps. -/
theorem onward (books : Books past middle stages) (history : History middle moments last)
    (Holds : List Moment → System Answer → (Nat → Option Stage) → Prop)
    (holds : Holds [] middle stages)
    (keeps : ∀ {done : List Moment} {before after : System Answer} {event : Event}
      {stages later : Nat → Option Stage}, History middle done before →
      before.after? event = some after → Books (past ++ done) before stages →
      before.Step stages event after later → Holds done before stages →
      Holds (done ++ [⟨before, event, after⟩]) after later) :
    ∃ later, Books (past ++ moments) last later ∧ Holds moments last later := by
  obtain ⟨later, _, both⟩ := history.induct
    (fun done system stages => Books (past ++ done) system stages ∧ Holds done system stages)
    books.tracks ⟨by rwa [List.append_nil], holds⟩
    fun history done _ step both =>
      ⟨by rw [← List.append_assoc]; exact both.1.step step, keeps history done both.1 step both.2⟩
  exact ⟨later, both⟩

/-- While a procedure waits, its term has not passed. -/
theorem now_le_term (books : Books moments last stages) (timely : Timely moments)
    (waits : last.call? place = some call) :
    ∃ term, (terms moments)[place]? = some term ∧ last.now ≤ term := by
  obtain ⟨next, there⟩ := call?_eq_some.mp waits
  obtain ⟨stage, stands, rfl⟩ := books.tracks.stage place call next there
  obtain ⟨inquiry, asked, rfl, _, ready⟩ := books.seated.seats place stage call stands waits
  obtain ⟨term, found, long⟩ := ready timely
  have soon := books.early timely inquiry asked ((books.posted.owed _).mpr ⟨place, waits⟩)
  have one := Nat.mul_le_mul_right callDeadline stage.calls_pos
  rw [Inquiry.deadline] at soon
  exact ⟨term, found, by omega⟩

end Books

theorem History.books {host : Host} {capacity : Nat} (unused : host.Unused)
    (history : History (.start host capacity) moments last) : ∃ stages, Books moments last stages := by
  obtain ⟨stages, books, _⟩ := (Books.start unused capacity).onward history (fun _ _ _ => True)
    trivial fun _ _ _ _ _ => trivial
  exact ⟨stages, books⟩

end System
end ServiceHost
