import ServiceHost.Proofs.Host.Solo

/-! Runs of an operation in which every call finds a permit free.

Then no call stands in line, and the work of each one has begun by the time its caller hears of it.
So the services do what the operation asks of them, once, and in its order.
-/

set_option autoImplicit false

namespace ServiceHost.System

variable {before after last system : System Answer} {stages later : Nat → Option Stage}
  {event : Event} {moments past run : List Moment} {operation : Operation} {place number : Nat}
  {executor : Executor Body (Except ServiceError Reply)} {entry : Request × Body}

/-- What a call in hand is about. -/
def handed (entry : Request × Body) : ServiceId × Query := (entry.2.service, entry.2.query)

/-- A call that goes on is no longer among those that have not begun. -/
theorem unbegun_moved (line : executor.queue = []) (call : Running Body) {phase : Phase}
    (cold : phase.isFresh = false) : unbegun (moved executor call phase) =
      (unbegun executor).filter fun entry => entry.1.id ≠ call.request.id := by
  cases told : phase.ending? with
  | some ending =>
    rw [Phase.ending?_eq_some.mp told, moved_of_ended, unbegun, unbegun, Executor.hand_conclude,
      Executor.hand, line, List.append_nil, List.append_nil]
    simp only [List.filter_map, List.filter_filter, Function.comp_def]
    congr 2
    funext other
    by_cases same : other.request.id = call.request.id <;> simp [same]
  | none =>
    rw [moved_of_going _ _ told, unbegun, unbegun, Executor.hand, Executor.hand]
    simp only [Executor.continueWith, line, List.append_nil]
    induction executor.running with
    | nil => rfl
    | cons first rest ih =>
      by_cases same : first.request.id = call.request.id
      · cases fresh : first.work.phase.isFresh <;> simpa [same, cold, fresh] using ih
      · cases fresh : first.work.phase.isFresh <;> simpa [same, fresh] using ih

theorem queue_moved (line : executor.queue = []) (call : Running Body) (phase : Phase) :
    (moved executor call phase).queue = [] := by
  cases told : phase.ending? with
  | some ending =>
    rw [Phase.ending?_eq_some.mp told, moved_of_ended]
    refine List.eq_nil_iff_forall_not_mem.mpr fun entry member => ?_
    have queued := Executor.queue_conclude member
    rw [line] at queued
    cases queued
  | none =>
    rw [moved_of_going _ _ told]
    exact line

theorem unbegun_expire (line : executor.queue = []) (now : Nat) :
    unbegun (executor.expire now) = unbegun executor := by
  simp [unbegun, Executor.hand, Executor.expire, line, Function.comp_def]

theorem unbegun_submit (now : Nat) (operation : String) (deadline : Nat) (service : ServiceId)
    (query : Query) :
    (unbegun (executor.submit now operation deadline ⟨service, query, .fresh⟩)).map handed =
      (unbegun executor).map handed ++ [(service, query)] := by
  simp [unbegun, Executor.hand_submit, List.filter_append, Phase.isFresh, handed]

/-- Whoever has asked for a call that has not begun still waits for it. -/
theorem Books.waits_of_unbegun (books : Books moments last stages) (timely : Timely moments)
    (member : entry ∈ unbegun last.executor) :
    (∃ place, last.call? place = some entry.1.id) ∧ last.executor.answer? entry.1.id = none := by
  obtain ⟨held, fresh⟩ := List.mem_filter.mp member
  have pending : entry.1.id ∈ last.executor.pending := by
    refine Executor.mem_pending.mpr ?_
    rcases Executor.mem_hand.mp held with ⟨call, running, rfl⟩ | queued
    · cases awaited : call.awaited with
      | true => exact .inl ⟨call, running, awaited, rfl⟩
      | false =>
        have cold := books.begun_of_detached timely running awaited
        cases fresh.symm.trans cold
    · exact .inr ⟨entry, queued, rfl⟩
  refine ⟨(books.posted.owed _).mp (.inl pending), ?_⟩
  refine Option.eq_none_iff_forall_ne_some.mpr fun answer told => ?_
  exact books.posted.apart _ (mem_of_answer? told) pending

theorem isSome_inquiry? (halt : Halt) (now number : Nat) :
    (halt.inquiry? now number).isSome = halt.stage?.isSome := by
  cases halt <;> rfl

/-- Every call of a run finds a permit free. -/
def Free (run : List Moment) : Prop :=
  ∀ moment ∈ run, moment.asked?.isSome = true →
    moment.before.executor.inFlight < moment.before.executor.capacity

/-- Nobody stands in line, and the calls of a run have begun in their order, but for one that has
just been made. -/
structure Served (run : List Moment) (system : System Answer) : Prop where
  line : system.executor.queue = []
  begins : (asked run).map Inquiry.about =
    (begun run).map Inquiry.about ++ (unbegun system.executor).map handed

namespace Served

theorem start (quiet : ∀ place, before.call? place = none) (books : Books past before stages)
    (timely : Timely past) : before.executor.queue = [] ∧ unbegun before.executor = [] := by
  refine ⟨(books.idle quiet).1, List.eq_nil_iff_forall_not_mem.mpr fun entry member => ?_⟩
  obtain ⟨⟨place, waits⟩, _⟩ := books.waits_of_unbegun timely member
  cases (quiet place).symm.trans waits

/-- A procedure makes its next call when all others have begun. -/
theorem arrive {answers : List (Nat × Except CallError (Except ServiceError Reply))} {host : Host}
    {halt : Halt} (line : before.executor.queue = [])
    (begins : (asked run).map Inquiry.about = (begun run).map Inquiry.about)
    (begun : unbegun before.executor = [])
    (free : halt.stage?.isSome = true → before.executor.inFlight < before.executor.capacity)
    (same : after.executor = (System.arrived
      { before with executor := { before.executor with answers } } host halt).executor)
    (made : (⟨before, event, after⟩ : Moment).asked? =
      halt.inquiry? before.now before.executor.issued)
    (silent : (⟨before, event, after⟩ : Moment).begun? = none) :
    Served (run ++ [⟨before, event, after⟩]) after := by
  constructor
  case line =>
    rw [same]
    cases halt with
    | ended => exact line
    | waits service stage =>
      have permit : before.executor.running.length < before.executor.capacity := free rfl
      simp [arrived, Executor.submit, Executor.grantFree, Executor.grant, line, permit]
  case begins =>
    rw [asked_append, begun_append, made, silent, Option.toList_none, List.append_nil,
      List.map_append, begins, Spoken.about_of_inquiry?, same]
    cases halt with
    | ended => simp [arrived, Halt.about?, show unbegun { before.executor with answers } = [] from begun]
    | waits service stage =>
      simp only [arrived]
      rw [unbegun_submit, show unbegun { before.executor with answers } = [] from begun]
      rfl

/-- Between two calls of the procedure, the one that was made begins. -/
theorem idle (served : Served run before) (entered : Entered moments before)
    (turn : before.Turn event after) (asked : (⟨before, event, after⟩ : Moment).asked? = none)
    (few : (unbegun before.executor).length ≤ 1) :
    Served (run ++ [⟨before, event, after⟩]) after := by
  have keeps : (⟨before, event, after⟩ : Moment).begun? = none → after.executor.queue = [] →
      unbegun after.executor = unbegun before.executor →
      Served (run ++ [⟨before, event, after⟩]) after := by
    intro silent line same
    refine ⟨line, ?_⟩
    rw [asked_append, begun_append, asked, silent, same]
    simpa using served.begins
  cases turn with
  | rests other _ same =>
    refine keeps ?_ (same ▸ served.line) (by rw [same]; rfl)
    rw [Moment.begun?, Turn.served?_of_ne other]
    rfl
  | asks service query _ _ _ same =>
    rw [entered.asked?_of_submit same] at asked
    cases asked
  | expires same =>
    refine keeps rfl ?_ (by rw [same, unbegun_expire served.line])
    rw [same]
    simp [Executor.expire, served.line]
  | waits _ same => exact keeps rfl (same ▸ served.line) (by rw [same])
  | @serves place _ call _ _ phase there found goes same =>
    have cold := Service.not_fresh goes
    have mine := Executor.mem_hand_of_running (List.mem_of_getElem? there)
    have line := same ▸ queue_moved served.line call phase
    cases fresh : call.work.phase.isFresh with
    | false =>
      refine keeps (by simp [Moment.begun?_of_serve there, fresh]) line ?_
      rw [same, unbegun_moved served.line call cold]
      refine List.filter_eq_self.mpr fun entry member => ?_
      obtain ⟨held, unbegun⟩ := List.mem_filter.mp member
      simp only [ne_eq, decide_not, Bool.not_eq_eq_eq_not, Bool.not_true, decide_eq_false_iff_not]
      intro number
      obtain rfl := entered.orderly.eq_of_number held mine number
      cases fresh.symm.trans unbegun
    | true =>
      obtain ⟨first, only⟩ : ∃ first, unbegun before.executor = [first] :=
        List.length_eq_one_iff.mp (Nat.le_antisymm few
          (List.length_pos_of_mem (List.mem_filter.mpr ⟨mine, fresh⟩)))
      have own : (call.request, call.work) ∈ [first] :=
        only ▸ List.mem_filter.mpr ⟨mine, fresh⟩
      obtain rfl := List.mem_singleton.mp own
      refine ⟨line, ?_⟩
      rw [asked_append, begun_append, asked, Moment.begun?_of_serve there, fresh, if_pos rfl, same,
        unbegun_moved served.line call cold, only]
      simpa [only, handed, Inquiry.about] using served.begins

end Served

theorem Free.of_append {moment : Moment} (free : Free (run ++ [moment])) : Free run :=
  fun earlier member => free earlier (List.mem_append_left _ member)

/-- In the run of one operation, no call but its own has yet to begin. -/
theorem Books.own_unbegun {stage? : Option Stage}
    (books : Books moments last (Stage.alone place stage?)) (timely : Timely moments)
    (member : entry ∈ unbegun last.executor) :
    last.call? place = some entry.1.id ∧ last.executor.answer? entry.1.id = none := by
  obtain ⟨⟨other, waits⟩, untold⟩ := books.waits_of_unbegun timely member
  obtain ⟨next, there⟩ := call?_eq_some.mp waits
  obtain ⟨stage, stands, _⟩ := books.tracks.stage other _ next there
  exact ⟨Stage.eq_of_alone stands ▸ waits, untold⟩

theorem Books.length_unbegun_le {stage? : Option Stage}
    (books : Books moments last (Stage.alone place stage?)) (timely : Timely moments) :
    (unbegun last.executor).length ≤ 1 := by
  have once : ((unbegun last.executor).map (·.1.id)).Nodup :=
    books.entered.orderly.numbers_nodup.sublist (List.filter_sublist.map _)
  have same : ∀ entry ∈ unbegun last.executor, ∀ other ∈ unbegun last.executor,
      entry.1.id = other.1.id := fun entry member other there =>
    Option.some.inj ((books.own_unbegun timely member).1.symm.trans
      (books.own_unbegun timely there).1)
  match unbegun last.executor, once, same with
  | [], _, _ | [_], _, _ => simp
  | first :: second :: _, once, same =>
    have twice := same first (by simp) second (by simp)
    simp [twice] at once

/-- As long as every call finds a permit free, the calls of an operation begin in their order. -/
theorem Solo.served (solo : Solo operation before run last) (books : Books past before fun _ => none)
    (quiet : ∀ place, before.call? place = none) (timely : Timely (past ++ run))
    (free : Free run) : Served run last := by
  refine (solo.induct books (fun run last _ => Timely (past ++ run) → Free run → Served run last)
    ?launches ?resumes ?idles).elim fun _ both => both.2 timely free
  case launches =>
    obtain ⟨halt, host, part, runs⟩ := operation.run_flow before.host
    refine ⟨halt, host, part, runs, fun timely free => ?_⟩
    obtain ⟨line, unbegun⟩ := Served.start quiet books timely.of_append.1
    have made := books.entered.asked?_launched operation host halt
    have none_yet : (asked []).map Inquiry.about = (begun []).map Inquiry.about := rfl
    refine Served.arrive line none_yet unbegun (fun waits => ?_) (by rfl) made rfl
    exact free _ List.mem_cons_self (by rwa [made, isSome_inquiry?])
  case resumes =>
    intro done system stage number answer onward holds waits told
    obtain ⟨halt, host, part, runs⟩ := stage.run_next answer system.host
    refine ⟨halt, host, part, runs, fun timely free => ?_⟩
    rw [← List.append_assoc] at timely
    obtain ⟨line, begins⟩ := holds timely.of_append.1 free.of_append
    -- The procedure has heard of its call, so that one has begun, too.
    have begun : unbegun system.executor = [] := by
      refine List.eq_nil_iff_forall_not_mem.mpr fun entry member => ?_
      obtain ⟨own, untold⟩ := onward.own_unbegun timely.of_append.1 member
      cases waits.symm.trans own
      cases told.symm.trans untold
    rw [begun, List.map_nil, List.append_nil] at begins
    have made := onward.entered.asked?_resumed before.procedures.length number host halt
    refine Served.arrive line begins begun (fun waits => ?_) (by rfl) made rfl
    exact free _ (List.mem_append_right _ List.mem_cons_self) (by rwa [made, isSome_inquiry?])
  case idles =>
    intro done system after event stage? onward holds idle step timely free
    rw [← List.append_assoc] at timely
    exact (holds timely.of_append.1 free.of_append).idle onward.entered step.turn idle.asked
      (onward.length_unbegun_le timely.of_append.1)

end ServiceHost.System
