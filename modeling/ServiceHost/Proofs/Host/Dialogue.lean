import ServiceHost.Proofs.Host.Deadlines

/-! What procedures are told of their calls, and when they go on.

Every call is made once, and its procedure is told once what it has come to. Between the two the
call is owed to the procedure.
-/

set_option autoImplicit false

namespace ServiceHost

/-- What a procedure is told of its call, at the instant at which it goes on. -/
structure Heard where
  instant : Nat
  number : Nat
  answer : CallAnswer

namespace System

variable {before after last : System Answer} {stages later : Nat → Option Stage} {event : Event}
  {moments past : List Moment} {moment : Moment}

def Moment.heard? (moment : Moment) : Option Heard :=
  match moment.event with
  | .resume place => do
    let number ← moment.before.call? place
    let answer ← moment.before.executor.answer? number
    return ⟨moment.before.now, number, answer⟩
  | _ => none

def heard (moments : List Moment) : List Heard := moments.filterMap Moment.heard?

theorem heard_append (past : List Moment) (moment : Moment) :
    heard (past ++ [moment]) = heard past ++ moment.heard?.toList := by
  cases told : moment.heard? <;> simp [heard, told]

theorem Moment.heard?_of_resume {place number : Nat} {answer : CallAnswer}
    (waits : before.call? place = some number)
    (told : before.executor.answer? number = some answer) :
    (⟨before, .resume place, after⟩ : Moment).heard? = some ⟨before.now, number, answer⟩ := by
  simp [heard?, waits, told]

theorem Moment.heard?_of_ne (resumes : ∀ place, event ≠ .resume place) :
    (⟨before, event, after⟩ : Moment).heard? = none := by
  cases event with
  | resume place => exact absurd rfl (resumes place)
  | _ => rfl

theorem exists_inquiry? (halt : Halt) (now number call : Nat) :
    (∃ inquiry, halt.inquiry? now number = some inquiry ∧ inquiry.number = call) ↔
      some call = halt.stage?.map fun _ => number := by
  cases halt with
  | ended | waits => simp [Halt.inquiry?, Halt.stage?, eq_comm]

theorem call?_launched (before : System Answer) (host : Host) (halt : Halt) :
    (before.launched host halt).call? before.procedures.length =
      halt.stage?.map fun _ => before.executor.issued :=
  call?_of_progression before (List.getElem?_concat_length ..)

theorem call?_resumed {place number : Nat} (waits : before.call? place = some number) (host : Host)
    (halt : Halt) : (before.resumed place number host halt).call? place =
      halt.stage?.map fun _ => before.executor.issued := by
  obtain ⟨next, there⟩ := call?_eq_some.mp waits
  have bound := (List.getElem?_eq_some_iff.mp there).1
  exact call?_of_progression (before.answered number) (List.getElem?_set_self bound)

/-- What a procedure yields is what it has ended with. -/
theorem halt_of_yield? {place : Nat} {halt : Halt} {yield : Yield Answer} (yielder : System Answer)
    (there : last.procedures[place]? = some (yielder.progression halt))
    (yields : last.yield? place = some yield) : halt = .ended yield := by
  have yielded := there.symm.trans (yielded_of_yield? yields)
  cases halt with
  | ended own =>
    cases yielded
    rfl
  | waits => cases yielded

/-- A call is owed from the moment at which it is made until its procedure goes on. -/
theorem Step.owes (accounts : Accounts moments before)
    (step : before.Step stages event after later) (call : Nat) :
    after.executor.Owes call ↔
      before.executor.Owes call ∧
          (∀ told, (⟨before, event, after⟩ : Moment).heard? = some told → told.number ≠ call) ∨
        ∃ inquiry, (⟨before, event, after⟩ : Moment).asked? = some inquiry ∧
          inquiry.number = call := by
  have idle := accounts.entered.asked?_of_idle step
  have orderly := accounts.entered.orderly
  cases step with
  | @launch operation halt host part =>
    change (before.launched host halt).executor.Owes call ↔ _ ∨ ∃ inquiry,
      (⟨before, .launch operation, before.launched host halt⟩ : Moment).asked? = _ ∧ _
    rw [accounts.entered.asked?_launched, exists_inquiry?]
    simp [launched, Moment.heard?, Posted.owes_arrived]
  | @resume place number stage answer halt host stands waits told part =>
    have taken := Executor.owes_forget accounts.posted.apart (mem_of_answer? told) call
    change (before.resumed place number host halt).executor.Owes call ↔ _ ∨ ∃ inquiry,
      (⟨before, .resume place, before.resumed place number host halt⟩ : Moment).asked? = _ ∧ _
    rw [accounts.entered.asked?_resumed, exists_inquiry?,
      Moment.heard?_of_resume (call?_of_waiting waits) told]
    simp only [resumed, Posted.owes_arrived, answered, taken, Option.some.injEq, forall_eq',
      ne_comm]
    exact Iff.rfl
  | @serve place running service changed phase there =>
    simp [idle, Moment.heard?, owes_moved orderly (List.mem_of_getElem? there)]
  | expire => simp [idle, Moment.heard?, Executor.owes_expire]
  | stir stirs =>
    rw [idle (by rintro _ rfl; cases stirs) (by rintro _ rfl; cases stirs),
      Moment.heard?_of_ne (by rintro _ rfl; cases stirs)]
    simp [withService]
  | take =>
    rw [idle (by simp) (by simp), Moment.heard?_of_ne (by simp)]
    simp [System.take]
  | drop | wait => simp [idle, Moment.heard?]

/-- What was heard is what the calls came to; a call that was not heard of is still owed. -/
structure Attended (moments : List Moment) (system : System Answer) : Prop where
  comes : ∀ told ∈ heard moments, ∃ inquiry ∈ asked moments, inquiry.number = told.number ∧
    Comes moments told.instant inquiry told.answer ∧
      (Timely moments → told.instant ≤ inquiry.deadline)
  past : ∀ told ∈ heard moments, told.instant ≤ system.now
  settled : ∀ told ∈ heard moments, ¬system.executor.Owes told.number
  once : ((heard moments).map Heard.number).Nodup
  every : ∀ inquiry ∈ asked moments,
    inquiry.number ∈ (heard moments).map Heard.number ∨ system.executor.Owes inquiry.number

namespace Attended

theorem start (host : Host) (capacity : Nat) : Attended [] (.start host capacity) where
  comes _ member := by cases member
  past _ member := by cases member
  settled _ member := by cases member
  once := .nil
  every _ member := by cases member

/-- A procedure is told what its call has come to, and no later than at its deadline. -/
theorem tells (accounts : Accounts moments before) (early : Early moments before) {told : Heard}
    (hears : (⟨before, event, after⟩ : Moment).heard? = some told) :
    told.instant = before.now ∧ before.executor.Owes told.number ∧
      ∃ inquiry ∈ asked moments, inquiry.number = told.number ∧
        Comes moments told.instant inquiry told.answer ∧
          (Timely moments → told.instant ≤ inquiry.deadline) := by
  unfold Moment.heard? at hears
  split at hears
  · simp only [Option.bind_eq_bind, Option.bind_eq_some_iff, Option.pure_def,
      Option.some.injEq] at hears
    obtain ⟨number, waits, answer, told, rfl⟩ := hears
    have owed : before.executor.Owes number := (accounts.posted.owed _).mpr ⟨_, waits⟩
    obtain ⟨inquiry, stands, rfl, comes⟩ := accounts.comes told
    exact ⟨rfl, owed, inquiry, stands, rfl, comes, fun timely => early timely inquiry stands owed⟩
  · cases hears

/-- A call that is made now was not heard of before. -/
theorem unheard (attended : Attended moments before) (entered : Entered moments before)
    {inquiry : Inquiry} (made : (⟨before, event, after⟩ : Moment).asked? = some inquiry)
    {told : Heard} (member : told ∈ heard moments) : told.number ≠ inquiry.number := by
  intro same
  obtain ⟨other, stands, number, _⟩ := attended.comes told member
  have bound := entered.number_lt stands
  rw [number, same, Moment.number_of_asked? made] at bound
  exact Nat.lt_irrefl _ bound

/-- A call that was heard of is not owed any more. -/
theorem settles (attended : Attended moments before) (accounts : Accounts moments before)
    (early : Early moments before) (step : before.Step stages event after later) {told : Heard}
    (member : told ∈ heard (moments ++ [⟨before, event, after⟩])) :
    ¬after.executor.Owes told.number := by
  intro owed
  rw [heard_append, List.mem_append, Option.mem_toList] at member
  rcases (step.owes accounts told.number).mp owed with ⟨earlier, apart⟩ | ⟨inquiry, made, same⟩
  · rcases member with old | new
    · exact attended.settled told old earlier
    · exact apart told new rfl
  · rcases member with old | new
    · exact attended.unheard accounts.entered made old same.symm
    · obtain ⟨_, earlier, _⟩ := tells accounts early new
      have bound := earlier.lt_issued accounts.entered.orderly.numbered
      rw [← same, Moment.number_of_asked? made] at bound
      exact Nat.lt_irrefl _ bound

/-- A call that is not heard of now is still owed. -/
theorem attends (attended : Attended moments before) (accounts : Accounts moments before)
    (step : before.Step stages event after later) {inquiry : Inquiry}
    (stands : inquiry ∈ asked (moments ++ [⟨before, event, after⟩])) :
    inquiry.number ∈ (heard (moments ++ [⟨before, event, after⟩])).map Heard.number ∨
      after.executor.Owes inquiry.number := by
  rw [asked_append, List.mem_append, Option.mem_toList] at stands
  rw [heard_append, List.map_append, List.mem_append, step.owes accounts]
  rcases stands with old | new
  · rcases attended.every inquiry old with told | owed
    · exact .inl (.inl told)
    · by_cases hears : ∃ told, (⟨before, event, after⟩ : Moment).heard? = some told ∧
        told.number = inquiry.number
      · obtain ⟨told, now, same⟩ := hears
        exact .inl (.inr (List.mem_map.mpr ⟨told, Option.mem_toList.mpr now, same⟩))
      · exact .inr (.inl ⟨owed, fun told now same => hears ⟨told, now, same⟩⟩)
  · exact .inr (.inr ⟨inquiry, new, rfl⟩)

theorem step (attended : Attended moments before) (accounts : Accounts moments before)
    (early : Early moments before) (step : before.Step stages event after later) :
    Attended (moments ++ [⟨before, event, after⟩]) after where
  comes told member := by
    rw [heard_append, List.mem_append, Option.mem_toList] at member
    have known : ∃ inquiry ∈ asked moments, inquiry.number = told.number ∧
        Comes moments told.instant inquiry told.answer ∧ told.instant ≤ before.now ∧
          (Timely moments → told.instant ≤ inquiry.deadline) := by
      rcases member with old | new
      · obtain ⟨inquiry, stands, same, comes, soon⟩ := attended.comes told old
        exact ⟨inquiry, stands, same, comes, attended.past told old, soon⟩
      · obtain ⟨now, _, inquiry, stands, same, comes, soon⟩ := tells accounts early new
        exact ⟨inquiry, stands, same, comes, Nat.le_of_eq now, soon⟩
    obtain ⟨inquiry, stands, same, comes, past, soon⟩ := known
    exact ⟨inquiry, Worked.asked_subset stands, same, comes.grow past,
      fun timely => soon timely.of_append.1⟩
  past told member := by
    have since := step.turn.now_le
    rw [heard_append, List.mem_append, Option.mem_toList] at member
    rcases member with old | new
    · exact Nat.le_trans (attended.past told old) since
    · rw [(tells accounts early new).1]
      exact since
  settled _ member := attended.settles accounts early step member
  once := by
    rw [heard_append, List.map_append, ← Option.toList_map]
    refine nodup_append_toList attended.once fun number now old => ?_
    obtain ⟨told, hears, rfl⟩ := Option.map_eq_some_iff.mp now
    obtain ⟨earlier, member, same⟩ := List.mem_map.mp old
    obtain ⟨_, owed, _⟩ := tells accounts early hears
    exact attended.settled earlier member (same ▸ owed)
  every _ stands := attended.attends accounts step stands

end Attended

theorem History.attended {host : Host} {capacity : Nat} (unused : host.Unused)
    (history : History (.start host capacity) moments last) : Attended moments last := by
  obtain ⟨_, _, attended⟩ := (Books.start unused capacity).onward history
    (fun done system _ => Attended done system) (.start host capacity)
    fun _ _ books step attended => attended.step books.toAccounts books.early step
  exact attended

end System
end ServiceHost
