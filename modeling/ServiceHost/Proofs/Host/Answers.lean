import ServiceHost.Proofs.Host.Ledger

/-! What callers are told of their calls, and which procedure waits for which call. -/

set_option autoImplicit false

namespace ServiceHost.System

variable {before after last : System Answer} {stages later : Nat → Option Stage} {event : Event}
  {moments : List Moment} {moment : Moment}

/-- What a call comes to for its caller: what its work came to, or that this took too long. -/
inductive Comes (moments : List Moment) (now : Nat) (inquiry : Inquiry) : CallAnswer → Prop where
  | returned {ended : Returned} :
      ended ∈ returned moments → ended.number = inquiry.number →
      (Timely moments → ended.instant < inquiry.deadline) →
      Comes moments now inquiry (ended.ending.outcome inquiry.query.operation)
  | late :
      inquiry.deadline ≤ now →
      (∀ ended ∈ returned moments, ended.number = inquiry.number →
        inquiry.deadline ≤ ended.instant) →
      (Timely moments → inquiry.number ∈ (begun moments).map Inquiry.number ∨
        ∃ moment ∈ moments, inquiry.number ∈ moment.before.executor.line) →
      Comes moments now inquiry (.error inquiry.request.timeout)

namespace Comes

variable {inquiry : Inquiry} {answer : CallAnswer} {now : Nat}

/-- What was true of an answer stays true, whatever happens later. -/
theorem grow (comes : Comes moments now inquiry answer) (past : now ≤ before.now) :
    Comes (moments ++ [⟨before, event, after⟩]) now inquiry answer := by
  cases comes with
  | returned member same timely =>
    exact .returned (returned_grows member _) same fun all => timely all.of_append.1
  | late expired later begins =>
    refine .late expired (fun ended member same => ?_) fun all => ?_
    · rw [returned_append, List.mem_append] at member
      rcases member with old | new
      · exact later ended old same
      · rw [Moment.instant_of_returned? (Option.mem_toList.mp new)]
        exact Nat.le_trans expired past
    · rcases begins all.of_append.1 with begun | ⟨moment, member, waits⟩
      · rw [begun_append, List.map_append]
        exact .inl (List.mem_append_left _ begun)
      · exact .inr ⟨moment, List.mem_append_left _ member, waits⟩

theorem mono {later : Nat} (comes : Comes moments now inquiry answer) (since : now ≤ later) :
    Comes moments later inquiry answer := by
  cases comes with
  | returned member same timely => exact .returned member same timely
  | late expired other begins => exact .late (Nat.le_trans expired since) other begins

theorem append (comes : Comes moments before.now inquiry answer) (since : before.now ≤ after.now) :
    Comes (moments ++ [⟨before, event, after⟩]) after.now inquiry answer :=
  (comes.grow (Nat.le_refl _)).mono since

end Comes

/-- The answers that were given and not yet taken, and the calls that nobody waits for. -/
structure Answered (moments : List Moment) (system : System Answer) : Prop where
  told : ∀ entry ∈ system.executor.answers, ∃ inquiry ∈ asked moments,
    inquiry.number = entry.1 ∧ Comes moments system.now inquiry entry.2
  detached : ∀ call ∈ system.executor.running, call.awaited = false →
    call.request.expires ≤ system.now
  prompt : Timely moments → ∀ call ∈ system.executor.running,
    call.work.phase.isFresh = true → system.now < call.request.expires

namespace Answered

theorem start (host : Host) (capacity : Nat) : Answered [] (.start host capacity) where
  told _ member := by cases member
  detached _ member := by cases member
  prompt _ _ member := by cases member

/-- Answers that were there before are still true. -/
theorem keeps (answered : Answered moments before) (since : before.now ≤ after.now)
    {entry : Nat × CallAnswer} (member : entry ∈ before.executor.answers) :
    ∃ inquiry ∈ asked (moments ++ [⟨before, event, after⟩]), inquiry.number = entry.1 ∧
      Comes (moments ++ [⟨before, event, after⟩]) after.now inquiry entry.2 := by
  obtain ⟨inquiry, stands, number, told⟩ := answered.told entry member
  exact ⟨inquiry, Worked.asked_subset stands, number, told.append since⟩

/-- A call in hand whose deadline has come is in the line, or its work has begun. -/
theorem begins_of_late (answered : Answered moments before) (worked : Worked moments before)
    (timely : Timely moments) {request : Request} (expired : request.expires ≤ before.now)
    (waited : (∃ call ∈ before.executor.running, call.awaited = true ∧ call.request = request) ∨
      ∃ call ∈ before.executor.queue, call.1 = request) :
    request.id ∈ (begun moments).map Inquiry.number ∨ request.id ∈ before.executor.line := by
  rcases waited with ⟨call, running, _, rfl⟩ | ⟨call, queued, rfl⟩
  · refine .inl (Decidable.byContradiction fun absent => ?_)
    have fresh := (worked.fresh _ (Executor.mem_hand_of_running running)).mpr absent
    exact Nat.not_lt_of_le expired (answered.prompt timely call running fresh)
  · exact .inr (List.mem_map_of_mem queued)

theorem comes_of_late (answered : Answered moments before) (entered : Entered moments before)
    (worked : Worked moments before) {after : System Answer} (now : after.now = before.now)
    {request : Request} (expired : request.expires ≤ before.now)
    (waited : (∃ call ∈ before.executor.running, call.awaited = true ∧ call.request = request) ∨
      ∃ call ∈ before.executor.queue, call.1 = request) :
    ∃ inquiry ∈ asked (moments ++ [⟨before, .expire, after⟩]), inquiry.number = request.id ∧
      Comes (moments ++ [⟨before, .expire, after⟩]) after.now inquiry (.error request.timeout) := by
  have there : ∃ body, (request, body) ∈ before.executor.hand := by
    rcases waited with ⟨call, running, _, rfl⟩ | ⟨call, queued, rfl⟩
    · exact ⟨_, Executor.mem_hand_of_running running⟩
    · exact ⟨_, Executor.mem_hand_of_queue queued⟩
  obtain ⟨body, mine⟩ := there
  obtain ⟨inquiry, stands, heads, _⟩ := entered.hand _ mine
  replace heads : request = inquiry.request := heads
  subst heads
  refine ⟨inquiry, Worked.asked_subset stands, rfl, .late ?_ (fun ended member same => ?_) ?_⟩
  · exact now ▸ expired
  -- As long as a call is in hand, its work has not ended.
  · have silent : (⟨before, .expire, after⟩ : Moment).returned? = none := rfl
    rw [returned_append, silent, Option.toList_none, List.append_nil] at member
    have stands : ended.number ∈ (returned moments).map Returned.number :=
      List.mem_map_of_mem member
    rw [same] at stands
    exact absurd stands (worked.going _ mine)
  · intro timely
    rcases answered.begins_of_late worked timely.of_append.1 expired waited with begins | waits
    · rw [begun_append, List.map_append]
      exact .inl (List.mem_append_left _ begins)
    · exact .inr ⟨_, List.mem_append_right _ List.mem_cons_self, waits⟩

theorem expires (answered : Answered moments before) (entered : Entered moments before)
    (worked : Worked moments before) (same : after.executor = before.executor.expire before.now)
    (now : after.now = before.now) :
    Answered (moments ++ [⟨before, .expire, after⟩]) after := by
  constructor
  case told =>
    rintro ⟨number, answer⟩ member
    rw [same] at member
    rcases Executor.mem_answers_expire member with old | ⟨request, rfl, expired, rfl, waited⟩
    · exact answered.keeps (Nat.le_of_eq now.symm) old
    · exact answered.comes_of_late entered worked now expired waited
  case detached =>
    intro call member given_up
    rw [same] at member
    obtain ⟨earlier, running, rfl⟩ := Executor.running_expire member
    rw [now]
    cases awaited : earlier.awaited with
    | false => exact answered.detached earlier running awaited
    | true => simpa [awaited] using given_up
  case prompt =>
    intro timely call member fresh
    rw [same] at member
    obtain ⟨earlier, running, rfl⟩ := Executor.running_expire member
    rw [now]
    exact answered.prompt timely.of_append.1 earlier running fresh

theorem asks (answered : Answered moments before)
    {answers : List (Nat × Except CallError (Except ServiceError Reply))} {service : ServiceId}
    {query : Query} (punctual : before.keepsTime event = !before.executor.overdue before.now)
    (taken : answers.Sublist before.executor.answers)
    (same : after.executor = Executor.submit { before.executor with answers } before.now
      query.operation callDeadline ⟨service, query, .fresh⟩) (now : after.now = before.now) :
    Answered (moments ++ [⟨before, event, after⟩]) after := by
  constructor
  case told =>
    intro entry member
    rw [same] at member
    exact answered.keeps (Nat.le_of_eq now.symm) (taken.subset member)
  case detached =>
    intro call member given_up
    rw [same] at member
    rw [now]
    rcases Executor.running_submit member with old | ⟨awaited, _⟩
    · exact answered.detached call old given_up
    · cases given_up.symm.trans awaited
  case prompt =>
    intro timely call member fresh
    obtain ⟨timely, keeps⟩ := timely.of_append
    have early : before.executor.overdue before.now = false := by
      simpa using punctual.symm.trans keeps
    rw [same] at member
    rw [now]
    rcases Executor.running_submit member with old | ⟨_, admitted⟩
    · exact answered.prompt timely call old fresh
    · rcases List.mem_append.mp admitted with waited | new
      · exact Executor.lt_expires_of_queued early waited
      · rw [(Prod.mk.inj (List.mem_singleton.mp new)).1]
        exact Nat.lt_add_of_pos_right (by decide)

/-- The call that has ended is answered, and the next one in the line has its permit. -/
theorem ends (answered : Answered moments before) (entered : Entered moments before)
    {place : Nat} {call : Running Body} {service changed : Service}
    {ending : Ending (Except ServiceError Reply)}
    (there : before.executor.running[place]? = some call)
    (found : before.host.service? call.work.service = some service)
    (goes : service.goOn before.now call.work.query call.work.phase = some (.ended ending, changed))
    (same : after.executor = moved before.executor call (.ended ending))
    (now : after.now = before.now) :
    Answered (moments ++ [⟨before, .serve place, after⟩]) after := by
  have early : Timely (moments ++ [⟨before, .serve place, after⟩]) →
      before.executor.overdue before.now = false := fun timely => by
    simpa [keepsTime] using timely.of_append.2
  rw [moved_of_ended] at same
  constructor
  case told =>
    rintro ⟨number, answer⟩ member
    rw [same] at member
    rcases Executor.mem_answers_conclude.mp member with old |
      ⟨other, holds, awaited, own, rfl, rfl⟩
    · exact answered.keeps (Nat.le_of_eq now.symm) old
    obtain ⟨inquiry, stands, heads, _⟩ := entered.hand _ (Executor.mem_hand_of_running holds)
    replace heads : other.request = inquiry.request := heads
    have number : call.request.id = inquiry.number := by
      rw [← own, heads]
      rfl
    have told : (⟨before.now, call.request.id, ending⟩ : Returned) ∈
        returned (moments ++ [⟨before, .serve place, after⟩]) := by
      rw [returned_append, Moment.returned?_of_serve there found goes]
      simp [Phase.ending?]
    refine ⟨inquiry, Worked.asked_subset stands, number.symm, ?_⟩
    rw [heads]
    refine .returned told number fun timely => ?_
    have early := Executor.lt_expires_of_awaited (early timely) holds awaited
    rwa [heads] at early
  case detached =>
    intro other member given_up
    rw [same] at member
    rw [now]
    rcases Executor.running_conclude member with old | ⟨awaited, _⟩
    · exact answered.detached other old given_up
    · cases given_up.symm.trans awaited
  case prompt =>
    intro timely other member fresh
    rw [same] at member
    rw [now]
    rcases Executor.running_conclude member with old | ⟨_, waited⟩
    · exact answered.prompt timely.of_append.1 other old fresh
    · exact Executor.lt_expires_of_queued (early timely) waited

/-- A call that goes on, in a phase that is not fresh, is not answered yet. -/
theorem continues (answered : Answered moments before) {place : Nat} {call : Running Body}
    {phase : Phase} (going : phase.ending? = none) (cold : phase.isFresh = false)
    (same : after.executor = moved before.executor call phase) (now : after.now = before.now) :
    Answered (moments ++ [⟨before, .serve place, after⟩]) after := by
  rw [moved_of_going _ _ going] at same
  constructor
  case told =>
    intro entry member
    rw [same] at member
    exact answered.keeps (Nat.le_of_eq now.symm) member
  case detached =>
    intro other member given_up
    rw [same] at member
    rw [now]
    rcases Executor.running_continueWith member with ⟨old, _⟩ | ⟨earlier, holds, _, rfl⟩
    · exact answered.detached other old given_up
    · exact answered.detached earlier holds given_up
  case prompt =>
    intro timely other member fresh
    rw [same] at member
    rw [now]
    rcases Executor.running_continueWith member with ⟨old, _⟩ | ⟨earlier, holds, _, rfl⟩
    · exact answered.prompt timely.of_append.1 other old fresh
    · cases fresh.symm.trans cold

theorem serves (answered : Answered moments before) (entered : Entered moments before)
    {place : Nat} {call : Running Body} {service changed : Service} {phase : Phase}
    (there : before.executor.running[place]? = some call)
    (found : before.host.service? call.work.service = some service)
    (goes : service.goOn before.now call.work.query call.work.phase = some (phase, changed))
    (same : after.executor = moved before.executor call phase) (now : after.now = before.now) :
    Answered (moments ++ [⟨before, .serve place, after⟩]) after := by
  cases ends : phase.ending? with
  | some ending =>
    obtain rfl := Phase.ending?_eq_some.mp ends
    exact answered.ends entered there found goes same now
  | none => exact answered.continues ends (Service.not_fresh goes) same now

theorem turn (answered : Answered moments before) (entered : Entered moments before)
    (worked : Worked moments before) (turn : before.Turn event after) :
    Answered (moments ++ [⟨before, event, after⟩]) after := by
  cases turn with
  | rests _ taken same now =>
    refine ⟨fun entry member => ?_, fun call member given_up => ?_,
      fun timely call member fresh => ?_⟩
    all_goals rw [same] at member
    · exact answered.keeps (Nat.le_of_eq now.symm) (taken.subset member)
    · exact now ▸ answered.detached call member given_up
    · exact now ▸ answered.prompt timely.of_append.1 call member fresh
  | asks _ _ _ punctual taken same now => exact answered.asks punctual taken same now
  | serves there found goes same now => exact answered.serves entered there found goes same now
  | expires same now => exact answered.expires entered worked same now
  | @waits instant _ since same now =>
    refine ⟨fun entry member => ?_, fun call member given_up => ?_,
      fun timely call member fresh => ?_⟩
    all_goals rw [same] at member
    · exact answered.keeps (now ▸ since) member
    · exact Nat.le_trans (answered.detached call member given_up) (now ▸ since)
    -- Time does not pass before a call that has a permit has begun.
    · have rests := timely.of_append.2
      simp only [keepsTime, System.rests, Bool.and_eq_true, List.all_eq_true] at rests
      have begun := rests.1.2.2 call member
      simp [fresh] at begun

end Answered

/-! ## Who waits for what -/

/-- The call that the procedure in a place waits for. -/
def call? (system : System Answer) (place : Nat) : Option Nat :=
  match system.procedures[place]? with
  | some (.waiting call _) => some call
  | _ => none

theorem call?_eq_some {system : System Answer} {place call : Nat} :
    system.call? place = some call ↔
      ∃ next, system.procedures[place]? = some (.waiting call next) := by
  unfold call?
  split
  · rename_i number next there
    simp [there]
  · rename_i other
    exact ⟨fun none => (by cases none), fun ⟨next, there⟩ => absurd there (other call next)⟩

theorem call?_of_waiting {system : System Answer} {place call : Nat}
    {next : CallAnswer → Flow (Yield Answer)}
    (there : system.procedures[place]? = some (.waiting call next)) :
    system.call? place = some call := call?_eq_some.mpr ⟨next, there⟩

theorem call?_of_progression (before : System Answer) {place : Nat} {halt : Halt}
    (there : after.procedures[place]? = some (before.progression halt)) :
    after.call? place = halt.stage?.map fun _ => before.executor.issued := by
  cases halt with
  | ended | waits => simp [call?, there, progression, Halt.stage?]

theorem call?_of_set {place other : Nat} (apart : other ≠ place) {progression : Progression Answer}
    (same : after.procedures = before.procedures.set place progression) :
    after.call? other = before.call? other := by
  rw [call?, call?, same, List.getElem?_set_ne (Ne.symm apart)]

theorem call?_of_append {place : Nat} (apart : place ≠ before.procedures.length)
    {progression : Progression Answer}
    (same : after.procedures = before.procedures ++ [progression]) :
    after.call? place = before.call? place := by
  have there : after.procedures[place]? = before.procedures[place]? := by
    rw [same, List.getElem?_append]
    split
    · rfl
    · rename_i beyond
      have past := Nat.lt_of_le_of_ne (Nat.le_of_not_lt beyond) (Ne.symm apart)
      rw [List.getElem?_eq_none (Nat.le_of_lt past)]
      exact List.getElem?_eq_none (Nat.sub_pos_of_lt past)
  rw [call?, call?, there]

theorem yielded_of_yield? {ρ : Type} {system : System ρ} {place : Nat} {yield : Yield ρ}
    (yielded : system.yield? place = some yield) :
    system.procedures[place]? = some (.yielded yield) := by
  unfold yield? at yielded
  split at yielded
  · cases yielded
    assumption
  · cases yielded

theorem mem_of_answer? {executor : Executor Body (Except ServiceError Reply)} {call : Nat}
    {answer : CallAnswer} (told : executor.answer? call = some answer) :
    (call, answer) ∈ executor.answers := by
  obtain ⟨_, _, split, _⟩ := List.lookup_eq_some_iff.mp told
  exact split ▸ List.mem_append_right _ List.mem_cons_self

/-- No procedure waits any less because another one's result was taken. -/
theorem call?_take {place : Nat} {name : Option String} {yield : Yield Answer}
    (yielded : before.yield? place = some yield) (other : Nat) :
    (before.take place name).call? other = before.call? other := by
  by_cases same : other = place
  · subst same
    have there := yielded_of_yield? yielded
    have bound := (List.getElem?_eq_some_iff.mp there).1
    have taken : (before.take other name).procedures[other]? = some .taken :=
      List.getElem?_set_self bound
    rw [call?, call?, there, taken]
  · exact call?_of_set same rfl

theorem owes_moved {executor : Executor Body (Except ServiceError Reply)}
    (orderly : executor.Orderly) {call : Running Body} (running : call ∈ executor.running)
    (phase : Phase) {number : Nat} :
    (moved executor call phase).Owes number ↔ executor.Owes number := by
  cases told : phase.ending? with
  | some ending =>
    obtain rfl : phase = .ended ending := Phase.ending?_eq_some.mp told
    rw [moved_of_ended]
    exact Executor.owes_conclude orderly running
  | none =>
    rw [moved_of_going _ _ told]
    exact or_congr_left (by rw [Executor.pending_continueWith])

/-- Every call that is owed an answer is owed it by one procedure; no procedure waits in vain. -/
structure Posted (system : System Answer) : Prop where
  owed : ∀ call, system.executor.Owes call ↔ ∃ place, system.call? place = some call
  alone : ∀ first second call, system.call? first = some call → system.call? second = some call →
    first = second
  apart : system.executor.Apart

namespace Posted

theorem start (host : Host) (capacity : Nat) : Posted (.start host capacity) where
  owed call := by simp [Executor.Owes, Executor.pending, Executor.line, System.start,
    Executor.start, call?]
  alone first second call waits := by simp [call?, System.start] at waits
  apart _ member := by cases member

/-- One procedure stops waiting for a call and may begin to wait for another one. -/
theorem put (posted : before.Posted) (place : Nat) {old new : Option Nat}
    (here : before.call? place = old)
    (calls : ∀ other, after.call? other = if other = place then new else before.call? other)
    (owes : ∀ call, after.executor.Owes call ↔
      before.executor.Owes call ∧ some call ≠ old ∨ some call = new)
    (fresh : ∀ call, new = some call → ¬before.executor.Owes call)
    (apart : after.executor.Apart) : after.Posted where
  owed call := by
    rw [owes call]
    constructor
    · rintro (⟨owed, other⟩ | same)
      · obtain ⟨waiting, waits⟩ := (posted.owed call).mp owed
        have differs : waiting ≠ place := by
          rintro rfl
          exact other (waits.symm.trans here)
        exact ⟨waiting, by rw [calls, if_neg differs, waits]⟩
      · exact ⟨place, by rw [calls, if_pos rfl, same]⟩
    · rintro ⟨waiting, waits⟩
      rw [calls] at waits
      split at waits
      · exact .inr waits.symm
      · rename_i differs
        refine .inl ⟨(posted.owed call).mpr ⟨waiting, waits⟩, fun same => differs ?_⟩
        exact posted.alone waiting place call waits (here.trans same.symm)
  alone first second call left right := by
    have unowed : ∀ other, new = some call → before.call? other ≠ some call :=
      fun other made waits => fresh call made ((posted.owed call).mpr ⟨other, waits⟩)
    rw [calls] at left right
    by_cases one : first = place <;> by_cases two : second = place
    · exact one.trans two.symm
    · rw [if_pos one] at left
      rw [if_neg two] at right
      exact absurd right (unowed second left)
    · rw [if_neg one] at left
      rw [if_pos two] at right
      exact absurd left (unowed first right)
    · rw [if_neg one] at left
      rw [if_neg two] at right
      exact posted.alone first second call left right
  apart := apart

theorem same (posted : before.Posted) (calls : ∀ place, after.call? place = before.call? place)
    (owes : ∀ call, after.executor.Owes call ↔ before.executor.Owes call)
    (apart : after.executor.Apart) : after.Posted where
  owed call := by simp only [owes, calls, posted.owed]
  alone first second call := by
    rw [calls, calls]
    exact posted.alone first second call
  apart := apart

/-- What is owed once a procedure has given up control. -/
theorem owes_arrived (system : System Answer) (host : Host) (halt : Halt) (call : Nat) :
    (system.arrived host halt).executor.Owes call ↔
      system.executor.Owes call ∨
        some call = halt.stage?.map fun _ => system.executor.issued := by
  cases halt with
  | ended => simp [arrived, Halt.stage?]
  | waits service stage =>
    simp only [Halt.stage?, Option.map_some, Option.some.injEq]
    exact Executor.owes_submit

theorem apart_arrived {system : System Answer} (apart : system.executor.Apart)
    (numbered : system.executor.Numbered) (host : Host) (halt : Halt) :
    (system.arrived host halt).executor.Apart := by
  cases halt with
  | ended => exact apart
  | waits service stage => exact apart.submit numbered _ _ _ _

theorem fresh_of_numbered (numbered : before.executor.Numbered) (halt : Halt) (call : Nat)
    (made : (halt.stage?.map fun _ => before.executor.issued) = some call) :
    ¬before.executor.Owes call := by
  intro owes
  obtain ⟨_, _, rfl⟩ := Option.map_eq_some_iff.mp made
  exact Nat.lt_irrefl _ (owes.lt_issued numbered)

theorem step (posted : before.Posted) (orderly : before.executor.Orderly)
    (step : before.Step stages event after later) : after.Posted := by
  have numbered := orderly.numbered
  cases step with
  | @launch operation halt host part =>
    have absent : before.call? before.procedures.length = none := by simp [call?]
    refine posted.put before.procedures.length absent (fun other => ?_) (fun call => ?_)
      (fresh_of_numbered numbered halt)
      (apart_arrived posted.apart numbered host halt)
    · split
      · rename_i same
        exact call?_of_progression before (same ▸ List.getElem?_concat_length ..)
      · rename_i apart
        exact call?_of_append apart rfl
    · simp [owes_arrived]
  | @resume place number stage answer halt host _ waits told part =>
    have bound := (List.getElem?_eq_some_iff.mp waits).1
    have taken := Executor.owes_forget posted.apart (mem_of_answer? told)
    refine posted.put place (call?_of_waiting waits) (fun other => ?_) (fun call => ?_)
      (fresh_of_numbered numbered halt)
      (apart_arrived (posted.apart.forget number) (numbered.forget number) host halt)
    · split
      · rename_i same
        subst same
        exact call?_of_progression (before.answered number) (List.getElem?_set_self bound)
      · rename_i apart
        exact call?_of_set apart rfl
    · rw [owes_arrived]
      exact or_congr_left ((taken call).trans (and_congr_right' (by simp)))
  | @serve place call service changed phase there =>
    have running := List.mem_of_getElem? there
    refine posted.same (fun _ => rfl) (fun number => owes_moved orderly running phase) ?_
    cases told : phase.ending? with
    | some ending =>
      obtain rfl : phase = .ended ending := Phase.ending?_eq_some.mp told
      have ended := moved_of_ended before.executor call ending
      exact ended ▸ posted.apart.conclude orderly (List.mem_map_of_mem running) _
    | none =>
      intro entry member waits
      simp only [moved_of_going _ _ told] at member waits
      rw [Executor.pending_continueWith] at waits
      exact posted.apart entry member waits
  | expire =>
    exact posted.same (fun _ => rfl) (fun _ => Executor.owes_expire)
      (posted.apart.expire orderly _)
  | @take place name yield yielded =>
    exact posted.same (call?_take yielded) (fun _ => Iff.rfl) posted.apart
  | stir | drop | wait => exact posted.same (fun _ => rfl) (fun _ => Iff.rfl) posted.apart

end Posted

/-! ## The books of a host from its beginning -/

structure Accounts (moments : List Moment) (system : System Answer) : Prop where
  entered : Entered moments system
  worked : Worked moments system
  answered : Answered moments system
  posted : system.Posted

theorem Accounts.start (host : Host) (capacity : Nat) : Accounts [] (.start host capacity) :=
  ⟨.start host capacity, .start host capacity, .start host capacity, .start host capacity⟩

theorem Accounts.step (accounts : Accounts moments before)
    (step : before.Step stages event after later) :
    Accounts (moments ++ [⟨before, event, after⟩]) after where
  entered := accounts.entered.turn step.turn
  worked := accounts.worked.turn accounts.entered step.turn
  answered := accounts.answered.turn accounts.entered accounts.worked step.turn
  posted := accounts.posted.step accounts.entered.orderly step

namespace Accounts

variable (accounts : Accounts moments last) {place call : Nat}

include accounts

/-- What a procedure is told is what its call has come to. -/
theorem comes {answer : CallAnswer} (told : last.executor.answer? call = some answer) :
    ∃ inquiry ∈ asked moments, inquiry.number = call ∧
      Comes moments last.now inquiry answer :=
  accounts.answered.told (call, answer) (mem_of_answer? told)

/-- Once no procedure waits, no call stands in line, and what still goes on goes on for nobody. -/
theorem idle (quiet : ∀ place, last.call? place = none) :
    last.executor.queue = [] ∧ last.executor.answers = [] ∧
      ∀ call ∈ last.executor.running, call.awaited = false := by
  have nobody : ∀ call, ¬last.executor.Owes call := fun call owes => by
    obtain ⟨place, waits⟩ := (accounts.posted.owed call).mp owes
    cases (quiet place).symm.trans waits
  refine ⟨List.eq_nil_iff_forall_not_mem.mpr fun waiting member => ?_,
    List.eq_nil_iff_forall_not_mem.mpr fun entry member => ?_,
    fun call member => Bool.eq_false_iff.mpr fun awaited => ?_⟩
  · exact nobody _ (.inl (Executor.mem_pending.mpr (.inr ⟨waiting, member, rfl⟩)))
  · exact nobody _ (.inr ⟨entry.2, member⟩)
  · exact nobody _ (.inl (Executor.mem_pending.mpr (.inl ⟨call, member, awaited, rfl⟩)))

/-- A call that nobody waits for has begun long ago. -/
theorem begun_of_detached (timely : Timely moments) {call : Running Body}
    (member : call ∈ last.executor.running) (given_up : call.awaited = false) :
    call.work.phase.isFresh = false := by
  refine Bool.eq_false_iff.mpr fun fresh => ?_
  exact absurd (accounts.answered.detached call member given_up)
    (Nat.not_le_of_lt (accounts.answered.prompt timely call member fresh))

end Accounts

end ServiceHost.System
