import ServiceHost.Proofs.Host.Dialogue
import ServiceHost.Proofs.Host.Removal
import ServiceHost.Proofs.Host.Return
import ServiceHost.Proofs.Service.Works

/-! Runs of one operation, during which no other one is under way.

Between two calls of the operation, nothing is done to the host: services go on by themselves, and
callers take what earlier operations yielded. So the operation makes one call after the other, and
what it comes to hangs on the answers alone.
-/

set_option autoImplicit false

namespace ServiceHost

/-- The stage of one procedure, while no other one waits. -/
def Stage.alone (place : Nat) (stage? : Option Stage) : Nat → Option Stage :=
  Stage.put (fun _ => none) place stage?

@[simp] theorem Stage.alone_self (place : Nat) (stage? : Option Stage) :
    alone place stage? place = stage? := Stage.put_self ..

theorem Stage.eq_of_alone {place other : Nat} {stage? : Option Stage} {stage : Stage}
    (stands : alone place stage? other = some stage) : other = place := by
  by_contra apart
  rw [alone, Stage.put_of_ne apart] at stands
  cases stands

@[simp] theorem Stage.put_alone (place : Nat) (stage? later : Option Stage) :
    put (alone place stage?) place later = alone place later := by
  funext other
  by_cases same : other = place
  · subst same
    simp
  · rw [put_of_ne same, alone, alone, put_of_ne same, put_of_ne same]

/-- Nothing is done to a host, and its services go on by themselves. -/
structure Host.Works (host after : Host) : Prop where
  frame : after = { host with services := after.services }
  works : ∀ id, Option.Rel Service.Works (host.service? id) (after.service? id)

/-- A call and what it came to. -/
structure Exchange where
  service : ServiceId
  query : Query
  answer : CallAnswer

def Exchange.about (exchange : Exchange) : ServiceId × Query := (exchange.service, exchange.query)

def Inquiry.about (inquiry : Inquiry) : ServiceId × Query := (inquiry.service, inquiry.query)

def Halt.about? : Halt → Option (ServiceId × Query)
  | ended _ => none
  | waits service stage => some (service, stage.query)

namespace Host.Works

variable {host after : Host}

theorem refl (host : Host) : host.Works host where
  frame := rfl
  works _ := Service.Works.rel_refl _

theorem updateService {id : ServiceId} {service changed : Service}
    (found : host.service? id = some service) (goes : service.Goes changed) :
    host.Works (host.updateService id fun _ => changed) where
  frame := rfl
  works other := by
    rw [service?_updateService]
    split
    · rename_i same
      rw [same, found]
      exact .some (.of_goes goes)
    · exact (refl host).works other

end Host.Works

namespace System

variable {before after last opened system : System Answer} {stages later : Nat → Option Stage}
  {event : Event} {moments past run done : List Moment} {operation : Operation} {place : Nat}

/-- No procedure goes on, and nothing is done to the host. -/
structure Idles (before : System Answer) (event : Event) (after : System Answer) : Prop where
  asked : (⟨before, event, after⟩ : Moment).asked? = none
  heard : (⟨before, event, after⟩ : Moment).heard? = none
  calls : ∀ place, after.call? place = before.call? place
  yields : ∀ place yield, after.yield? place = some yield → before.yield? place = some yield
  works : before.host.Works after.host

theorem Step.idles (entered : Entered moments before) (step : before.Step stages event after later)
    (launches : ∀ operation, event ≠ .launch operation)
    (resumes : ∀ place, event ≠ .resume place) : before.Idles event after ∧ later = stages := by
  have asked := entered.asked?_of_idle step launches resumes
  have heard : (⟨before, event, after⟩ : Moment).heard? = none := Moment.heard?_of_ne resumes
  cases step with
  | launch => exact absurd rfl (launches _)
  | resume => exact absurd rfl (resumes _)
  | serve there found goes =>
    exact ⟨⟨asked, heard, fun _ => rfl, fun _ _ => id, .updateService found (.called goes)⟩, rfl⟩
  | stir _ found stir =>
    exact ⟨⟨asked, heard, fun _ => rfl, fun _ _ => id,
      .updateService found (.stirred rfl stir)⟩, rfl⟩
  | expire | drop | wait =>
    exact ⟨⟨asked, heard, fun _ => rfl, fun _ _ => id, .refl _⟩, rfl⟩
  | @take taken name yield yielded =>
    refine ⟨⟨asked, heard, call?_take yielded, fun place other yields => ?_, .refl _⟩, rfl⟩
    by_cases same : place = taken
    · subst same
      have bound := (List.getElem?_eq_some_iff.mp (yielded_of_yield? yielded)).1
      simp [yield?, System.take, bound] at yields
    · have kept : (before.take taken name).procedures[place]? = before.procedures[place]? :=
        List.getElem?_set_ne (Ne.symm same)
      rwa [yield?, kept] at yields

theorem Step.waits_of_resume (step : before.Step stages (.resume place) after later) :
    ∃ number stage answer, stages place = some stage ∧
      before.procedures[place]? = some (.waiting number stage.next) ∧
      before.executor.answer? number = some answer := by
  cases step with
  | resume stands waits told => exact ⟨_, _, _, stands, waits, told⟩
  | stir stirs => cases stirs

/-- The run of an operation, during which no other one is launched. -/
inductive Solo (operation : Operation) (before : System Answer) :
    List Moment → System Answer → Prop where
  | launch {opened : System Answer} :
      before.after? (.launch operation) = some opened →
      Solo operation before [⟨before, .launch operation, opened⟩] opened
  | next {run : List Moment} {system after : System Answer} {event : Event} :
      Solo operation before run system → (∀ other, event ≠ .launch other) →
      system.after? event = some after →
      Solo operation before (run ++ [⟨system, event, after⟩]) after

theorem Solo.history (solo : Solo operation before run last) : History before run last := by
  induction solo with
  | launch done => exact History.start.next done
  | next _ _ done ih => exact ih.next done

/-- No procedure waits, so none is at a stage. -/
theorem Books.silent (books : Books moments last stages)
    (quiet : ∀ place, last.call? place = none) : stages = fun _ => none := by
  funext place
  cases stands : stages place with
  | none => rfl
  | some stage =>
    obtain ⟨call, waits⟩ := books.tracks.waits place stage stands
    cases (quiet place).symm.trans (call?_of_waiting waits)

/-- What holds of a run of an operation, with the stage that the operation is at: it holds once the
operation has begun, is kept while nobody goes on, and again when the operation goes on. -/
theorem Solo.induct (solo : Solo operation before run last)
    (books : Books past before fun _ => none)
    (Holds : List Moment → System Answer → Option Stage → Prop)
    (launches : ∃ halt host, operation.Section before.host halt host ∧
      operation.flow.run before.host = (halt.stop, host) ∧
      Holds [⟨before, .launch operation, before.launched host halt⟩] (before.launched host halt)
        halt.stage?)
    (resumes : ∀ {done : List Moment} {system : System Answer} {stage : Stage} {number : Nat}
      {answer : CallAnswer},
      Books (past ++ done) system (Stage.alone before.procedures.length (some stage)) →
      Holds done system (some stage) →
      system.call? before.procedures.length = some number →
      system.executor.answer? number = some answer →
      ∃ halt host, stage.Section system.host answer halt host ∧
        (stage.next answer).run system.host = (halt.stop, host) ∧
        Holds (done ++ [⟨system, .resume before.procedures.length,
            system.resumed before.procedures.length number host halt⟩])
          (system.resumed before.procedures.length number host halt) halt.stage?)
    (idles : ∀ {done : List Moment} {system after : System Answer} {event : Event}
      {stage? : Option Stage},
      Books (past ++ done) system (Stage.alone before.procedures.length stage?) →
      Holds done system stage? → system.Idles event after →
      system.Step (Stage.alone before.procedures.length stage?) event after
        (Stage.alone before.procedures.length stage?) →
      Holds (done ++ [⟨system, event, after⟩]) after stage?) :
    ∃ stage?, Books (past ++ run) last (Stage.alone before.procedures.length stage?) ∧
      Holds run last stage? := by
  induction solo with
  | launch opens =>
    obtain ⟨halt, host, part, runs, holds⟩ := launches
    obtain rfl := Option.some.inj ((after?_launch runs).symm.trans opens)
    exact ⟨halt.stage?, books.step (.launch part), holds⟩
  | @next done system after event solo silent opens ih =>
    obtain ⟨stage?, onward, holds⟩ := ih
    obtain ⟨later, step⟩ := onward.tracks.exists_step opens
    rw [← List.append_assoc]
    by_cases resumed : ∃ place, event = .resume place
    · obtain ⟨place, rfl⟩ := resumed
      obtain ⟨number, stage, answer, stands, waits, told⟩ := step.waits_of_resume
      obtain rfl := Stage.eq_of_alone stands
      rw [Stage.alone_self] at stands
      subst stands
      obtain ⟨halt, host, part, runs, holds⟩ :=
        resumes onward holds (call?_of_waiting waits) told
      obtain rfl := Option.some.inj ((after?_resume waits told runs).symm.trans opens)
      have step := onward.step (.resume (Stage.alone_self ..) waits told part)
      rw [Stage.put_alone] at step
      exact ⟨halt.stage?, step, holds⟩
    · obtain ⟨idle, rfl⟩ := step.idles onward.entered silent fun place same => resumed ⟨place, same⟩
      exact ⟨stage?, onward.step step, idles onward holds idle step⟩

/-! ## The calls of an operation -/

theorem asked_singleton (moment : Moment) : asked [moment] = moment.asked?.toList :=
  asked_append [] moment

theorem heard_launch (operation : Operation) (before after : System Answer) :
    heard [⟨before, .launch operation, after⟩] = [] := rfl

theorem number_of_inquiry? (halt : Halt) (now number : Nat) :
    (halt.inquiry? now number).toList.map Inquiry.number =
      (halt.stage?.map fun _ => number).toList := by
  cases halt <;> rfl

/-- The operation hears of each of its calls before it makes the next one. -/
theorem Solo.numbers (solo : Solo operation before run last)
    (books : Books past before fun _ => none) :
    (asked run).map Inquiry.number = (heard run).map Heard.number ++
      (last.call? before.procedures.length).toList := by
  refine (solo.induct books
    (fun run last _ => (asked run).map Inquiry.number = (heard run).map Heard.number ++
      (last.call? before.procedures.length).toList)
    ?launches ?resumes ?idles).elim fun _ both => both.2
  case launches =>
    obtain ⟨halt, host, part, runs⟩ := operation.run_flow before.host
    refine ⟨halt, host, part, runs, ?_⟩
    rw [asked_singleton, heard_launch, books.entered.asked?_launched, number_of_inquiry?,
      call?_launched]
    rfl
  case resumes =>
    intro done system stage number answer onward numbers waits told
    obtain ⟨halt, host, part, runs⟩ := stage.run_next answer system.host
    refine ⟨halt, host, part, runs, ?_⟩
    rw [asked_append, heard_append, onward.entered.asked?_resumed, call?_resumed waits,
      Moment.heard?_of_resume waits told, List.map_append, List.map_append, numbers, waits,
      number_of_inquiry?]
    rfl
  case idles =>
    intro done system after event stage? _ numbers idle _
    rw [asked_append, heard_append, idle.asked, idle.heard, idle.calls]
    simpa using numbers

/-- What an operation has said and heard so far, and how it has given up control. -/
structure Spoken (place : Nat) (run : List Moment) (system : System Answer)
    (talk : List Exchange) (halt : Halt) : Prop where
  asked : (asked run).map Inquiry.about = talk.map Exchange.about ++ halt.about?.toList
  heard : (heard run).map Heard.answer = talk.map Exchange.answer
  yields : ∀ yield, system.yield? place = some yield → halt = .ended yield

namespace Spoken

variable {talk : List Exchange} {halt later : Halt} {host : Host}

theorem about_of_inquiry? (halt : Halt) (now number : Nat) :
    (halt.inquiry? now number).toList.map Inquiry.about = halt.about?.toList := by
  cases halt <;> rfl

theorem launch (entered : Entered past before) (operation : Operation) (host : Host) (halt : Halt) :
    Spoken before.procedures.length [⟨before, .launch operation, before.launched host halt⟩]
      (before.launched host halt) [] halt where
  asked := by
    rw [asked_singleton, entered.asked?_launched, about_of_inquiry?]
    rfl
  heard := rfl
  yields _ := halt_of_yield? before (List.getElem?_concat_length ..)

theorem idle (spoken : Spoken place run system talk halt) (idle : system.Idles event after) :
    Spoken place (run ++ [⟨system, event, after⟩]) after talk halt where
  asked := by
    rw [asked_append, idle.asked, Option.toList_none, List.append_nil, spoken.asked]
  heard := by
    rw [heard_append, idle.heard, Option.toList_none, List.append_nil, spoken.heard]
  yields yield yields := spoken.yields yield (idle.yields place yield yields)

theorem resume {service : ServiceId} {stage : Stage} {number : Nat} {answer : CallAnswer}
    (spoken : Spoken place run system talk (.waits service stage))
    (entered : Entered (past ++ run) system) (waits : system.call? place = some number)
    (told : system.executor.answer? number = some answer) (host : Host) (later : Halt) :
    Spoken place (run ++ [⟨system, .resume place, system.resumed place number host later⟩])
      (system.resumed place number host later) (talk ++ [⟨service, stage.query, answer⟩])
      later where
  asked := by
    rw [asked_append, entered.asked?_resumed, List.map_append, spoken.asked, about_of_inquiry?,
      List.map_append]
    rfl
  heard := by
    rw [heard_append, Moment.heard?_of_resume waits told, List.map_append, spoken.heard,
      List.map_append]
    rfl
  yields _ := by
    obtain ⟨next, there⟩ := call?_eq_some.mp waits
    have bound := (List.getElem?_eq_some_iff.mp there).1
    exact halt_of_yield? (system.answered number) (List.getElem?_set_self bound)

end Spoken

/-- Work that begins was asked for, and if it is that of a service made since, it was asked for
since. -/
theorem Entered.begun_since {bound : Nat} (entered : Entered (past ++ run) system)
    (known : ∀ inquiry ∈ asked past, inquiry.service < bound) {inquiry : Inquiry}
    (begins : (⟨system, event, after⟩ : Moment).begun? = some inquiry)
    (new : bound ≤ inquiry.service) : inquiry.about ∈ (asked run).map Inquiry.about := by
  obtain ⟨call, served, rfl⟩ := Option.map_eq_some_iff.mp begins
  have running : call ∈ system.executor.running := by
    unfold Moment.served? at served
    split at served
    · exact List.mem_of_getElem? (Option.filter_eq_some_iff.mp served).1
    · cases served
  obtain ⟨own, stands, _, service, query⟩ :=
    entered.hand _ (Executor.mem_hand_of_running running)
  have about : own.about = (call.work.service, call.work.query) := by
    rw [Inquiry.about, ← service, ← query]
  rw [asked, List.filterMap_append, List.mem_append] at stands
  rcases stands with old | since
  · have bounded := known own old
    rw [← service] at bounded
    exact absurd new (Nat.not_le_of_lt bounded)
  · exact List.mem_map.mpr ⟨own, since, about⟩

/-- What a call has come to. -/
def CameTo (moments : List Moment) (inquiry : Inquiry) (exchange : Exchange) : Prop :=
  inquiry.about = exchange.about ∧ ∃ instant, Comes moments instant inquiry exchange.answer ∧
    (Timely moments → instant ≤ inquiry.deadline)

/-- A talk is what the first calls of a run have come to, one after the other. After them comes the
call alone that the operation waits for, if it does. -/
structure Talked (past run : List Moment) (last : System Answer) (place : Nat)
    (talk : List Exchange) (halt : Halt) : Prop where
  calls : List.Forall₂ (CameTo (past ++ run)) ((asked run).take talk.length) talk
  about : ((asked run).drop talk.length).map Inquiry.about = halt.about?.toList
  number : ((asked run).drop talk.length).map Inquiry.number = (last.call? place).toList
  yields : ∀ yield, last.yield? place = some yield → halt = .ended yield

theorem forall₂_cameTo {own : List Inquiry} {told : List Heard} {talk : List Exchange}
    (numbers : own.map Inquiry.number = told.map Heard.number)
    (abouts : own.map Inquiry.about = talk.map Exchange.about)
    (answers : told.map Heard.answer = talk.map Exchange.answer)
    (comes : ∀ inquiry ∈ own, ∀ hears ∈ told, inquiry.number = hears.number →
      Comes moments hears.instant inquiry hears.answer ∧
        (Timely moments → hears.instant ≤ inquiry.deadline)) :
    List.Forall₂ (CameTo moments) own talk := by
  induction talk generalizing own told with
  | nil =>
    rw [List.map_eq_nil_iff.mp abouts]
    exact .nil
  | cons exchange rest ih =>
    obtain ⟨inquiry, own, rfl, about, abouts⟩ := List.map_eq_cons_iff.mp abouts
    obtain ⟨hears, told, rfl, answer, answers⟩ := List.map_eq_cons_iff.mp answers
    obtain ⟨number, numbers⟩ := List.cons_eq_cons.mp numbers
    have first := comes inquiry List.mem_cons_self hears List.mem_cons_self number
    rw [answer] at first
    exact .cons ⟨about, hears.instant, first⟩ (ih numbers abouts answers fun inquiry member hears
      there => comes inquiry (List.mem_cons_of_mem _ member) hears (List.mem_cons_of_mem _ there))

theorem Solo.talked {talk : List Exchange} {halt : Halt}
    (solo : Solo operation before run last) (books : Books past before fun _ => none)
    (entered : Entered (past ++ run) last) (attended : Attended (past ++ run) last)
    (spoken : Spoken before.procedures.length run last talk halt) :
    Talked past run last before.procedures.length talk halt := by
  have numbers := solo.numbers books
  have length : ((heard run).map Heard.number).length = talk.length := by
    simpa using congrArg List.length spoken.heard
  have abouts : ((asked run).take talk.length).map Inquiry.about = talk.map Exchange.about := by
    rw [List.map_take, spoken.asked, List.take_left' (List.length_map _)]
  have own : ((asked run).take talk.length).map Inquiry.number = (heard run).map Heard.number := by
    rw [List.map_take, numbers, List.take_left' length]
  refine ⟨forall₂_cameTo own abouts spoken.heard ?_, ?_, ?_, spoken.yields⟩
  · intro inquiry member hears there same
    have stood : inquiry ∈ asked (past ++ run) := by
      rw [asked, List.filterMap_append]
      exact List.mem_append_right _ (List.mem_of_mem_take member)
    have told : hears ∈ heard (past ++ run) := by
      rw [heard, List.filterMap_append]
      exact List.mem_append_right _ there
    obtain ⟨other, stands, number, comes⟩ := attended.comes hears told
    rwa [entered.eq_of_number stood stands (same.trans number.symm)]
  · rw [List.map_drop, spoken.asked, List.drop_left' (List.length_map _)]
  · rw [List.map_drop, numbers, List.drop_left' length]

/-! ## The end of an operation -/

theorem Solo.terms (solo : Solo operation before run last) :
    terms run = [before.now + operation.calls before.host * callDeadline] := by
  induction solo with
  | launch => rfl
  | next _ silent _ ih => rw [terms_append_of_ne silent, ih]

/-- An operation takes no longer than the calls that it may make. -/
theorem Solo.now_le (solo : Solo operation before run last) (books : Books past before stages)
    (onward : Books (past ++ run) last later) (timely : Timely (past ++ run)) {number : Nat}
    (waits : last.call? before.procedures.length = some number) :
    last.now ≤ before.now + operation.calls before.host * callDeadline := by
  obtain ⟨term, there, soon⟩ := onward.now_le_term timely waits
  have all : System.terms (past ++ run) = System.terms past ++ System.terms run :=
    List.filterMap_append ..
  rw [all, solo.terms, ← books.seated.terms, List.getElem?_concat_length] at there
  exact Option.some.inj there ▸ soon

theorem Solo.onward {more : List Moment} {after : System Answer}
    (solo : Solo operation before run last) (history : History last more after)
    (silent : ∀ moment ∈ more, ∀ other, moment.event ≠ .launch other) :
    Solo operation before (run ++ more) after := by
  induction history with
  | start => rwa [List.append_nil]
  | next _ done ih =>
    rw [← List.append_assoc]
    refine (ih fun moment member => silent moment (List.mem_append_left _ member)).next ?_ done
    exact silent _ (List.mem_append_right _ List.mem_cons_self)

/-- An operation has a way to its end. -/
theorem Solo.returns (solo : Solo operation before run last)
    (onward : Books (past ++ run) last later) :
    ∃ more after, Solo operation before (run ++ more) after ∧ Timely more ∧
      ∀ place, after.call? place = none := by
  obtain ⟨more, after, history, timely, silent, idle⟩ := onward.returns
  exact ⟨more, after, solo.onward history silent, timely, idle⟩

/-! ## The run of an operation that can be computed -/

theorem quiet_of_any (silent : system.procedures.any Progression.waits = false) (place : Nat) :
    system.call? place = none := by
  refine Option.eq_none_iff_forall_ne_some.mpr fun call waits => ?_
  obtain ⟨next, there⟩ := call?_eq_some.mp waits
  have waiting := List.any_eq_false.mp silent _ (List.mem_of_getElem? there)
  simp [Progression.waits] at waiting

/-- What can be seen of an operation and of what came before it, if every moment passes a check. -/
def outline? {α : Type} (check : Moment → Bool) (first : System Answer) (past : List Event)
    (operation : Operation) (events : List Event) (view : System Answer → System Answer → α) :
    Option α :=
  (first.chart? past).bind fun (moments, before) =>
    (before.chart? (.launch operation :: events)).bind fun (run, last) =>
      if (moments ++ run).all check then some (view before last) else none

theorem exists_solo {α : Type} {check : Moment → Bool} {first : System Answer}
    {past events : List Event} {view : System Answer → System Answer → α} {seen : α}
    (saw : outline? check first past operation events view = some seen)
    (silent : events.all (fun event => !event.launches) = true) :
    ∃ moments before run last, History first moments before ∧ Solo operation before run last ∧
      (∀ moment ∈ moments ++ run, check moment = true) ∧ view before last = seen := by
  obtain ⟨⟨moments, before⟩, enters, saw⟩ := Option.bind_eq_some_iff.mp saw
  obtain ⟨⟨run, last⟩, goes, saw⟩ := Option.bind_eq_some_iff.mp saw
  simp only [Option.ite_none_right_eq_some] at saw
  obtain ⟨passes, saw⟩ := saw
  obtain ⟨next, done, goes⟩ := Option.bind_eq_some_iff.mp goes
  obtain ⟨⟨more, _⟩, goes, same⟩ := Option.map_eq_some_iff.mp goes
  cases same
  obtain ⟨onward, same⟩ := History.of_chart? goes
  refine ⟨moments, before, _, last, (History.of_chart? enters).1,
    (Solo.launch done).onward onward ?_, List.all_eq_true.mp passes, Option.some.inj saw⟩
  rintro moment member other launched
  have event := List.all_eq_true.mp silent _ (same ▸ List.mem_map_of_mem member)
  simp [launched, Event.launches] at event

end System
end ServiceHost
