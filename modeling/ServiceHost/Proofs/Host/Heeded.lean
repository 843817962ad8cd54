import ServiceHost.Proofs.Host.Passage

/-! Procedures together with the answers that they go on with.

What a procedure comes to may hang on what its calls were answered. The answers of a run are those
with which the procedure went on, one after the other, and nothing else decides.
-/

set_option autoImplicit false

namespace ServiceHost

namespace Flow

variable {α β : Type} {flow : Flow α} {host : Host}

/-- A statement of what a procedure ends with, after calls that were answered. -/
abbrev Account (α : Type) := List Exchange → α → Host → Prop

/-- Whatever its calls are answered, a procedure ends with an outcome as stated for its calls and
their answers. It does away with no service, and calls none that the host does not have. -/
inductive Heeds {α : Type} : Account α → Flow α → Host → Prop where
  | done {post : Account α} {flow : Flow α} {host last : Host} {result : α} :
      flow.run host = (.done result, last) → host.services.length ≤ last.services.length →
      post [] result last → Heeds post flow host
  | call {post : Account α} {flow : Flow α} {host last : Host} {service : ServiceId}
      {query : Query} {next : CallAnswer → Flow α} :
      flow.run host = (.call service query next, last) →
      host.services.length ≤ last.services.length → service < last.services.length →
      (∀ answer after, last.Works after →
        Heeds (fun talk => post (⟨service, query, answer⟩ :: talk)) (next answer) after) →
      Heeds post flow host

variable {post weaker : Account α}

namespace Heeds

theorem mono (heeds : Heeds post flow host)
    (implies : ∀ talk result last, post talk result last → weaker talk result last) :
    Heeds weaker flow host := by
  induction heeds generalizing weaker with
  | done run grows holds => exact .done run grows (implies _ _ _ holds)
  | call run grows known _ ih =>
    exact .call run grows known fun answer after works =>
      ih answer after works fun talk => implies (_ :: talk)

/-- Only what a procedure does up to its next call matters. -/
theorem of_run {other : Flow α} {start : Host} (same : other.run start = flow.run host)
    (kept : start.services.length ≤ host.services.length) (heeds : Heeds post flow host) :
    Heeds post other start := by
  cases heeds with
  | done run grows holds => exact .done (same.trans run) (Nat.le_trans kept grows) holds
  | call run grows known onward =>
    exact .call (same.trans run) (Nat.le_trans kept grows) known onward

theorem pure {result : α} (holds : post [] result host) : Heeds post (pure result) host :=
  .done rfl (Nat.le_refl _) holds

/-- One procedure behind the other: the calls of the second follow those of the first. -/
theorem bind {next : α → Flow β} {whole : Account β} (heeds : Heeds post flow host)
    (onward : ∀ talk result last, host.services.length ≤ last.services.length →
      post talk result last → Heeds (fun more => whole (talk ++ more)) (next result) last) :
    Heeds whole (flow >>= next) host := by
  induction heeds generalizing whole with
  | @done post flow host last result run grows holds =>
    exact (onward [] result last grows holds).of_run (run_bind_of_done host run next) grows
  | @call post flow host last service query goes run grows known _ ih =>
    have equation := run_bind flow next host
    rw [run] at equation
    refine .call equation grows known fun answer after works => ih answer after works ?_
    intro talk result last more holds
    refine onward _ result last (Nat.le_trans grows ?_) holds
    rwa [works.length_services] at more

/-- What holds of a changed result held before the change. -/
theorem of_map {change : α → β} {whole : Account β}
    (heeds : Heeds whole (change <$> flow) host) :
    Heeds (fun talk result => whole talk (change result)) flow host := by
  generalize mapped : change <$> flow = changed at heeds
  induction heeds generalizing flow with
  | done run grows holds =>
    subst mapped
    rw [run_map] at run
    cases stops : flow.run _ with
    | mk stop last =>
      rw [stops] at run
      cases stop with
      | done => cases run; exact .done stops grows holds
      | call => cases run
  | call run grows known _ ih =>
    subst mapped
    rw [run_map] at run
    cases stops : flow.run _ with
    | mk stop last =>
      rw [stops] at run
      cases stop with
      | done => cases run
      | call =>
        cases run
        exact .call stops grows known fun answer after works => ih answer after works rfl

theorem ensures (heeds : Heeds post flow host) :
    flow.Ensures (fun result last => ∃ talk, post talk result last) host := by
  induction heeds with
  | done run grows holds => exact .done run grows ⟨_, holds⟩
  | call run grows known _ ih =>
    refine .call run grows known fun answer after works => (ih answer after works).mono ?_
    rintro result last ⟨talk, holds⟩
    exact ⟨_, holds⟩

end Heeds

end Flow

namespace System

variable {ρ : Type} {before after last system : System ρ} {event : Event} {place : Nat}
  {answers : List CallAnswer} {flow : Flow (Yield ρ)} {post : Flow.Account (Yield ρ)}

theorem host_launch (system : System ρ) (flow : Flow (Yield ρ)) :
    (system.launch flow).host = (flow.run system.host).2 := by
  unfold launch runFlow
  rcases flow.run system.host with ⟨_ | _, host⟩ <;> rfl

/-- The answer that the procedure in a place goes on with. -/
def told? (system : System ρ) (place : Nat) (event : Event) : Option CallAnswer :=
  match system.procedures[place]? with
  | some (.waiting call _) => if event.resumes place then system.executor.answer? call else none
  | _ => none

/-- What events make of a system, with the answers that the procedure in a place has gone on
with. -/
inductive Hears (place : Nat) (before : System ρ) : List CallAnswer → System ρ → Prop where
  | start : Hears place before [] before
  | next {answers : List CallAnswer} {system after : System ρ} {event : Event} :
      Hears place before answers system → system.onward? event = some after →
      Hears place before (answers ++ (system.told? place event).toList) after

/-- What events make of a system, and the answers on the way, if the events can happen. -/
def hearing? (system : System ρ) (place : Nat) :
    List Event → Option (List CallAnswer × System ρ)
  | [] => some ([], system)
  | event :: rest => (system.onward? event).bind fun next =>
    (next.hearing? place rest).map fun (answers, last) =>
      ((system.told? place event).toList ++ answers, last)

theorem Hears.onward {more : List CallAnswer} (hears : Hears place before answers system)
    (onward : Hears place system more last) : Hears place before (answers ++ more) last := by
  induction onward with
  | start => rwa [List.append_nil]
  | next _ done ih =>
    rw [← List.append_assoc]
    exact ih.next done

theorem hears_of_hearing? {events : List Event}
    (saw : before.hearing? place events = some (answers, last)) :
    Hears place before answers last := by
  induction events generalizing before answers with
  | nil =>
    cases saw
    exact .start
  | cons event rest ih =>
    obtain ⟨next, done, saw⟩ := Option.bind_eq_some_iff.mp saw
    obtain ⟨⟨more, _⟩, saw, same⟩ := Option.map_eq_some_iff.mp saw
    cases same
    exact (Hears.start.next done).onward (ih saw)

/-- A procedure that heeds its answers has done so with those that it was told so far. -/
structure Heeding (post : Flow.Account (Yield ρ)) (place : Nat) (answers : List CallAnswer)
    (system : System ρ) : Prop where
  waits : ∀ call next, system.procedures[place]? = some (.waiting call next) →
    ∃ service query talk, talk.map Exchange.answer = answers ∧
      ∀ answer after, system.host.Works after →
        (next answer).Heeds (fun more => post (talk ++ ⟨service, query, answer⟩ :: more)) after
  yields : ∀ yield, system.procedures[place]? = some (.yielded yield) →
    ∃ past talk, talk.map Exchange.answer = answers ∧ post talk yield past ∧
      past.Works system.host

namespace Heeding

theorem placed {procedures : List (Progression ρ)} {talk : List Exchange}
    (told : talk.map Exchange.answer = answers)
    (heeds : flow.Heeds (fun more => post (talk ++ more)) system.host)
    (here : procedures[place]? = some (system.runFlow flow).1) :
    (system.placed flow procedures).Heeding post place answers := by
  unfold System.placed
  cases heeds with
  | done run _ holds =>
    rw [runFlow_eq_reached run] at here ⊢
    rw [List.append_nil] at holds
    constructor
    · intro call next there
      cases here.symm.trans there
    · intro yield there
      cases here.symm.trans there
      exact ⟨_, talk, told, holds, .refl _⟩
  | call run _ _ onward =>
    rw [runFlow_eq_reached run] at here ⊢
    constructor
    · intro call next there
      cases here.symm.trans there
      exact ⟨_, _, talk, told, onward⟩
    · intro yield there
      cases here.symm.trans there

theorem stills (heeding : before.Heeding post place answers) (stills : before.Stills after) :
    after.Heeding post place answers where
  waits call next there := by
    rcases stills.procedures place with same | ⟨_, taken⟩
    · obtain ⟨service, query, talk, told, heeds⟩ := heeding.waits call next (same.symm.trans there)
      exact ⟨service, query, talk, told, fun answer later works =>
        heeds answer later (stills.works.trans works)⟩
    · cases taken.symm.trans there
  yields yield there := by
    rcases stills.procedures place with same | ⟨_, taken⟩
    · obtain ⟨past, talk, told, holds, works⟩ := heeding.yields yield (same.symm.trans there)
      exact ⟨past, talk, told, holds, works.trans stills.works⟩
    · cases taken.symm.trans there

theorem told?_of_ne (apart : event ≠ .resume place) : before.told? place event = none := by
  have not_own : event.resumes place = false := by
    cases event with
    | resume other => simpa [Event.resumes] using fun same => apart (congrArg _ same)
    | _ => rfl
  unfold told?
  split <;> simp [not_own]

theorem passes {anyhow : Yield ρ → Host → Prop} (under : before.Under anyhow place)
    (heeding : before.Heeding post place answers) (done : before.onward? event = some after) :
    after.Heeding post place (answers ++ (before.told? place event).toList) := by
  by_cases resumes : ∃ other, event = .resume other
  · obtain ⟨other, rfl⟩ := resumes
    obtain ⟨progression, there, resumed⟩ := Option.bind_eq_some_iff.mp done
    cases progression with
    | yielded | taken => cases resumed
    | waiting call next =>
      -- Nobody else waits, so it is this procedure that goes on.
      obtain rfl := under.alone other call next there
      obtain ⟨answer, told, -⟩ := Option.map_eq_some_iff.mp resumed
      cases (Under.onward?_resume there told).symm.trans done
      obtain ⟨service, query, talk, same, heeds⟩ := heeding.waits call next there
      have heard : before.told? other (.resume other) = some answer := by
        simp [told?, there, Event.resumes, told]
      have bound := (List.getElem?_eq_some_iff.mp there).1
      let exchange : Exchange := ⟨service, query, answer⟩
      have told : (talk ++ [exchange]).map Exchange.answer =
          answers ++ (before.told? other (.resume other)).toList := by
        simp [same, heard, exchange]
      have onward : (next answer).Heeds (fun more => post (talk ++ [exchange] ++ more))
          (before.without call).host := by
        simpa [without] using heeds answer _ (.refl _)
      exact placed told onward (List.getElem?_set_self bound)
  · have apart : ∀ other, event ≠ .resume other := fun other same => resumes ⟨other, same⟩
    rw [told?_of_ne (apart place), Option.toList_none, List.append_nil]
    exact heeding.stills (.of_onward? under.orderly done apart)

end Heeding

/-- A procedure that is launched while no other one waits has heeded the answers that it went on
with, once it yields, and comes to its end from wherever it waits. -/
theorem Hears.heeded (calm : before.Calm) (silent : before.Silent)
    (heeds : flow.Heeds post before.host)
    (hears : Hears before.procedures.length (before.launch flow) answers last) :
    last.Under (fun yield now => ∃ talk, post talk yield now) before.procedures.length ∧
      last.Heeding post before.procedures.length answers := by
  induction hears with
  | start =>
    refine ⟨.launch calm silent heeds.ensures, ?_⟩
    have same : before.launch flow =
        before.placed flow (before.procedures ++ [(before.runFlow flow).1]) := by
      simp only [launch, System.placed, procedures_runFlow]
    rw [same]
    have told : ([] : List Exchange).map Exchange.answer = [] := rfl
    exact Heeding.placed told heeds List.getElem?_concat_length
  | next _ done ih =>
    obtain ⟨under, heeding⟩ := ih
    exact ⟨under.passes done, heeding.passes under done⟩

end System

end ServiceHost
