import ServiceHost.Proofs.Host.Kill

/-! What has happened to a host, moment by moment.

A run by itself only tells which events there were. What they did, when, and to which call, is
read off the moments; no stage of a procedure is needed for it.
-/

set_option autoImplicit false

namespace ServiceHost.System

/-- An event, with the system before it and after it. -/
structure Moment where
  before : System Answer
  event : Event
  after : System Answer

inductive History (first : System Answer) : List Moment → System Answer → Prop where
  | start : History first [] first
  | next {moments : List Moment} {system after : System Answer} {event : Event} :
      History first moments system → system.after? event = some after →
      History first (moments ++ [⟨system, event, after⟩]) after

/-- A run, with all its moments. -/
def chart? (system : System Answer) : List Event → Option (List Moment × System Answer)
  | [] => some ([], system)
  | event :: rest => (system.after? event).bind fun next =>
    (next.chart? rest).map fun (moments, last) => (⟨system, event, next⟩ :: moments, last)

variable {first middle system last : System Answer} {past moments more : List Moment}

namespace History

theorem append (history : History first past middle) (onward : History middle moments last) :
    History first (past ++ moments) last := by
  induction onward with
  | start => rwa [List.append_nil]
  | next _ done ih =>
    rw [← List.append_assoc]
    exact ih.next done

/-- A history is a run of which nothing was forgotten. -/
theorem of_runs? {events : List Event} (runs : first.runs? events = some last) :
    ∃ moments, History first moments last ∧ moments.map Moment.event = events := by
  induction events generalizing first with
  | nil =>
    cases runs
    exact ⟨[], .start, rfl⟩
  | cons event rest ih =>
    obtain ⟨next, done, runs⟩ := Option.bind_eq_some_iff.mp runs
    obtain ⟨moments, onward, same⟩ := ih runs
    refine ⟨⟨first, event, next⟩ :: moments, (History.start.next done).append onward, ?_⟩
    rw [List.map_cons, same]

theorem of_chart? {events : List Event} (charts : first.chart? events = some (moments, last)) :
    History first moments last ∧ moments.map Moment.event = events := by
  induction events generalizing first moments with
  | nil =>
    cases charts
    exact ⟨.start, rfl⟩
  | cons event rest ih =>
    obtain ⟨next, done, charts⟩ := Option.bind_eq_some_iff.mp charts
    obtain ⟨⟨more, _⟩, goes, same⟩ := Option.map_eq_some_iff.mp charts
    cases same
    obtain ⟨onward, same⟩ := ih goes
    exact ⟨(History.start.next done).append onward, congrArg (event :: ·) same⟩

theorem reaches (history : History first moments last) :
    Reaches first (moments.map Moment.event) last := by
  induction history with
  | start => exact .start
  | next _ done ih =>
    rw [List.map_append]
    exact ih.next done

/-- What holds at first, and is kept by every step, holds at the end of a history. -/
theorem induct (history : History first moments last)
    (Holds : List Moment → System Answer → (Nat → Option Stage) → Prop)
    {stages : Nat → Option Stage}
    (tracks : first.Tracks stages) (holds : Holds [] first stages)
    (keeps : ∀ {past : List Moment} {before after : System Answer} {event : Event}
      {stages later : Nat → Option Stage}, History first past before →
      before.after? event = some after → before.Tracks stages →
      before.Step stages event after later → Holds past before stages →
      Holds (past ++ [⟨before, event, after⟩]) after later) :
    ∃ later, last.Tracks later ∧ Holds moments last later := by
  induction history with
  | start => exact ⟨stages, tracks, holds⟩
  | next history done ih =>
    obtain ⟨stages, tracks, holds⟩ := ih
    obtain ⟨later, step⟩ := tracks.exists_step done
    exact ⟨later, tracks.step step, keeps history done tracks step holds⟩

end History

/-! ## Histories that keep to their deadlines -/

/-- Whether nobody could go on: no procedure has an answer, and every call that has a permit has
begun. -/
def rests (system : System Answer) : Bool :=
  system.procedures.all (fun
    | .waiting call _ => (system.executor.answer? call).isNone
    | _ => true) &&
  system.executor.running.all fun call => !call.work.phase.isFresh

/-- Whether an event may happen now. A deadline that has come is answered before anything else
happens; time passes only while everybody rests, and never beyond a deadline. -/
def keepsTime (system : System Answer) : Event → Bool
  | .expire => true
  | .wait instant =>
    !system.executor.overdue system.now && system.rests &&
      system.executor.deadline?.all fun deadline => instant ≤ deadline
  | _ => !system.executor.overdue system.now

/-- A history in which every event came at a time at which it may. -/
def Timely (moments : List Moment) : Prop :=
  ∀ moment ∈ moments, moment.before.keepsTime moment.event = true

theorem Timely.of_append {moment : Moment} (timely : Timely (moments ++ [moment])) :
    Timely moments ∧ moment.before.keepsTime moment.event = true :=
  ⟨fun earlier member => timely earlier (List.mem_append_left _ member),
    timely moment (List.mem_append_right _ List.mem_cons_self)⟩

end ServiceHost.System
