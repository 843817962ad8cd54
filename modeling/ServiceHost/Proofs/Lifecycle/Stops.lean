import ServiceHost.Proofs.Lifecycle.Advances

/-! What becomes of stops that have found a run.

A stop gives up the lock between its request and its end. In between, other stops may
end, a kill may clear the machine, and another run may begin. The generation keeps all
of these apart: the end of a stop touches the run that it has asked to stop and no
other, and its answer says whether that run has ended within the grace.
-/

set_option autoImplicit false

namespace ServiceHost

/-- A stop that has found a run and asked it to stop. -/
structure Stop where
  generation : Nat
  /-- The instant of the request. -/
  asked : Nat
  answer : Option (Except LifecycleError Unit)

namespace Stop

/-- The end of the grace. -/
def expires (stop : Stop) : Nat := stop.asked + stopGrace

def timedOut : LifecycleError := .stopTimedOut (.ofMillis stopGrace)

end Stop

/-- A lifecycle in the hands of many callers, with all stops so far that have found a run, oldest
request first. -/
structure Attended where
  now : Nat
  lifecycle : Lifecycle
  stops : List Stop

namespace Attended

def fresh : Attended := ⟨0, .fresh, []⟩

inductive Event where
  /-- A stop finds the run of a generation. -/
  | ask (generation : Nat)
  /-- The stop at a place gets its answer. -/
  | finish (place : Nat) (answer : Except LifecycleError Unit)
  | aside (deed : Shared.Deed)

def reply (attended : Attended) (place : Nat) (stop : Stop) (answer : Except LifecycleError Unit)
    (lifecycle : Lifecycle) : Attended :=
  { attended with
    lifecycle
    stops := attended.stops.set place { stop with answer := some answer } }

inductive Step : Attended → Event → Attended → Prop where
  | ask {before : Attended} {generation : Nat} {after : Lifecycle} :
      before.lifecycle.locked Lifecycle.requestStop = (.ok (some generation), after) →
      Step before (.ask generation) { before with
        lifecycle := after
        stops := before.stops ++ [⟨generation, before.now, none⟩] }
  | complete {before : Attended} {place : Nat} {stop : Stop} {exit : Exit}
      {answer : Except LifecycleError Unit} {after : Lifecycle} :
      before.stops[place]? = some stop → stop.answer = none →
      before.lifecycle.stopAnswer stop.generation stop.expires before.now = some (some exit) →
      before.lifecycle.locked (Lifecycle.completeStop stop.generation exit) = (answer, after) →
      Step before (.finish place answer) (before.reply place stop answer after)
  | giveUp {before : Attended} {place : Nat} {stop : Stop} :
      before.stops[place]? = some stop → stop.answer = none →
      before.lifecycle.stopAnswer stop.generation stop.expires before.now = some none →
      Step before (.finish place (.error Stop.timedOut))
        (before.reply place stop (.error Stop.timedOut) before.lifecycle)
  /-- All else passes by those who wait, whoever they are. -/
  | aside {before : Attended} {deed : Shared.Deed} {now : Nat} {after : Lifecycle} :
      (∀ stops, Shared.Step ⟨before.now, before.lifecycle, stops⟩ deed ⟨now, after, stops⟩) →
      Step before (.aside deed) ⟨now, after, before.stops⟩

theorem Step.start {before : Attended} {answer : Except LifecycleError Nat} {after : Lifecycle}
    (done : before.lifecycle.locked Lifecycle.start = (answer, after)) :
    Step before (.aside (.start answer)) { before with lifecycle := after } :=
  .aside fun stops => @Shared.Step.start ⟨_, _, stops⟩ _ _ done

theorem Step.record {before : Attended} {generation : Nat} {run : Watched}
    (found : before.lifecycle.run? generation = some run) :
    Step before (.aside (.record generation))
      { before with lifecycle := before.lifecycle.updateRun generation Watched.observe } :=
  .aside fun stops => @Shared.Step.record ⟨_, _, stops⟩ _ run found

theorem Step.kill (before : Attended) :
    Step before (.aside .kill) { before with lifecycle := before.lifecycle.kill } :=
  .aside fun stops => .kill ⟨_, _, stops⟩

structure Moment where
  before : Attended
  event : Event
  after : Attended

/-- The runs from the creation of a lifecycle on, moment by moment. -/
inductive Run : List Moment → Attended → Prop where
  | start : Run [] fresh
  | next {history : List Moment} {present after : Attended} {event : Event} :
      Run history present → Step present event after →
      Run (history ++ [⟨present, event, after⟩]) after

/-- The run of a generation ended at an instant, in whatever way. -/
def EndedAt (history : List Moment) (generation instant : Nat) : Prop :=
  ∃ moment ∈ history, moment.before.now = instant ∧
    moment.before.lifecycle.isFinished generation = false ∧
    moment.after.lifecycle.isFinished generation = true

/-- No kill came and no run began since the request of the stop at a place. -/
def Undisturbed (history : List Moment) (place : Nat) : Prop :=
  ∀ moment ∈ history, place < moment.before.stops.length →
    moment.event ≠ .aside .kill ∧ ∀ generation, moment.event ≠ .aside (.start (.ok generation))

/-- Something is left to do that takes no time: a watcher has an end to record, or a stop can be
answered. -/
def Ready (attended : Attended) (instant : Nat) : Prop :=
  (∃ run ∈ attended.lifecycle.runs, run.unseen = true) ∨
    ∃ stop ∈ attended.stops, stop.answer = none ∧
      (attended.lifecycle.stopAnswer stop.generation stop.expires instant).isSome = true

/-- Time has passed no instant at which something was left to do. -/
def Prompt (history : List Moment) : Prop :=
  ∀ moment ∈ history, ∀ millis, moment.event = .aside (.wait millis) →
    ∀ spent < millis, ¬ moment.before.Ready (moment.before.now + spent)

/-- The answer that a stop has got by now, from the end of the run that it has asked to stop. -/
structure Justified (stop : Stop) (history : List Moment) (now : Nat) : Prop where
  succeeds : ∀ instant < stop.expires, EndedAt history stop.generation instant →
    stop.answer = some (.ok ())
  fails : stop.expires ≤ now →
    (∀ instant, EndedAt history stop.generation instant → stop.expires < instant) →
      stop.answer = some (.error Stop.timedOut)
  waits : now < stop.expires → (∀ instant, ¬ EndedAt history stop.generation instant) →
    stop.answer = none
  /-- An end at the very instant at which the grace is over comes before the answer or after it. -/
  ties : EndedAt history stop.generation stop.expires →
    stop.answer = some (.ok ()) ∨ stop.answer = some (.error Stop.timedOut)

/-- What the answer of a stop tells of the end of its run. -/
def Truthful (stop : Stop) (history : List Moment) (now : Nat) : Prop :=
  match stop.answer with
  | some (.ok _) => ∃ instant ≤ stop.expires, EndedAt history stop.generation instant
  | some (.error refusal) =>
    refusal = Stop.timedOut ∧ stop.expires ≤ now ∧
      ¬ ∃ instant < stop.expires, EndedAt history stop.generation instant
  | none => now < stop.expires ∧ ¬ ∃ instant, EndedAt history stop.generation instant

variable {before after present : Attended} {event : Event} {history : List Moment}

/-! ## Soundness -/

/-- A stop that is there after a step was there before, got its answer in the step, or has just made
its request. -/
theorem Step.stop_cases (step : Step before event after) {place : Nat} {stop : Stop}
    (there : after.stops[place]? = some stop) :
    before.stops[place]? = some stop ∨
      (∃ former answer, event = .finish place answer ∧ before.stops[place]? = some former ∧
        stop = { former with answer := some answer }) ∨
      ∃ generation, event = .ask generation ∧ place = before.stops.length ∧
        stop = ⟨generation, before.now, none⟩ := by
  cases step with
  | ask =>
    rw [List.getElem?_append] at there
    split at there
    · exact .inl there
    · obtain ⟨bound, same⟩ := List.getElem?_eq_some_iff.mp there
      simp only [List.length_singleton] at bound
      exact .inr (.inr ⟨_, rfl, by omega, by simpa using same.symm⟩)
  | complete found | giveUp found =>
    simp only [reply, List.getElem?_set] at there
    split at there
    · rename_i same
      subst same
      split at there <;> cases there
      exact .inr (.inl ⟨_, _, rfl, found, rfl⟩)
    · exact .inl there
  | aside => exact .inl there

/-- The run that each stop waits for, or has waited for, and until when. -/
def waits (attended : Attended) : List (Nat × Nat) :=
  attended.stops.map fun stop => (stop.generation, stop.expires)

@[simp] theorem waits_reply {place : Nat} {stop : Stop} (there : before.stops[place]? = some stop)
    (answer : Except LifecycleError Unit) (lifecycle : Lifecycle) :
    (before.reply place stop answer lifecycle).waits = before.waits := by
  obtain ⟨bound, rfl⟩ := List.getElem?_eq_some_iff.mp there
  have bound : place < before.waits.length := by simpa [waits] using bound
  calc (before.reply place before.stops[place] answer lifecycle).waits
      = before.waits.set place before.waits[place] := by
        simp [waits, reply, List.map_set, Stop.expires]
    _ = before.waits := List.set_getElem_self bound

structure Sound (attended : Attended) : Prop where
  shared : Shared.Sound ⟨attended.now, attended.lifecycle, attended.waits⟩
  /-- Every stop has found a run. -/
  found : ∀ stop ∈ attended.stops, ∃ run, attended.lifecycle.run? stop.generation = some run

namespace Sound

theorem machine (sound : before.Sound) : before.lifecycle.Sound := sound.shared.machine

theorem asked (sound : before.Sound) {stop : Stop} (member : stop ∈ before.stops) :
    before.lifecycle.stopRequested stop.generation = true :=
  sound.shared.asked _
    (List.mem_map_of_mem (f := fun stop => (stop.generation, stop.expires)) member)

/-- What the end of a stop does: nothing at all, unless the run that it has asked to stop is still
the present one and has ended. -/
theorem finish_cases (sound : before.Sound) {place : Nat} {answer : Except LifecycleError Unit}
    (step : Step before (.finish place answer) after) :
    ∃ stop lifecycle, before.stops[place]? = some stop ∧ stop.answer = none ∧
      after = before.reply place stop answer lifecycle ∧
      (answer = .ok () ∧ before.lifecycle.recorded stop.generation = true ∧
          (before.lifecycle.task ≠ some stop.generation ∧ lifecycle = before.lifecycle ∨
            before.lifecycle.task = some stop.generation ∧
              ∃ exit, lifecycle = before.lifecycle.released exit) ∨
        answer = .error Stop.timedOut ∧ before.lifecycle.recorded stop.generation = false ∧
          stop.expires ≤ before.now ∧ lifecycle = before.lifecycle) := by
  cases step with
  | @complete _ stop exit _ lifecycle there open_ told done =>
    have member := List.mem_of_getElem? there
    obtain ⟨run, found⟩ := sound.found stop member
    refine ⟨stop, lifecycle, there, open_, rfl, .inl ?_⟩
    have recorded : before.lifecycle.recorded stop.generation = true := by
      rw [Lifecycle.stopAnswer_of_run? found] at told
      split at told
      · simp [Lifecycle.recorded, *]
      · split at told <;> cases told
    obtain ⟨rfl, ⟨other, rfl⟩ | ⟨task, rfl⟩⟩ :=
      sound.machine.completeStop_cases (sound.asked member) done
    · exact ⟨rfl, recorded, .inl ⟨other, rfl⟩⟩
    · exact ⟨rfl, recorded, .inr ⟨task, exit, rfl⟩⟩
  | @giveUp _ stop there open_ told =>
    obtain ⟨run, found⟩ := sound.found stop (List.mem_of_getElem? there)
    refine ⟨stop, before.lifecycle, there, open_, rfl, .inr ⟨rfl, ?_⟩⟩
    rw [Lifecycle.stopAnswer_of_run? found] at told
    split at told
    · cases told
    · split at told
      · exact ⟨by simp [Lifecycle.recorded, *], by assumption, rfl⟩
      · cases told

theorem ask_cases (sound : before.Sound) {generation : Nat}
    (step : Step before (.ask generation) after) :
    before.lifecycle.task = some generation ∧
      after = { before with
        lifecycle := before.lifecycle.braked generation
        stops := before.stops ++ [⟨generation, before.now, none⟩] } := by
  cases step with
  | ask done =>
    rcases sound.machine.requestStop_cases done with ⟨_, none, _⟩ | ⟨_, task, same, rfl⟩
    · cases none
    · cases same
      exact ⟨task, rfl⟩

theorem advances (sound : before.Sound) (step : Step before event after) :
    Advances before.lifecycle.runs after.lifecycle.runs := by
  cases event with
  | ask generation =>
    obtain ⟨_, rfl⟩ := sound.ask_cases step
    exact .same
  | finish place answer =>
    obtain ⟨_, _, _, _, rfl, ⟨_, _, ⟨_, rfl⟩ | ⟨_, _, rfl⟩⟩ | ⟨_, _, _, rfl⟩⟩ :=
      sound.finish_cases step <;> exact .same
  | aside deed =>
    cases step with
    | aside alone => exact sound.shared.advances (alone _)

theorem step (sound : before.Sound) (step : Step before event after) : after.Sound := by
  refine ⟨?_, fun stop member => ?_⟩
  · cases step with
    | ask done =>
      have shared := sound.shared.step (.requestStop done)
      simpa [waits, Shared.waiting, Stop.expires] using shared
    | @complete place stop exit answer lifecycle there _ told done =>
      rw [waits_reply there]
      -- The stop stands in front of all others, and leaves them as they are when it ends.
      have front : Shared.Sound ⟨before.now, before.lifecycle,
          (stop.generation, stop.expires) :: before.waits⟩ :=
        ⟨sound.machine, List.forall_mem_cons.mpr
          ⟨sound.asked (List.mem_of_getElem? there), sound.shared.asked⟩⟩
      exact front.step (@Shared.Step.completeStop _ 0 _ _ exit _ _ rfl told done)
    | giveUp there => rw [waits_reply there]; exact sound.shared
    | aside alone => exact sound.shared.step (alone _)
  · have old : ∃ run, before.lifecycle.run? stop.generation = some run := by
      obtain ⟨place, there⟩ := List.mem_iff_getElem?.mp member
      rcases step.stop_cases there with
        here | ⟨former, _, _, here, rfl⟩ | ⟨generation, rfl, _, rfl⟩
      · exact sound.found stop (List.mem_of_getElem? here)
      · exact sound.found former (List.mem_of_getElem? here)
      · exact sound.machine.exists_run_of_task (sound.ask_cases step).1
    obtain ⟨run, found⟩ := old
    obtain ⟨next, there, _⟩ := (sound.advances step).run? found
    exact ⟨next, there⟩

end Sound

theorem Run.sound (run : Run history present) : present.Sound := by
  induction run with
  | start =>
    exact ⟨⟨Lifecycle.sound_fresh, fun _ member => (by cases member)⟩,
      fun _ member => (by cases member)⟩
  | next _ step ih => exact ih.step step

/-! ## Which run a stop is about -/

/-- Only a kill or a start puts something else in the place of the present run while no stop
ends. -/
theorem task_of_aside {deed : Shared.Deed} {now : Nat} {lifecycle : Lifecycle}
    (alone : ∀ stops,
      Shared.Step ⟨before.now, before.lifecycle, stops⟩ deed ⟨now, lifecycle, stops⟩)
    (sound : before.Sound) (kill : deed ≠ .kill)
    (start : ∀ generation, deed ≠ .start (.ok generation)) :
    lifecycle.task = before.lifecycle.task := by
  generalize reached : (⟨now, lifecycle, []⟩ : Shared) = after
  have step := alone []
  rw [reached] at step
  cases step with
  | start done =>
    cases reached
    rcases Lifecycle.start_cases done with ⟨_, _, rfl⟩ | ⟨_, rfl, _⟩
    · rfl
    · exact absurd rfl (start _)
  | pause done =>
    cases reached
    rcases Lifecycle.pause_cases done with ⟨_, _, rfl⟩ | ⟨_, _, rfl⟩ <;> rfl
  | resume done =>
    cases reached
    rcases Lifecycle.resume_cases done with ⟨_, _, rfl⟩ | ⟨_, _, rfl⟩ <;> rfl
  | requestStop done =>
    rcases sound.machine.requestStop_cases done with ⟨_, _, rfl⟩ | ⟨_, _, _, rfl⟩ <;>
      simp only [Shared.mk.injEq] at reached <;> rw [reached.2.1]
    rfl
  | completeStop waits | giveUp waits => cases waits
  | kill => exact absurd rfl kill
  | endRun | record | wait => cases reached; rfl

/-- As long as nothing disturbs a stop, its run is the present one or has its end recorded. -/
theorem Run.undisturbed (run : Run history present) {place : Nat} {stop : Stop}
    (there : present.stops[place]? = some stop) (calm : Undisturbed history place) :
    present.lifecycle.task = some stop.generation ∨
      present.lifecycle.recorded stop.generation = true := by
  induction run generalizing stop with
  | start => cases there
  | @next history present after event run step ih =>
    have calm_before : Undisturbed history place :=
      fun moment member => calm moment (List.mem_append_left _ member)
    have sound := run.sound
    have advances := sound.advances step
    have former : event = .ask stop.generation ∨
        ∃ former, present.stops[place]? = some former ∧ former.generation = stop.generation := by
      rcases step.stop_cases there with here | ⟨former, _, _, here, rfl⟩ | ⟨_, asks, _, rfl⟩
      · exact .inr ⟨stop, here, rfl⟩
      · exact .inr ⟨former, here, rfl⟩
      · exact .inl asks
    rcases former with rfl | ⟨former, here, same⟩
    · obtain ⟨task, rfl⟩ := sound.ask_cases step
      exact .inl task
    · rw [← same]
      rcases ih here calm_before with task | recorded
      · cases event with
        | ask =>
          obtain ⟨_, rfl⟩ := sound.ask_cases step
          exact .inl task
        | finish =>
          obtain ⟨_, _, _, _, rfl, ⟨_, told, ⟨_, rfl⟩ | ⟨ended, _, rfl⟩⟩ | ⟨_, _, _, rfl⟩⟩ :=
            sound.finish_cases step
          · exact .inl task
          -- Another stop can end for the present run only after the record of its end.
          · exact .inr (Option.some.inj (task.symm.trans ended) ▸ told)
          · exact .inl task
        | aside deed =>
          obtain ⟨kill, start⟩ := calm _ (List.mem_append_right _ (List.mem_singleton_self _))
            (List.getElem?_eq_some_iff.mp here).1
          cases step with
          | aside alone =>
            refine .inl ((task_of_aside alone sound ?_ ?_).trans task)
            · exact fun equal => kill (congrArg _ equal)
            · exact fun generation equal => start generation (congrArg _ equal)
      · exact .inr (advances.recorded recorded)

/-! ## When runs end -/

/-- A run that has ended did so at some moment. -/
theorem Run.exists_endedAt (run : Run history present) {generation : Nat} {ended : Watched}
    (found : present.lifecycle.run? generation = some ended) (finished : ended.isFinished = true) :
    ∃ instant, EndedAt history generation instant := by
  induction run generalizing ended with
  | start => cases generation <;> simp [Lifecycle.run?, fresh, Lifecycle.fresh] at found
  | @next history present after event run step ih =>
    rcases (run.sound.advances step).ends found finished with going | ⟨former, there, before⟩
    · refine ⟨present.now, _, List.mem_append_right _ (List.mem_singleton_self _), rfl, going, ?_⟩
      rw [Lifecycle.isFinished_of_run? found, finished]
    · obtain ⟨instant, moment, member, facts⟩ := ih there before
      exact ⟨instant, moment, List.mem_append_left _ member, facts⟩

theorem endedAt_append {history more : List Moment} {generation instant : Nat} :
    EndedAt (history ++ more) generation instant ↔
      EndedAt history generation instant ∨ EndedAt more generation instant := by
  simp only [EndedAt, List.mem_append, or_and_right, exists_or]

theorem Step.now_le (step : Step before event after) : before.now ≤ after.now := by
  cases step with
  | ask | complete | giveUp => exact Nat.le_refl _
  | aside alone => exact (alone []).now_le

/-- A run that ended before now is over now. -/
theorem Run.over_of_endedAt (run : Run history present) {generation instant : Nat}
    (ended : EndedAt history generation instant) :
    instant ≤ present.now ∧
      ∃ ended, present.lifecycle.run? generation = some ended ∧ ended.isFinished = true := by
  induction run with
  | start => obtain ⟨_, member, _⟩ := ended; cases member
  | @next history present after event run step ih =>
    have advances := run.sound.advances step
    rcases endedAt_append.mp ended with earlier | ⟨moment, member, rfl, going, finished⟩
    · obtain ⟨bound, former, there, ended⟩ := ih earlier
      obtain ⟨next, found, kept, _⟩ := advances.run? there
      exact ⟨Nat.le_trans bound step.now_le, next, found, kept ended⟩
    · rw [List.mem_singleton.mp member] at going finished ⊢
      obtain ⟨former, there, _⟩ := Lifecycle.exists_run_of_not_finished going
      obtain ⟨next, found, _⟩ := advances.run? there
      exact ⟨step.now_le, next, found, by rwa [Lifecycle.isFinished_of_run? found] at finished⟩

/-! ## Stops in time -/

theorem Ready.of_told (sound : present.Sound) {stop : Stop} (member : stop ∈ present.stops)
    (open_ : stop.answer = none) {instant : Nat}
    (told : present.lifecycle.recorded stop.generation = true ∨ stop.expires ≤ instant) :
    present.Ready instant := by
  refine .inr ⟨stop, member, open_, ?_⟩
  obtain ⟨run, found⟩ := sound.found stop member
  rw [Lifecycle.stopAnswer_of_run? found]
  rcases told with recorded | finished
  · simp only [Lifecycle.recorded, found, Option.bind_some] at recorded
    obtain ⟨exit, told⟩ := Option.isSome_iff_exists.mp recorded
    simp [told]
  · cases run.told <;> simp [finished]

theorem recorded_of_not_ready (sound : present.Sound) {instant : Nat}
    (rest : ¬ present.Ready instant) {generation : Nat} {run : Watched}
    (found : present.lifecycle.run? generation = some run) (finished : run.isFinished = true) :
    present.lifecycle.recorded generation = true := by
  have seen : run.unseen = false := by
    cases generation with
    | zero => cases found
    | succ index =>
      rw [Lifecycle.run?_succ] at found
      exact Bool.eq_false_iff.mpr fun unseen =>
        rest (.inl ⟨run, List.mem_of_getElem? found, unseen⟩)
  have told := (sound.machine.honest_of_run? found).told_of_seen finished seen
  simpa [Lifecycle.recorded, found] using told

/-- The clock moves in a wait and in nothing else. -/
theorem Step.wait_of_lt (step : Step before event after) (later : before.now < after.now) :
    ∃ millis, event = .aside (.wait millis) ∧
      after = { before with now := before.now + millis } := by
  cases step with
  | ask | complete | giveUp => exact absurd later (Nat.lt_irrefl _)
  | @aside deed now lifecycle alone =>
    generalize reached : (⟨now, lifecycle, []⟩ : Shared) = after
    have step := alone []
    rw [reached] at step
    cases step with
    | wait => cases reached; exact ⟨_, rfl, rfl⟩
    | completeStop waits | giveUp waits => cases waits
    | _ =>
      simp only [Shared.mk.injEq] at reached
      exact absurd later (by simp [reached.1])

/-- What holds of stops and ends of runs as long as time passes only when nothing is left to do. -/
structure Punctual (history : List Moment) (present : Attended) : Prop where
  recorded : ∀ generation instant, EndedAt history generation instant → instant < present.now →
    present.lifecycle.recorded generation = true
  waiting : ∀ stop ∈ present.stops, stop.answer = none → present.now ≤ stop.expires
  answered : ∀ stop ∈ present.stops, stop.answer.isSome = true →
    Truthful stop history present.now

theorem Truthful.later {stop : Stop} {more : List Moment} {now later : Nat}
    (truthful : Truthful stop history now) (answered : stop.answer.isSome = true)
    (order : now ≤ later)
    (fresh : ∀ instant, EndedAt more stop.generation instant → now ≤ instant) :
    Truthful stop (history ++ more) later := by
  unfold Truthful at *
  split at truthful
  · obtain ⟨instant, bound, ended⟩ := truthful
    exact ⟨instant, bound, endedAt_append.mpr (.inl ended)⟩
  · obtain ⟨same, late, never⟩ := truthful
    refine ⟨same, Nat.le_trans late order, ?_⟩
    rintro ⟨instant, early, ended⟩
    rcases endedAt_append.mp ended with old | new
    · exact never ⟨instant, early, old⟩
    · have := fresh instant new
      omega
  · simp_all

theorem endedAt_singleton {moment : Moment} {generation instant : Nat}
    (ended : EndedAt [moment] generation instant) :
    moment.before.now = instant ∧ moment.before.lifecycle.isFinished generation = false ∧
      moment.after.lifecycle.isFinished generation = true := by
  obtain ⟨_, member, facts⟩ := ended
  rwa [List.mem_singleton.mp member] at facts

theorem Punctual.step (punctual : Punctual history present) (run : Run history present)
    (step : Step present event after)
    (prompt : ∀ millis, event = .aside (.wait millis) →
      ∀ spent < millis, ¬ present.Ready (present.now + spent)) :
    Punctual (history ++ [⟨present, event, after⟩]) after where
  recorded := by
    intro generation instant ended passed
    have advances := run.sound.advances step
    rcases endedAt_append.mp ended with old | new
    · by_cases early : instant < present.now
      · exact advances.recorded (punctual.recorded generation instant old early)
      -- Time passes over an end of this instant only after it was recorded.
      · obtain ⟨bound, former, found, finished⟩ := run.over_of_endedAt old
        obtain ⟨millis, waits, rfl⟩ := step.wait_of_lt (by omega)
        have rest := prompt millis waits 0 (by simp at passed; omega)
        exact recorded_of_not_ready run.sound rest found finished
    · obtain ⟨rfl, going, finished⟩ := endedAt_singleton new
      obtain ⟨_, _, rfl⟩ := step.wait_of_lt passed
      exact absurd (going.symm.trans finished) Bool.false_ne_true
  waiting := by
    intro stop member open_
    obtain ⟨place, there⟩ := List.mem_iff_getElem?.mp member
    rcases step.stop_cases there with here | ⟨_, _, _, _, rfl⟩ | ⟨generation, rfl, _, rfl⟩
    · have here := List.mem_of_getElem? here
      have bound := punctual.waiting stop here open_
      by_cases passed : present.now < after.now
      · obtain ⟨millis, waits, rfl⟩ := step.wait_of_lt passed
        -- At the end of the grace there is an answer, and the clock does not go beyond it.
        refine Nat.le_of_not_lt fun beyond => ?_
        refine prompt millis waits (stop.expires - present.now) (by simp at beyond; omega) ?_
        exact .of_told run.sound here open_ (.inr (by omega))
      · exact Nat.le_trans (Nat.le_of_not_lt passed) bound
    · cases open_
    · obtain ⟨_, rfl⟩ := run.sound.ask_cases step
      exact Nat.le_add_right ..
  answered := by
    intro stop member answered
    obtain ⟨place, there⟩ := List.mem_iff_getElem?.mp member
    have fresh : ∀ instant, EndedAt [⟨present, event, after⟩] stop.generation instant →
        present.now ≤ instant := fun _ ended => Nat.le_of_eq (endedAt_singleton ended).1
    rcases step.stop_cases there with here | ⟨former, answer, rfl, here, rfl⟩ | ⟨_, _, _, rfl⟩
    · have truthful := punctual.answered stop (List.mem_of_getElem? here) answered
      exact truthful.later answered step.now_le fresh
    · obtain ⟨other, lifecycle, same, open_, rfl, outcome⟩ := run.sound.finish_cases step
      cases here.symm.trans same
      have here := List.mem_of_getElem? here
      have truthful : Truthful { former with answer := some answer } history present.now := by
        rcases outcome with ⟨rfl, recorded, _⟩ | ⟨rfl, unrecorded, expired, _⟩
        · obtain ⟨_, found, finished⟩ := run.sound.machine.over_of_recorded recorded
          obtain ⟨instant, ended⟩ := run.exists_endedAt found finished
          have bound := punctual.waiting former here open_
          exact ⟨instant, Nat.le_trans (run.over_of_endedAt ended).1 bound, ended⟩
        · refine ⟨rfl, expired, ?_⟩
          rintro ⟨instant, early, ended⟩
          have recorded := punctual.recorded _ instant ended (Nat.lt_of_lt_of_le early expired)
          exact absurd (unrecorded.symm.trans recorded) Bool.false_ne_true
      exact truthful.later answered step.now_le fresh
    · cases answered

theorem Run.punctual (run : Run history present) (prompt : Prompt history) :
    Punctual history present := by
  induction run with
  | start =>
    refine ⟨?_, fun _ member => (by cases member), fun _ member => (by cases member)⟩
    rintro _ _ ⟨_, member, _⟩
    cases member
  | next run step ih =>
    have before := ih fun moment member => prompt moment (List.mem_append_left _ member)
    exact before.step run step
      (prompt _ (List.mem_append_right _ (List.mem_singleton_self _)))

/-- Once nothing is left to do at an instant, a stop that still waits has reason to. -/
theorem Run.truthful (run : Run history present) (prompt : Prompt history)
    (rest : ¬ present.Ready present.now) {stop : Stop} (member : stop ∈ present.stops) :
    Truthful stop history present.now := by
  cases open_ : stop.answer with
  | some answer => exact (run.punctual prompt).answered stop member (by simp [open_])
  | none =>
    unfold Truthful
    rw [open_]
    refine ⟨Nat.lt_of_not_le fun late => rest (.of_told run.sound member open_ (.inr late)), ?_⟩
    rintro ⟨instant, ended⟩
    obtain ⟨_, _, found, finished⟩ := run.over_of_endedAt ended
    have recorded := recorded_of_not_ready run.sound rest found finished
    exact rest (.of_told run.sound member open_ (.inl recorded))

theorem Truthful.justified {stop : Stop} {now : Nat} (truthful : Truthful stop history now) :
    Justified stop history now := by
  unfold Truthful at truthful
  split at truthful
  · rename_i succeeded
    obtain ⟨instant, bound, ended⟩ := truthful
    exact {
      succeeds := fun _ _ _ => succeeded
      fails := fun _ late => absurd (late instant ended) (Nat.not_lt_of_le bound)
      waits := fun _ never => absurd ended (never instant)
      ties := fun _ => .inl succeeded }
  · rename_i refusal failed
    obtain ⟨rfl, late, never⟩ := truthful
    exact {
      succeeds := fun instant early ended => absurd ⟨instant, early, ended⟩ never
      fails := fun _ _ => failed
      waits := fun left => absurd late (Nat.not_le_of_lt left)
      ties := fun _ => .inr failed }
  · rename_i open_
    obtain ⟨left, never⟩ := truthful
    exact {
      succeeds := fun instant _ ended => absurd ⟨instant, ended⟩ never
      fails := fun late => absurd late (Nat.not_le_of_lt left)
      waits := fun _ _ => open_
      ties := fun ended => absurd ⟨_, ended⟩ never }

/-! ## Coming to rest -/

/-- What is left to do at an instant at most. -/
def pending (attended : Attended) : Nat :=
  attended.lifecycle.runs.countP Watched.unseen +
    attended.stops.countP fun stop => stop.answer.isNone

theorem countP_set_lt {α : Type} {values : List α} {place : Nat} {old new : α}
    {wanted : α → Bool} (found : values[place]? = some old) (counts : wanted old = true)
    (leaves : wanted new = false) :
    (values.set place new).countP wanted < values.countP wanted := by
  have positive : 0 < values.countP wanted :=
    List.countP_pos_iff.mpr ⟨old, List.mem_of_getElem? found, counts⟩
  obtain ⟨bound, same⟩ := List.getElem?_eq_some_iff.mp found
  rw [List.countP_set bound, same, counts, leaves]
  simp only [if_true, Bool.false_eq_true, if_false]
  omega

theorem exists_step_of_ready (sound : present.Sound) (ready : present.Ready present.now) :
    ∃ event after, Step present event after ∧ after.now = present.now ∧
      after.pending < present.pending ∧ ∀ millis, event ≠ .aside (.wait millis) := by
  rcases ready with ⟨run, member, unseen⟩ | ⟨stop, member, open_, told⟩
  · obtain ⟨index, there⟩ := List.mem_iff_getElem?.mp member
    have found : present.lifecycle.run? (index + 1) = some run := by
      rwa [Lifecycle.run?_succ]
    refine ⟨_, _, .record found, rfl, ?_, by simp⟩
    have : Inhabited Watched := ⟨run⟩
    simp only [pending, Lifecycle.updateRun, Nat.add_sub_cancel, List.modify_eq_set, there,
      Option.getD_some]
    exact Nat.add_lt_add_right (countP_set_lt there unseen (Watched.unseen_observe run)) _
  · obtain ⟨place, there⟩ := List.mem_iff_getElem?.mp member
    obtain ⟨answer, after, step⟩ : ∃ answer after, Step present (.finish place answer) after := by
      obtain ⟨told | exit, told⟩ := Option.isSome_iff_exists.mp told
      · exact ⟨_, _, .giveUp there open_ told⟩
      · exact ⟨_, _, .complete there open_ told rfl⟩
    refine ⟨.finish place answer, after, step, ?_, ?_, by simp⟩
    all_goals
      obtain ⟨other, lifecycle, same, _, rfl, outcome⟩ := sound.finish_cases step
      cases there.symm.trans same
    · rfl
    · have runs : lifecycle.runs = present.lifecycle.runs := by
        rcases outcome with ⟨_, _, ⟨_, rfl⟩ | ⟨_, _, rfl⟩⟩ | ⟨_, _, _, rfl⟩ <;> rfl
      simp only [pending, reply, runs]
      exact Nat.add_lt_add_left (countP_set_lt there (by simp [open_]) rfl) _

/-- At every instant all that is left to do gets done. -/
theorem Run.exists_rest (run : Run history present) (prompt : Prompt history) :
    ∃ more rested, Run (history ++ more) rested ∧ Prompt (history ++ more) ∧
      rested.now = present.now ∧ ¬ rested.Ready rested.now := by
  induction left : present.pending using Nat.strongRecOn generalizing history present with
  | _ left_ ih =>
    subst left
    by_cases ready : present.Ready present.now
    · obtain ⟨event, after, step, same, fewer, timeless⟩ := exists_step_of_ready run.sound ready
      have prompt_next : Prompt (history ++ [⟨present, event, after⟩]) := by
        intro moment member millis waits
        rcases List.mem_append.mp member with old | new
        · exact prompt moment old millis waits
        · rw [List.mem_singleton.mp new] at waits
          exact absurd waits (timeless millis)
      obtain ⟨more, rested, onward, prompt, now, rest⟩ := ih _ fewer (run.next step) prompt_next rfl
      rw [List.append_assoc] at onward prompt
      exact ⟨_, rested, onward, prompt, now.trans same, rest⟩
    · exact ⟨[], present, by rwa [List.append_nil], by rwa [List.append_nil], rfl, ready⟩

/-- However calls and ends of runs follow each other: the end of a stop changes nothing unless the
run that it has asked to stop is still the present one and has ended. It succeeds or says that the
grace is over; then nothing changes, and the lifecycle is STOPPING unless a kill came or a run
began since the request. A stop that finds no run succeeds and changes nothing. When time passes
only while nothing is left to do, a stop succeeds iff its run ended within the grace, and it is
answered no later than at the end of the grace. -/
theorem stop_minds_its_run (run : Run history present) :
    (∀ place answer after, Step present (.finish place answer) after →
      ∃ stop, present.stops[place]? = some stop ∧
        (answer = .ok () ∧
            (present.lifecycle.task ≠ some stop.generation ∧
                after.lifecycle = present.lifecycle ∨
              present.lifecycle.task = some stop.generation ∧
                ∃ exit, after.lifecycle = present.lifecycle.released exit) ∨
          answer = .error (.stopTimedOut (.ofMillis stopGrace)) ∧
            after.lifecycle = present.lifecycle ∧
            (Undisturbed history place → present.lifecycle.state = .stopping))) ∧
    (present.lifecycle.task = none →
      present.lifecycle.locked Lifecycle.requestStop = (.ok none, present.lifecycle)) ∧
    (∀ generation, present.lifecycle.task = some generation →
      Step present (.ask generation) { present with
        lifecycle := present.lifecycle.braked generation
        stops := present.stops ++ [⟨generation, present.now, none⟩] }) ∧
    (Prompt history →
      (¬ present.Ready present.now →
        ∀ stop ∈ present.stops, Justified stop history present.now) ∧
      ∃ more rested, Run (history ++ more) rested ∧ Prompt (history ++ more) ∧
        rested.now = present.now ∧ ¬ rested.Ready rested.now) := by
  have machine := run.sound.machine
  refine ⟨fun place answer after step => ?_, fun task => ?_, fun generation task => ?_,
    fun prompt => ⟨fun rest stop member => (run.truthful prompt rest member).justified,
      run.exists_rest prompt⟩⟩
  · obtain ⟨stop, lifecycle, there, _, rfl, outcome⟩ := run.sound.finish_cases step
    refine ⟨stop, there, ?_⟩
    rcases outcome with ⟨done, _, effect⟩ | ⟨failed, unrecorded, _, same⟩
    · exact .inl ⟨done, effect⟩
    · refine .inr ⟨failed, same, fun calm => ?_⟩
      rcases run.undisturbed there calm with task | recorded
      · obtain ⟨open_, latest, _⟩ := machine.open_of_task task
        have asked := run.sound.asked (List.mem_of_getElem? there)
        exact (machine.stopping_iff open_).mpr (latest ▸ asked)
      · exact absurd (unrecorded.symm.trans recorded) Bool.false_ne_true
  · exact present.lifecycle.locked_requestStop_of_stopped task (machine.stopped_of_task task)
  · exact .ask (present.lifecycle.locked_requestStop task (machine.open_of_task task).1)

/-- Between the two halves of a stop a kill came, and another run began. -/
def overtaken : Attended where
  now := 0
  lifecycle :=
    ((Lifecycle.fresh.restarted.braked 1).kill.restarted).updateRun 1 Watched.observe
  stops := [⟨1, 0, none⟩]

theorem stop_minds_its_run_overtaken :
    ∃ history after, Run history overtaken ∧ Prompt history ∧
      overtaken.lifecycle.task = some 2 ∧ Step overtaken (.finish 0 (.ok ())) after ∧
      after.lifecycle = overtaken.lifecycle := by
  have started := Run.start.next (.start (Lifecycle.locked_start _ rfl))
  have asked := started.next (.ask (Lifecycle.locked_requestStop _ rfl (by decide)))
  have killed := asked.next (.kill _)
  have again := killed.next (.start (Lifecycle.locked_start _ rfl))
  have run : Run _ overtaken := again.next (@Step.record _ 1 _ rfl)
  have step : Step overtaken (.finish 0 (.ok ()))
      (overtaken.reply 0 ⟨1, 0, none⟩ (.ok ()) overtaken.lifecycle) :=
    @Step.complete _ 0 ⟨1, 0, none⟩ .aborted _ _ rfl rfl rfl
      (Lifecycle.locked_completeStop_of_other _ _ (by decide))
  refine ⟨_, _, run, ?_, rfl, step, ?_⟩
  · intro moment member millis waits
    simp only [List.nil_append, List.cons_append, List.mem_cons, List.not_mem_nil,
      or_false] at member
    rcases member with rfl | rfl | rfl | rfl | rfl <;> cases waits
  · obtain ⟨stop, there, ⟨_, ⟨_, same⟩ | ⟨present, _⟩⟩ | ⟨_, same, _⟩⟩ :=
      (stop_minds_its_run run).1 _ _ _ step
    · exact same
    · cases there
      cases present
    · exact same

end Attended
end ServiceHost
