import ServiceHost.Proofs.Executor.Sole
import ServiceHost.Proofs.Host.Effects

/-! Runs in which nobody asks for anything new, and in which time passes as it does under the
clock: only when nothing is ready, and no further than to the next timer. What is ready may still
come in any order.
-/

set_option autoImplicit false

namespace ServiceHost.System

/-- Whether an event may happen by itself. -/
def prompts (system : System Answer) : Event → Bool
  | .launch _ => false
  | .wait instant => system.step?.isNone && system.timer?.all fun timer => instant ≤ timer
  | _ => true

def proceeds? (system : System Answer) : List Event → Option (System Answer)
  | [] => some system
  | event :: rest =>
    if system.prompts event then (system.after? event).bind fun next => next.proceeds? rest
    else none

variable {system before after last : System Answer} {stages later : Nat → Option Stage}
  {event : Event} {events : List Event} {id : ServiceId} {service : Threaded}

theorem proceeds?_cons {rest : List Event} (proceeds : system.proceeds? (event :: rest) = some last) :
    system.prompts event = true ∧
      ∃ next, system.after? event = some next ∧ next.proceeds? rest = some last := by
  unfold proceeds? at proceeds
  split at proceeds
  · exact ⟨by assumption, Option.bind_eq_some_iff.mp proceeds⟩
  · cases proceeds

/-- What every prompt step keeps still holds after any number of them. -/
theorem Trail.proceeds {host : Host} {capacity : Nat} {past : List Event}
    {Holds : System Answer → (Nat → Option Stage) → Prop}
    (trail : Trail (.start host capacity) past system stages)
    (proceeds : system.proceeds? events = some last) (holds : Holds system stages)
    (keeps : ∀ {before after : System Answer} {stages later : Nat → Option Stage} {event : Event},
      before.Tracks stages → before.Step stages event after later → before.prompts event = true →
      Holds before stages → Holds after later) :
    ∃ later, Trail (.start host capacity) (past ++ events) last later ∧ Holds last later := by
  induction events generalizing past system stages with
  | nil =>
    cases proceeds
    exact ⟨stages, by rwa [List.append_nil], holds⟩
  | cons event rest ih =>
    obtain ⟨prompt, next, done, proceeds⟩ := proceeds?_cons proceeds
    obtain ⟨later, step⟩ := trail.tracks.exists_step done
    have onward := ih (trail.next done step) proceeds (keeps trail.tracks step prompt holds)
    rwa [List.append_assoc] at onward

/-! ## The clocked system -/

theorem findSome?_zipIdx {α β : Type} {values : List α} {choose : α × Nat → Option β} {result : β}
    (found : values.zipIdx.findSome? choose = some result) :
    ∃ place value, values[place]? = some value ∧ choose (value, place) = some result := by
  obtain ⟨⟨value, place⟩, member, chosen⟩ := List.exists_of_findSome?_eq_some found
  exact ⟨place, value, List.mk_mem_zipIdx_iff_getElem?.mp member, chosen⟩

theorem event_of_live {id : ServiceId} {hosted : Hosted}
    (there : system.host.services[id]? = some hosted)
    (done : (hosted.service.step? system.now (system.closed id)).map (system.withService id) =
      some after) :
    ∃ event, system.prompts event = true ∧ system.after? event = some after := by
  obtain ⟨label, service⟩ := hosted
  have found : system.host.service? id = some service := by simp [Host.service?, there]
  cases service with
  | scripted service => cases done
  | threaded service =>
    simp only [Service.step?, Option.map_map, Option.map_eq_some_iff, Function.comp_apply] at done
    obtain ⟨next, stepped, rfl⟩ := done
    rcases Threaded.step?_cases stepped with reaped | ⟨place, run, here, goes⟩ |
      ⟨generation, _, _, _, looked⟩
    · exact ⟨.reap id 0, rfl, by simp [after?, stirred?, found, reaped]⟩
    · exact ⟨.go id place, rfl, by simp [after?, stirred?, found, Threaded.go?, here, goes]⟩
    · exact ⟨.record id generation, rfl, by simp [after?, stirred?, found, looked]⟩

theorem event_of_step? (step : system.step? = some after) :
    ∃ event, system.prompts event = true ∧ system.after? event = some after := by
  -- In the order in which the clocked system looks for something that is ready.
  unfold step? at step
  simp only [Option.orElse_eq_orElse, Option.orElse_eq_or, Option.or_eq_some_iff] at step
  rcases step with expired | ⟨_, resumed | ⟨_, served | ⟨_, lived⟩⟩⟩
  · exact ⟨.expire, rfl, expired⟩
  · obtain ⟨place, progression, there, done⟩ := findSome?_zipIdx resumed
    exact ⟨.resume place, rfl, by simp only [after?, there]; exact done⟩
  · obtain ⟨call, member, done⟩ := List.exists_of_findSome?_eq_some served
    obtain ⟨place, there⟩ := List.getElem?_of_mem member
    exact ⟨.serve place, rfl, by simp only [after?, there]; exact done⟩
  · obtain ⟨id, hosted, there, done⟩ := findSome?_zipIdx lived
    exact event_of_live there done

/-- Whatever the clocked system does at one instant is among these runs. -/
theorem exists_proceeds_run (steps : Nat) (system : System Answer) :
    ∃ events, system.proceeds? events = some (Clocked.run steps system) := by
  induction steps generalizing system with
  | zero => exact ⟨[], rfl⟩
  | succ steps ih =>
    cases stepped : system.step? with
    | none => exact ⟨[], by simp [proceeds?, Clocked.run, Clocked.step?, stepped]⟩
    | some next =>
      obtain ⟨event, prompt, done⟩ := event_of_step? stepped
      obtain ⟨events, proceeds⟩ := ih next
      refine ⟨event :: events, ?_⟩
      simp only [proceeds?, prompt, if_true, done, Option.bind_some, proceeds]
      simp [Clocked.run, Clocked.step?, stepped]

/-! ## Nothing is ready -/

theorem nothing_ready (quiet : system.step? = none) :
    system.resume? = none ∧ system.serve? = none ∧ system.live? = none := by
  unfold step? at quiet
  simp only [Option.orElse_eq_orElse, Option.orElse_eq_or, Option.or_eq_none_iff] at quiet
  exact quiet.2

theorem findSome?_zipIdx_none {α β : Type} {values : List α} {choose : α × Nat → Option β}
    (nothing : values.zipIdx.findSome? choose = none) {place : Nat} {value : α}
    (there : values[place]? = some value) : choose (value, place) = none :=
  List.findSome?_eq_none_iff.mp nothing _ (List.mk_mem_zipIdx_iff_getElem?.mpr there)

theorem not_resumable (quiet : system.step? = none) {place : Nat} {progression : Progression Answer}
    (there : system.procedures[place]? = some progression) :
    system.resumeAt? place progression = none :=
  findSome?_zipIdx_none (nothing_ready quiet).1 there

theorem not_servable (quiet : system.step? = none) {call : Running Body}
    (member : call ∈ system.executor.running) : system.serveCall? call = none :=
  List.findSome?_eq_none_iff.mp (nothing_ready quiet).2.1 call member

theorem not_lively (quiet : system.step? = none)
    (found : system.host.service? id = some (.threaded service)) :
    service.step? system.now (system.closed id) = none := by
  obtain ⟨hosted, there, same⟩ := Option.map_eq_some_iff.mp found
  have nothing := findSome?_zipIdx_none (nothing_ready quiet).2.2 there
  simpa [same, Service.step?] using nothing

/-- A call of a service with a run loop that has not begun is ready. -/
theorem not_fresh_of_quiet (quiet : system.step? = none) {call : Running Body}
    (member : call ∈ system.executor.running)
    (served : system.host.service? call.work.service = some (.threaded service)) :
    call.work.phase ≠ .fresh := by
  intro fresh
  have nothing := not_servable quiet member
  simp [serveCall?, served, Service.goOn, Threaded.goOn, fresh] at nothing

theorem not_answered_of_quiet (quiet : system.step? = none) {place call : Nat}
    {next : CallAnswer → Flow (Yield Answer)}
    (waits : system.procedures[place]? = some (.waiting call next)) :
    system.executor.answer? call = none :=
  Option.map_eq_none_iff.mp (not_resumable quiet waits)

/-- No timer of a call comes before the next timer. -/
theorem wait_le_timer {instant expires : Nat} (prompt : system.prompts (.wait instant) = true)
    {call : Running Body} (member : call ∈ system.executor.running)
    (timer : call.work.phase.timer? = some expires) : instant ≤ expires := by
  have among : some expires ∈
      system.executor.running.map fun call => call.work.phase.timer? :=
    List.mem_map.mpr ⟨call, member, timer⟩
  -- The next timer is the least of three, of which the timers of the calls are the second.
  obtain ⟨first, known, bound⟩ := earliest_le among
  obtain ⟨second, inner, closer⟩ := earlier_le_left first
    (earliest (system.host.services.map fun hosted => hosted.service.timer?))
  obtain ⟨third, outer, closest⟩ := earlier_le_right system.executor.deadline? second
  have next : system.timer? = some third := by
    unfold System.timer?
    rw [known, inner, outer]
  simp only [prompts, next, Option.all_some, Bool.and_eq_true, decide_eq_true_eq] at prompt
  omega

theorem quiet_of_wait {instant : Nat} (prompt : system.prompts (.wait instant) = true) :
    system.step? = none := by
  simp only [prompts, Bool.and_eq_true] at prompt
  exact Option.isNone_iff_eq_none.mp prompt.1

/-! ## Numbers of calls -/

theorem Step.numbered (step : before.Step stages event after later)
    (numbered : before.executor.Numbered) : after.executor.Numbered := by
  have arrived : ∀ (system : System Answer) (host : Host) (halt : Halt),
      system.executor.Numbered → (system.arrived host halt).executor.Numbered := by
    intro system host halt numbered
    cases halt with
    | ended => exact numbered
    | waits => exact numbered.submit ..
  cases step with
  | launch => exact arrived _ _ _ numbered
  | resume => exact arrived (before.answered _) _ _ (numbered.forget _)
  | @serve _ _ _ _ phase =>
    cases phase with
    | ended => exact numbered.finish ..
    | fresh | planned | stopping => exact numbered.continueWith ..
  | expire => exact numbered.expire _
  | stir | take | drop | wait => exact numbered

theorem Trail.numbered {host : Host} {capacity : Nat} {past : List Event}
    (trail : Trail (.start host capacity) past system stages) : system.executor.Numbered := by
  induction trail with
  | start => exact Executor.numbered_start capacity
  | next _ _ step ih => exact step.numbered ih

end ServiceHost.System
