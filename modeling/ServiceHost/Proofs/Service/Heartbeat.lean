import ServiceHost.Proofs.Entries
import ServiceHost.Proofs.Service.Beats

/-! When a heartbeat counts, and when it does not.

A run that is neither paused nor asked to stop passes the gate when it starts and whenever an
interval is over, and waits nowhere else, so its count is what the clock says. A run that is paused
or asked to stop counts no more than it owes where it is: the one beat whose wait has begun, and
none once it is asked. Only a resume or the start of another run gets it past the gate. -/

set_option autoImplicit false

namespace ServiceHost.Alone

open Builtin

/-! ## What can happen to a heartbeat -/

/-- What one thing that happens makes of a heartbeat. -/
inductive Change (service : Threaded) (now : Nat) (event : Event) (later : Threaded) : Prop where
  | begun {generation : Nat} :
      event = .did .start → service.live = [] →
      later.live = [.start beating generation service.config] →
      later.lifecycle.paused = false → later.lifecycle.stopRequested generation = false →
      later.count = service.count → Change service now event later
  /-- The run ends, if there is one, because it was asked to or by force. -/
  | ended :
      (event.stops = true ∨ ∃ run ∈ service.live,
        service.lifecycle.stopRequested run.generation = true) →
      later.live = [] → later.count = service.count → Change service now event later
  | went {run next : ServiceHost.Run} {spot after : Spot} {counted : Nat} :
      service.live = [run] → Beats run spot →
      spot.Goes (interval run.config) now (service.signals false run.generation) after counted →
      Beats next after → next.generation = run.generation → next.config = run.config →
      later.live = [next] → later.lifecycle = service.lifecycle →
      later.count = service.count + counted → Change service now event later
  | steered :
      later.live = service.live → later.count = service.count →
      (∀ generation, service.lifecycle.stopRequested generation = true →
        later.lifecycle.stopRequested generation = true) →
      (event.stops = false → later.lifecycle.generations = service.lifecycle.generations) →
      (later.lifecycle.paused = service.lifecycle.paused ∨
        event = .did .pause ∧ later.lifecycle.paused = true ∨
        event = .did .resume ∧ later.lifecycle.paused = false) →
      Change service now event later

/-- What holds of a heartbeat at any time: the run that goes on is somewhere in its round. -/
structure Pulses (alone : Alone) : Prop where
  kept : Kept beating alone
  spots : ∀ run ∈ alone.service.live, ∃ spot, Beats run spot

variable {start alone after later : Alone} {past more : History} {event : Event}
  {service next : Threaded} {run : ServiceHost.Run} {query : Query} {before phase : Phase}
  {now instant horizon limit : Nat}

theorem pulses_new (version stamp : String) :
    Pulses (sole (Threaded.new heartbeat version stamp beating)) :=
  ⟨.sole (Threaded.sound_new ..), fun _ member => by cases member⟩

theorem live_eq_of_getElem? (sound : service.Sound) {place : Nat}
    (there : service.live[place]? = some run) : place = 0 ∧ service.live = [run] := by
  rcases sound.live_cases with none_live | ⟨only, live, _⟩
  · rw [none_live] at there
    cases there
  · rw [live] at there ⊢
    cases place with
    | zero => exact ⟨rfl, congrArg (· :: []) (Option.some.inj there)⟩
    | succ _ => cases there

/-- A go of the run takes it on in its round, or ends it as it was asked. -/
theorem change_of_went (sound : service.Sound) {place : Nat} {spot : Spot}
    (there : service.live[place]? = some run) (beats : Beats run spot)
    (goes : service.goAt? now false place run = some next) (event : Event) :
    Change service now event next := by
  obtain ⟨rfl, live⟩ := live_eq_of_getElem? sound there
  obtain ⟨go, ready, rfl⟩ := Option.map_eq_some_iff.mp goes
  cases beats.went rfl ready with
  | on goes_on beats generation config moved =>
    simp only [Threaded.gone, goes_on]
    exact .went live ‹_› moved beats generation config (by rw [live]; rfl) rfl rfl
  | ended ends none_counted asked =>
    simp only [Threaded.gone, ends]
    refine .ended (.inr ⟨run, List.mem_of_getElem? there, asked⟩) (by rw [live]; rfl) ?_
    exact congrArg (service.count + ·) none_counted

theorem live_launched (sound : service.Sound) (loop_eq : service.loop = beating)
    (quiet : service.lifecycle.isAlive = false) :
    service.live = [] ∧ service.launched.live =
      [.start beating (service.lifecycle.generations.issued + 1) service.config] := by
  have none_live := sound.live_of_alive (Lifecycle.alive_of_not_isAlive quiet)
  refine ⟨none_live, ?_⟩
  rw [Threaded.launched, none_live, loop_eq]
  rfl

/-- Nobody has asked a generation to stop that was not yet issued. -/
theorem unasked_launched (sound : service.Sound) :
    service.launched.lifecycle.stopRequested (service.lifecycle.generations.issued + 1) = false := by
  refine Bool.eq_false_iff.mpr fun asked => ?_
  have := sound.machine.requested_le _ asked
  omega

/-- Whatever a call does that begins no run, it only asks the run to stop and writes the flag. -/
theorem change_of_begun (sound : service.Sound) (loop_eq : service.loop = beating)
    (turn : service.Turn now query .fresh phase next) :
    Change service now (.called query phase) next := by
  cases turn with
  | launched quiet =>
    obtain ⟨none_live, live⟩ := live_launched sound loop_eq quiet
    exact .begun rfl none_live live rfl (unasked_launched sound) rfl
  | braked task =>
    exact .steered rfl rfl (Lifecycle.Extends.braked ..).requested (fun other => by cases other)
      (.inl rfl)
  | paused running =>
    exact .steered rfl rfl (fun _ asked => asked) (fun _ => rfl) (.inr (.inl ⟨rfl, rfl⟩))
  | resumed paused =>
    exact .steered rfl rfl (fun _ asked => asked) (fun _ => rfl) (.inr (.inr ⟨rfl, rfl⟩))
  | idle | refused | told | named =>
    exact .steered rfl rfl (fun _ asked => asked) (fun _ => rfl) (.inl rfl)

theorem change_of_answered {generation expires : Nat}
    (turn : service.Turn now query (.stopping generation expires) phase next) (event : Event) :
    Change service now event next := by
  cases turn with
  | released | outdone | outlived =>
    exact .steered rfl rfl (fun _ asked => asked) (fun _ => rfl) (.inl rfl)

theorem Pulses.change (pulses : Pulses alone) (step : Step alone event after) :
    Change alone.service alone.now event after.service := by
  obtain ⟨kept, spots⟩ := pulses
  cases step with
  | called query => exact change_of_begun kept.sound kept.loop_eq (kept.begun query)
  | killed => exact .ended (.inl rfl) (Threaded.live_kill kept.sound) rfl
  | configured => exact .steered rfl rfl (fun _ asked => asked) (fun _ => rfl) (.inl rfl)
  | reaped reaps =>
    obtain ⟨_, rfl⟩ := Threaded.reap?_eq_some reaps
    exact .steered rfl rfl (fun _ asked => asked) (fun _ => rfl) (.inl rfl)
  | recorded _ _ looked =>
    obtain ⟨_, _, rfl⟩ := Threaded.look?_eq_some looked
    exact .steered rfl rfl (fun _ asked => asked) (fun _ => rfl) (.inl rfl)
  | answered there goes =>
    obtain ⟨generation, expires, rfl⟩ := kept.waiting there goes
    exact change_of_answered (kept.resumed there goes) _
  | went there goes =>
    obtain ⟨spot, beats⟩ := spots _ (List.mem_of_getElem? there)
    exact change_of_went kept.sound there beats goes _

theorem Pulses.step (pulses : Pulses alone) (step : Step alone event after) : Pulses after := by
  refine ⟨pulses.kept.step step, ?_⟩
  cases pulses.change step with
  | begun _ _ live =>
    rw [live]
    exact List.forall_mem_singleton.mpr ⟨_, beats_start ..⟩
  | ended _ live =>
    rw [live]
    exact fun _ member => by cases member
  | went _ _ _ beats _ _ live =>
    rw [live]
    exact List.forall_mem_singleton.mpr ⟨_, beats⟩
  | steered live =>
    rw [live]
    exact pulses.spots

theorem Step.now_eq (step : Step alone event after) : after.now = alone.now := by
  cases step <;> rfl

theorem Course.pulses (course : Course start past alone) (pulses : Pulses start) :
    Pulses alone := by
  induction course with
  | start => exact pulses
  | next _ step ih => exact ih.step step
  | pass _ _ _ _ ih => exact ⟨⟨ih.kept.sound, ih.kept.loop_eq, ih.kept.made⟩, ih.spots⟩

theorem Change.count_le (change : Change service now event next) : service.count ≤ next.count := by
  cases change <;> omega

theorem Course.count_le (course : Course start past alone) (pulses : Pulses start) :
    start.service.count ≤ alone.service.count := by
  induction course with
  | start => exact Nat.le_refl _
  | next course step ih => exact Nat.le_trans ih ((Course.pulses course pulses).change step).count_le
  | pass _ _ _ _ ih => exact ih

/-! ## Counting no more than is owed -/

/-- No run gets past the gate, and what has been counted and what is still owed up to some instant
stay below a limit. -/
structure Barred (service : Threaded) (horizon limit : Nat) : Prop where
  count_le : service.count ≤ limit
  owes_le : ∀ run ∈ service.live, ∃ spot, Beats run spot ∧
    (service.lifecycle.paused = true ∨ service.lifecycle.stopRequested run.generation = true) ∧
    service.count +
      spot.owes horizon (service.lifecycle.stopRequested run.generation) ≤ limit

/-- The run that goes on, if there is one, has been asked to stop. -/
def Asked (service : Threaded) : Prop :=
  ∀ run ∈ service.live, service.lifecycle.stopRequested run.generation = true

theorem Asked.change (asked : Asked service) (change : Change service now event next)
    (unbegun : event ≠ .did .start) : Asked next := by
  intro run member
  cases change with
  | begun start => exact absurd start unbegun
  | ended _ live =>
    rw [live] at member
    cases member
  | went live _ _ _ generation _ then_ same =>
    rw [then_] at member
    rw [List.mem_singleton.mp member, same, generation]
    exact asked _ (live ▸ List.mem_singleton.mpr rfl)
  | steered live _ kept =>
    rw [live] at member
    exact kept _ (asked run member)

theorem barred_of_live_nil (quiet : service.live = []) (horizon : Nat) :
    Barred service horizon service.count :=
  ⟨Nat.le_refl _, fun run member => by rw [quiet] at member; cases member⟩

theorem Barred.change (barred : Barred service horizon limit)
    (change : Change service now event next) (within : now ≤ horizon)
    (unbegun : event ≠ .did .start) (shut : event = .did .resume → Asked service) :
    Barred next horizon limit := by
  obtain ⟨count_le, owes_le⟩ := barred
  cases change with
  | begun start => exact absurd start unbegun
  | ended _ live same =>
    refine ⟨same ▸ count_le, fun run member => ?_⟩
    rw [live] at member
    cases member
  | went live beats goes onward generation _ then_ same count =>
    obtain ⟨_, also, closed, bound⟩ := owes_le _ (live ▸ List.mem_singleton.mpr rfl)
    obtain rfl := beats.unique also
    have paid := Nat.le_trans (Nat.add_le_add_left (goes.owes_le closed within) _) bound
    refine ⟨by omega, ?_⟩
    rw [then_]
    refine List.forall_mem_singleton.mpr ⟨_, onward, ?_⟩
    rw [same, generation, count, Nat.add_assoc]
    exact ⟨closed, paid⟩
  | steered live same asked _ flag =>
    refine ⟨same ▸ count_le, fun run member => ?_⟩
    rw [live] at member
    obtain ⟨spot, beats, closed, bound⟩ := owes_le run member
    refine ⟨spot, beats, ?_, ?_⟩
    · rcases closed with paused | stopped
      · rcases flag with kept | ⟨_, set_⟩ | ⟨resumed, _⟩
        · exact .inl (kept.trans paused)
        · exact .inl set_
        · exact .inr (asked _ (shut resumed run member))
      · exact .inr (asked _ stopped)
    · -- A request takes back what was owed, and nothing takes back the request.
      refine Nat.le_trans (Nat.add_le_add (Nat.le_of_eq same) ?_) bound
      cases stopped : next.lifecycle.stopRequested run.generation with
      | true => exact spot.owes_asked_le horizon _
      | false =>
        rw [Bool.eq_false_iff.mpr fun before => Bool.eq_false_iff.mp stopped (asked _ before)]

theorem Course.asked (onward : Course alone more later) (pulses : Pulses alone)
    (asked : Asked alone.service) (unbegun : ∀ moment ∈ more, moment.2 ≠ .did .start) :
    Asked later.service := by
  induction onward with
  | start => exact asked
  | next course step ih =>
    obtain ⟨before, last⟩ := List.forall_mem_append.mp unbegun
    exact (ih before).change ((Course.pulses course pulses).change step)
      (last _ (List.mem_singleton.mpr rfl))
  | pass _ _ _ _ ih => exact ih unbegun

/-- Only a start or a resume gets a run past the gate, and no resume one that was asked to stop. -/
theorem Course.barred (onward : Course alone more later) (pulses : Pulses alone)
    (within : later.now ≤ horizon) (barred : Barred alone.service horizon limit)
    (unbegun : ∀ moment ∈ more, moment.2 ≠ .did .start)
    (shut : Asked alone.service ∨ ∀ moment ∈ more, moment.2 ≠ .did .resume) :
    Barred later.service horizon limit := by
  induction onward with
  | start => exact barred
  | next course step ih =>
    obtain ⟨before, last⟩ := List.forall_mem_append.mp unbegun
    rw [step.now_eq] at within
    have earlier := ih within before
      (shut.imp_right fun unresumed => (List.forall_mem_append.mp unresumed).1)
    refine earlier.change ((Course.pulses course pulses).change step) within
      (last _ (List.mem_singleton.mpr rfl)) fun resumed => ?_
    rcases shut with asked | unresumed
    · exact Course.asked course pulses asked before
    · exact absurd resumed (unresumed _ (List.mem_append_right _ (List.mem_singleton.mpr rfl)))
  | pass _ _ later _ ih => exact ih (Nat.le_trans later within) unbegun shut

/-! ## Beating on time -/

/-- The present run began at an instant, and since then nobody has paused it or asked it to stop. -/
inductive Paced (service : Threaded) (now began base millis : Nat) : Prop where
  | on {run : ServiceHost.Run} {spot : Spot} {beats : Nat} :
      service.live = [run] → Beats run spot → interval run.config = millis →
      service.lifecycle.paused = false →
      service.lifecycle.stopRequested run.generation = false →
      spot.OnTime began millis now beats → service.count = base + beats →
      Paced service now began base millis

variable {began base millis : Nat}

theorem Paced.change (paced : Paced service now began base millis)
    (change : Change service now event next) (unstopped : event.stops = false)
    (unpaused : event ≠ .did .pause) : Paced next now began base millis := by
  obtain @⟨run, spot, beats, live, at_, length, open_, unasked, punctual, count⟩ := paced
  cases change with
  | begun _ quiet =>
    rw [live] at quiet
    cases quiet
  | ended cause =>
    rcases cause with stops | ⟨_, member, asked⟩
    · rw [unstopped] at stops
      cases stops
    · rw [live] at member
      rw [List.mem_singleton.mp member, unasked] at asked
      cases asked
  | went here also goes onward generation config then_ same counted =>
    rw [live] at here
    obtain rfl : run = _ := (List.cons.inj here).1
    obtain rfl := at_.unique also
    have later := goes.onTime open_ (length ▸ punctual)
    refine .on then_ onward (config ▸ length) (same ▸ open_) ?_ (length ▸ later) ?_
    · rw [generation, same]
      exact unasked
    · rw [counted, count, Nat.add_assoc]
  | steered same counted _ requests flag =>
    refine .on (same.trans live) at_ length ?_ ?_ punctual (counted.trans count)
    · rcases flag with kept | ⟨paused, _⟩ | ⟨_, cleared⟩
      · exact kept.trans open_
      · exact absurd paused unpaused
      · exact cleared
    · unfold Lifecycle.stopRequested
      rw [requests unstopped]
      exact unasked

theorem idle_of_rest (rest : service.step? now false = none)
    (live : service.live = [run]) : run.go? now (service.signals false run.generation) = none := by
  unfold Threaded.step? at rest
  split at rest
  · cases rest
  split at rest
  · cases rest
  · rename_i idle
    rw [live] at idle
    have none_goes := List.findSome?_eq_none_iff.mp idle (run, 0) List.mem_cons_self
    exact Option.map_eq_none_iff.mp none_goes

theorem timer?_of_live (live : service.live = [run]) : service.timer? = run.timer? := by
  rw [Threaded.timer?, live, List.map_singleton, earliest, List.foldl_cons, List.foldl_nil]
  cases run.timer? <;> rfl

theorem timer?_le (live : alone.service.live = [run]) (timer : run.timer? = some instant) :
    ∃ sooner, alone.timer? = some sooner ∧ sooner ≤ instant :=
  earlier_le (.inl ⟨instant, (timer?_of_live live).trans timer, Nat.le_refl _⟩)

theorem Paced.pass (paced : Paced alone.service alone.now began base millis)
    (rest : alone.step? = none) (later : alone.now ≤ instant)
    (bounded : ∀ timer, alone.timer? = some timer → instant ≤ timer) :
    Paced alone.service instant began base millis := by
  obtain @⟨run, spot, beats, live, at_, length, open_, unasked, punctual, count⟩ := paced
  refine .on live at_ length open_ unasked ?_ count
  rcases at_.idle (idle_of_rest (service_quiet rest) live) with rfl | ⟨due, rfl, ahead⟩
  · cases punctual
  · obtain ⟨set_, since, _⟩ := punctual
    obtain ⟨sooner, timer, bound⟩ := timer?_le live (at_.timer.mpr rfl)
    have early := bounded sooner timer
    exact ⟨set_, Nat.le_trans since later, Nat.le_trans early bound⟩

theorem Course.paced (onward : Course alone more later) (pulses : Pulses alone)
    (paced : Paced alone.service alone.now began base millis)
    (left : ∀ moment ∈ more, moment.2 ≠ .did .pause ∧ moment.2.stops = false) :
    Paced later.service later.now began base millis := by
  induction onward with
  | start => exact paced
  | next course step ih =>
    obtain ⟨before, last⟩ := List.forall_mem_append.mp left
    obtain ⟨unpaused, unstopped⟩ := last _ (List.mem_singleton.mpr rfl)
    rw [step.now_eq]
    exact (ih before).change ((Course.pulses course pulses).change step) unstopped unpaused
  | pass _ rest later bounded ih => exact (ih left).pass rest later bounded

/-- Once all that is due has happened, the count is the number of intervals that are over. -/
theorem Paced.count_eq (paced : Paced service now began base millis)
    (rest : service.step? now false = none) : service.count = base + (now - began) / millis := by
  obtain @⟨run, spot, beats, live, at_, length, open_, unasked, punctual, count⟩ := paced
  rcases at_.idle (idle_of_rest rest live) with rfl | ⟨due, rfl, ahead⟩
  · cases punctual
  · obtain ⟨set_, since, _⟩ := punctual
    have whole : (now - began) / millis = beats := by
      apply Nat.div_eq_of_lt_le <;> omega
    rw [count, whole]

/-! ## Going on -/

def unseen (watched : Watched) : Nat := if watched.unseen then 1 else 0

def unanswered (call : Query × Phase) : Nat :=
  match call.2 with
  | .ended _ => 0
  | _ => 1

/-- A bound for what is left to do at this instant: goes of the run, drops, records and answers. The
end of a run leaves a record to make. -/
def chores (alone : Alone) : Nat :=
  2 * (alone.service.live.map (toil alone.now alone.service.lifecycle.writes)).sum +
    (alone.service.lifecycle.runs.map unseen).sum + alone.service.dying.length +
    (alone.calls.map unanswered).sum

theorem unseen_le_one (watched : Watched) : unseen watched ≤ 1 := by
  unfold unseen
  split <;> decide

theorem chores_of_went (sound : alone.service.Sound) {place : Nat} {spot : Spot}
    (there : alone.service.live[place]? = some run) (beats : Beats run spot)
    (goes : alone.service.goAt? alone.now false place run = some next) :
    ({ alone with service := next } : Alone).chores < alone.chores := by
  obtain ⟨rfl, live⟩ := live_eq_of_getElem? sound there
  obtain ⟨go, ready, rfl⟩ := Option.map_eq_some_iff.mp goes
  refine Nat.add_lt_add_right ?_ _
  cases beats.went rfl ready with
  | on goes_on onward _ _ moved =>
    have fewer : toil alone.now alone.service.lifecycle.writes _ <
        toil alone.now alone.service.lifecycle.writes run := toil_lt beats onward moved (interval_pos _)
    simp only [Threaded.gone, goes_on, live, List.set_cons_zero, List.map_singleton,
      List.sum_singleton]
    omega
  | @ended exit ends =>
    have some_left := toil_pos alone.now alone.service.lifecycle.writes run
    have records := @sum_modify_le _ alone.service.lifecycle.runs (run.generation - 1)
      (fun watched => watched.finish exit) unseen 1 unseen_le_one
    simp only [Threaded.gone, ends, live, List.eraseIdx_cons_zero, List.map_nil, List.sum_nil,
      List.map_singleton, List.sum_singleton, Lifecycle.endRun, Lifecycle.updateRun]
    omega

theorem chores_of_reaped {place : Nat} (reaps : alone.service.reap? place = some next) :
    ({ alone with service := next } : Alone).chores < alone.chores := by
  obtain ⟨bound, rfl⟩ := Threaded.reap?_eq_some reaps
  have fewer : (alone.service.dying.eraseIdx place).length < alone.service.dying.length := by
    rw [List.length_eraseIdx_of_lt bound]
    omega
  exact Nat.add_lt_add_right (Nat.add_lt_add_left fewer _) _

theorem chores_of_recorded {generation : Nat} {watched : Watched}
    (here : alone.service.lifecycle.run? generation = some watched) (due : watched.unseen = true)
    (looked : alone.service.look? generation = some next) :
    ({ alone with service := next } : Alone).chores < alone.chores := by
  obtain ⟨_, _, rfl⟩ := Threaded.look?_eq_some looked
  have place : alone.service.lifecycle.runs[generation - 1]? = some watched := by
    rw [← Lifecycle.run?_succ, Nat.sub_add_cancel (Lifecycle.positive_of_run? here), here]
  have fewer : unseen watched.observe < unseen watched := by simp [unseen, due]
  exact Nat.add_lt_add_right (Nat.add_lt_add_right
    (Nat.add_lt_add_left (sum_modify_lt place fewer) _) _) _

theorem chores_of_answered (kept : Kept beating alone) {call : Nat}
    (there : alone.calls[call]? = some (query, before))
    (goes : alone.service.goOn alone.now query before = some (phase, next)) :
    ({ alone with service := next, calls := alone.calls.set call (query, phase) } : Alone).chores <
      alone.chores := by
  obtain ⟨generation, expires, rfl⟩ := kept.waiting there goes
  have turn := kept.resumed there goes
  have fewer : unanswered (query, phase) < unanswered (query, .stopping generation expires) := by
    rcases turn.phase_cases with ⟨_, rfl⟩ | ⟨_, _, fresh⟩
    · exact Nat.one_pos
    · cases fresh
  have calls : ((alone.calls.set call (query, phase)).map unanswered).sum <
      (alone.calls.map unanswered).sum := by
    rw [List.set_eq_modify]
    exact sum_modify_lt there fewer
  -- The answer leaves the run and the records as they are.
  cases turn with
  | released | outdone | outlived => exact Nat.add_lt_add_left calls _

theorem Step.chores_lt (step : Step alone event after) (pulses : Pulses alone)
    (own : event.own = true) : after.chores < alone.chores := by
  obtain ⟨kept, spots⟩ := pulses
  cases step with
  | answered there goes => exact chores_of_answered kept there goes
  | went there goes =>
    obtain ⟨spot, beats⟩ := spots _ (List.mem_of_getElem? there)
    exact chores_of_went kept.sound there beats goes
  | reaped reaps => exact chores_of_reaped reaps
  | recorded here due looked => exact chores_of_recorded here due looked
  | called | killed | configured => cases own

/-- At rest the wait of the run is not over, and neither is the grace of a stop that waits. -/
theorem Pulses.lt_timer (pulses : Pulses alone) (rest : alone.step? = none)
    (timer : alone.timer? = some instant) : alone.now < instant := by
  obtain ⟨kept, spots⟩ := pulses
  rcases earlier_cases timer with wait | grace
  · obtain ⟨run, member, due⟩ := List.mem_map.mp (earliest_mem wait)
    obtain ⟨spot, beats⟩ := spots run member
    obtain ⟨place, there⟩ := List.mem_iff_getElem?.mp member
    obtain ⟨_, live⟩ := live_eq_of_getElem? kept.sound there
    cases beats.timer.mp due
    rcases beats.idle (idle_of_rest (service_quiet rest) live) with parked | ⟨_, same, ahead⟩
    · cases parked
    · cases same
      exact ahead
  · obtain ⟨⟨query, phase⟩, member, due⟩ := List.mem_map.mp (earliest_mem grace)
    cases phase with
    | stopping generation expires =>
      cases due
      exact Threaded.lt_expires_of_goOn (goOn_quiet rest member)
    | ended | fresh => cases due
    | planned => cases kept.made _ member

theorem lively : Clocked.Lively Step Event.own Pulses where
  now_setNow := fun _ _ => rfl
  steps := by
    refine ⟨chores, fun alone after pulses found => ?_⟩
    obtain ⟨event, own, step⟩ := step_of_step? found
    exact ⟨pulses.step step, step.now_eq, step.chores_lt pulses own, event, own, step⟩
  ahead := fun _ pulses rest _ => pulses.lt_timer rest
  waits := fun _ _ ⟨⟨sound, loop_eq, made⟩, spots⟩ => ⟨⟨sound, loop_eq, made⟩, spots⟩

/-! ## Starts, pauses and stops -/

theorem Step.turn (step : Step alone (.called query phase) after) (kept : Kept beating alone) :
    alone.service.Turn alone.now query .fresh phase after.service := by
  generalize same : Event.called query phase = event at step
  cases step with
  | called =>
    obtain ⟨rfl, rfl⟩ := Event.called.inj same
    exact kept.begun query
  | killed | configured | answered | went | reaped | recorded => cases same

theorem Step.paced (step : Step alone (.did .start) after) (pulses : Pulses alone) :
    Paced after.service after.now alone.now alone.service.count (interval alone.service.config) := by
  have turn := step.turn pulses.kept
  rw [step.now_eq]
  generalize after.service = service at turn
  cases turn with
  | launched quiet =>
    obtain ⟨_, live⟩ := live_launched pulses.kept.sound pulses.kept.loop_eq quiet
    have punctual : Spot.entering.OnTime alone.now (interval alone.service.config) alone.now 0 := by
      simp [Spot.OnTime]
    exact .on live (beats_start ..) rfl rfl (unasked_launched pulses.kept.sound) punctual rfl

/-- A pause leaves the run with what it owes where it is. -/
theorem Step.barred_of_pause (step : Step alone (.did .pause) after) (pulses : Pulses alone)
    (least : alone.service.count ≤ limit)
    (owed : ∀ run ∈ alone.service.live, ∀ spot stop, Beats run spot →
      alone.service.count + spot.owes horizon stop ≤ limit) :
    Barred after.service horizon limit := by
  have turn := step.turn pulses.kept
  generalize after.service = service at turn
  cases turn with
  | paused =>
    refine ⟨least, fun run member => ?_⟩
    obtain ⟨spot, beats⟩ := pulses.spots run member
    exact ⟨spot, beats, .inl rfl, owed run member spot _ beats⟩

theorem asked_of_live_nil (quiet : service.live = []) : Asked service := fun run member => by
  rw [quiet] at member
  cases member

/-- A stop asks the run, and a run that is at rest then owes nothing any more. -/
theorem barred_of_stop (sound : service.Sound)
    (spots : ∀ run ∈ service.live, ∃ spot, Beats run spot)
    (turn : service.Turn now (.control .stop) .fresh phase next)
    (rest : service.step? now false = none) (horizon : Nat) :
    Asked next ∧ Barred next horizon service.count := by
  cases turn with
  | refused other => exact absurd rfl other
  | idle task =>
    have quiet := (sound.rests task).2.1
    exact ⟨asked_of_live_nil quiet, barred_of_live_nil quiet horizon⟩
  | @braked generation task =>
    have asked : Asked { service with lifecycle := service.lifecycle.braked generation } := by
      intro run member
      have alive : run.generation ∈ service.lifecycle.alive :=
        sound.live_eq ▸ List.mem_map_of_mem member
      cases task.symm.trans (Lifecycle.mem_alive.mp alive).1
      simp [Lifecycle.braked, Lifecycle.stopRequested, Generations.stopRequested_requestStop]
    refine ⟨asked, Nat.le_refl _, fun run member => ?_⟩
    obtain ⟨spot, beats⟩ := spots run member
    obtain ⟨place, there⟩ := List.mem_iff_getElem?.mp member
    obtain ⟨_, live⟩ := live_eq_of_getElem? sound there
    refine ⟨spot, beats, .inr (asked run member), ?_⟩
    rw [asked run member]
    rcases beats.idle (idle_of_rest rest live) with rfl | ⟨_, rfl, _⟩ <;> exact Nat.le_refl _

theorem Step.barred_of_stops (step : Step alone event after) (pulses : Pulses alone)
    (stops : event.stops = true)
    (rest : event = .killed ∨ alone.service.step? alone.now false = none) (horizon : Nat) :
    Asked after.service ∧ Barred after.service horizon alone.service.count := by
  obtain ⟨kept, spots⟩ := pulses
  cases step with
  | killed =>
    have quiet := Threaded.live_kill kept.sound
    exact ⟨asked_of_live_nil quiet, barred_of_live_nil quiet horizon⟩
  | called query =>
    match query, stops with
    | .control .stop, _ =>
      exact barred_of_stop kept.sound spots (kept.begun _) (rest.resolve_left nofun) horizon
  | configured | answered | went | reaped | recorded => cases stops

/-- What a run owes that is at rest, its timer gives. -/
theorem Pulses.owes_eq_zero (pulses : Pulses alone)
    (rest : alone.service.step? alone.now false = none)
    (soon : ∀ instant, alone.service.timer? = some instant → horizon < instant)
    {spot : Spot} (member : run ∈ alone.service.live) (beats : Beats run spot) (stop : Bool) :
    spot.owes horizon stop = 0 := by
  obtain ⟨place, there⟩ := List.mem_iff_getElem?.mp member
  obtain ⟨_, live⟩ := live_eq_of_getElem? pulses.kept.sound there
  rcases beats.idle (idle_of_rest rest live) with rfl | ⟨instant, rfl, _⟩
  · rfl
  · have ahead := soon instant ((timer?_of_live live).trans (beats.timer.mpr rfl))
    simp [Spot.owes, ahead]

theorem spares_of_own (own : event.own = true) : event ≠ .did .pause ∧ event.stops = false := by
  cases event with
  | called | killed | configured => cases own
  | answered | went | reaped | recorded => exact ⟨nofun, rfl⟩

def unset : Alone := sole (Threaded.new heartbeat defaultVersion "1" beating)

/-- A heartbeat that is set to ten beats a second, and called for the first time. -/
def brisk : Alone :=
  { unset with service := { unset.service with config := Table.empty.insert "interval-ms" "100" } }

theorem plays_brisk : Plays unset [(0, .configured brisk.service.config)] brisk :=
  plays_step (.configured brisk.service.config) rfl

/-- A heartbeat counts one beat for every interval of a run that goes on; from a pause until the next
resume or start at most one, and that only when the wait is over that had begun; and after a stop or
a kill nothing until the next start. A stop comes when all that was due at its instant has happened.
The program keeps to these courses, and time goes on to any instant. -/
theorem heartbeat_keeps_time {version stamp : String}
    (course : Course (sole (Threaded.new heartbeat version stamp beating)) past alone)
    (step : Step alone event after) (onward : Course after more later) :
    (event = .did .start →
      (∀ moment ∈ more, moment.2 ≠ .did .pause ∧ moment.2.stops = false) →
      later.service.step? later.now false = none →
      ∀ millis, Asks alone.service.config millis →
        later.service.count = alone.service.count + (later.now - alone.now) / millis) ∧
    (event = .did .pause →
      (∀ moment ∈ more, moment.2 ≠ .did .resume ∧ moment.2 ≠ .did .start) →
      later.service.count ≤ alone.service.count + 1 ∧
        (alone.service.step? alone.now false = none →
          (∀ instant, alone.service.timer? = some instant → later.now < instant) →
          later.service.count = alone.service.count)) ∧
    (event.stops = true → (event = .killed ∨ alone.service.step? alone.now false = none) →
      (∀ moment ∈ more, moment.2 ≠ .did .start) →
      later.service.count = alone.service.count) ∧
    (∀ next, alone.step? = some next → ∃ moved : Event, moved.own = true ∧ Step alone moved next) ∧
    ∀ instant ≥ later.now, ∃ (rest : History) (last : Alone), Course later rest last ∧
      last.step? = none ∧ last.now = instant ∧ ∀ moment ∈ rest, moment.2.own = true := by
  have pulses := course.pulses (pulses_new version stamp)
  have more_pulses := pulses.step step
  have grown : alone.service.count ≤ later.service.count :=
    Nat.le_trans (pulses.change step).count_le (onward.count_le more_pulses)
  refine ⟨?started, ?paused, ?stopped, fun _ => step_of_step?,
    fun _ => lively.exists_later (onward.pulses more_pulses)⟩
  case started =>
    rintro rfl left rest millis asks
    rw [← asks_iff.mp asks]
    exact (onward.paced more_pulses (step.paced pulses) left).count_eq rest
  case paused =>
    rintro rfl left
    have bounded : ∀ {limit : Nat}, Barred after.service later.now limit →
        later.service.count ≤ limit := fun barred =>
      (onward.barred more_pulses (Nat.le_refl _) barred
        (fun moment member => (left moment member).2)
        (.inr fun moment member => (left moment member).1)).count_le
    refine ⟨bounded (step.barred_of_pause pulses (Nat.le_succ _) ?_), fun rest soon => ?_⟩
    · exact fun _ _ spot stop _ => Nat.add_le_add_left (spot.owes_le_one later.now stop) _
    · refine Nat.le_antisymm (bounded (step.barred_of_pause pulses (Nat.le_refl _) ?_)) grown
      intro run member spot stop beats
      rw [pulses.owes_eq_zero rest soon member beats stop]
      exact Nat.le_refl _
  case stopped =>
    intro stops rest unbegun
    obtain ⟨asked, barred⟩ := step.barred_of_stops pulses stops rest later.now
    exact Nat.le_antisymm
      (onward.barred more_pulses (Nat.le_refl _) barred unbegun (.inl asked)).count_le grown

theorem heartbeat_keeps_time_brisk : ∃ more later,
    Course (brisk.call (.control .start)) more later ∧ later.now = 250 ∧
      later.service.count = 2 := by
  have begun := plays_run 9 (brisk.call (.control .start))
  have first := begun.trans (@plays_lapsed _ 100 rfl (by decide) (by rintro _ ⟨⟩; decide))
  have second := first.trans (@plays_lapsed _ 200 rfl (by decide) (by rintro _ ⟨⟩; decide))
  have third := second.trans (@plays_lapsed _ 250 rfl (by decide) (by rintro _ ⟨⟩; decide))
  obtain ⟨past, course, _⟩ := plays_brisk
  obtain ⟨more, onward, own⟩ := third
  refine ⟨more, _, onward, rfl, ?_⟩
  have asks : Asks brisk.service.config 100 := asks_iff.mpr rfl
  have left : ∀ moment ∈ more, moment.2 ≠ .did .pause ∧ moment.2.stops = false :=
    fun moment member => spares_of_own (own_of_filter own moment member)
  exact (heartbeat_keeps_time course (.called (.control .start)) onward).1 rfl left rfl 100 asks

/-- Between a pause and the next resume there may be a stop and a start, and the run that begins then
is not paused. -/
theorem heartbeat_outpaces_pause : ∃ alone paused later : Alone,
    Plays unset [(0, .configured brisk.service.config), (0, .did .start)] alone ∧
    alone.now = 50 ∧ Step alone (.did .pause) paused ∧
    Plays paused [(60, .called (.control .stop) (.stopping 1 10060)), (70, .did .start)] later ∧
    later.now = 270 ∧ alone.service.count = 0 ∧ later.service.count = 2 := by
  have begun := (plays_brisk.trans (plays_served .start brisk)).trans
    (@plays_lapsed (brisk.served .start) 50 rfl (by decide) (by rintro _ ⟨⟩; decide))
  have parked := plays_run 9 (((brisk.served .start).lapsed 50).call (.control .pause))
  have stopped := (parked.trans (@plays_lapsed _ 60 rfl (by decide) (by rintro _ ⟨⟩; decide))).trans
    (plays_served .stop _)
  have restarted := (stopped.trans (@plays_lapsed _ 70 rfl (by decide) (by rintro _ ⟨⟩))).trans
    (plays_served .start _)
  have first := restarted.trans (@plays_lapsed _ 170 rfl (by decide) (by rintro _ ⟨⟩; decide))
  have second := first.trans (@plays_lapsed _ 270 rfl (by decide) (by rintro _ ⟨⟩; decide))
  exact ⟨_, _, _, begun, rfl, .called (.control .pause), second, rfl, rfl, rfl⟩

end ServiceHost.Alone
