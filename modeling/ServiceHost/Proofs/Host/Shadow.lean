import Mathlib.Data.List.Forall2
import ServiceHost.Proofs.Host.Granted
import ServiceHost.Proofs.Host.Spares
import ServiceHost.Proofs.Service.Direct

/-! A service behind a host, and the same service called directly.

The direct calls are made whenever the work of a call through the host begins, and they are answered
whenever that work ends. In between, the run of the one does what the run of the other does.
-/

set_option autoImplicit false

namespace ServiceHost

section Forall₂

variable {α β : Type} {R S : α → β → Prop} {left : List α} {right : List β} {place : Nat}
  {first : α}

theorem forall₂_getElem? (all : List.Forall₂ R left right) (there : left[place]? = some first) :
    ∃ second, right[place]? = some second ∧ R first second := by
  induction all generalizing place with
  | nil => cases there
  | cons holds _ ih =>
    cases place with
    | zero =>
      cases there
      exact ⟨_, rfl, holds⟩
    | succ place => exact ih there

/-- One pair is related anew, and all others stay related. -/
theorem forall₂_set (all : List.Forall₂ R left right) (once : left.Nodup) {second : β}
    (there : left[place]? = some first) (new : S first second)
    (keeps : ∀ other ∈ left, other ≠ first → ∀ partner, R other partner → S other partner) :
    List.Forall₂ S left (right.set place second) := by
  induction all generalizing place with
  | nil => cases there
  | @cons head partner rest partners holds more ih =>
    obtain ⟨apart, once⟩ := List.nodup_cons.mp once
    cases place with
    | zero =>
      cases there
      refine .cons new ?_
      refine List.forall₂_iff_zip.mpr ⟨more.length_eq, fun {other _} member => ?_⟩
      have among := (List.of_mem_zip member).1
      exact keeps other (List.mem_cons_of_mem _ among) (fun same => apart (same ▸ among)) _
        (List.forall₂_zip more member)
    | succ place =>
      have among : first ∈ rest := List.mem_of_getElem? there
      refine .cons (keeps head List.mem_cons_self (fun same => apart (same ▸ among)) _ holds) ?_
      exact ih once there fun other member => keeps other (List.mem_cons_of_mem _ member)

end Forall₂

namespace System

variable {before after last : System Answer} {stages later : Nat → Option Stage} {event : Event}
  {moments : List Moment} {moment : Moment} {id : ServiceId} {first alone next : Alone}
  {made : List (Nat × Query)} {start : Inquiry} {call : Query × Phase}

/-- The calls of a service whose work has begun, in their order. -/
def begunOf (id : ServiceId) (moments : List Moment) : List Inquiry :=
  (begun moments).filter fun start => start.service = id

theorem mem_begunOf :
    start ∈ begunOf id moments ↔ start ∈ begun moments ∧ start.service = id := by
  rw [begunOf, List.mem_filter, decide_eq_true_eq]

/-- A service looks the same behind a host as where it is called directly. -/
structure Shows (id : ServiceId) (system : System Answer) (alone : Alone) : Prop where
  now : alone.now = system.now
  service : system.host.service? id = some (.threaded alone.service)

/-- A host, and the direct calls of one of its services, moment by moment from the one on at which
the service is there. -/
inductive Shadow (id : ServiceId) (first : Alone) :
    List Moment → System Answer → List (Nat × Query) → Alone → Prop where
  | start {moments : List Moment} {system : System Answer} :
      Shows id system first → Shadow id first moments system [] first
  | rests {moments : List Moment} {event : Event} {before after : System Answer}
      {made : List (Nat × Query)} {alone : Alone} :
      Shadow id first moments before made alone → before.after? event = some after →
      Shows id after alone → Shadow id first (moments ++ [⟨before, event, after⟩]) after made alone
  | calls {moments : List Moment} {event : Event} {before after : System Answer}
      {made : List (Nat × Query)} {alone : Alone} (query : Query) :
      Shadow id first moments before made alone → before.after? event = some after →
      Shows id after (alone.call query) →
      Shadow id first (moments ++ [⟨before, event, after⟩]) after
        (made ++ [(alone.now, query)]) (alone.call query)
  | moves {moments : List Moment} {event : Event} {before after : System Answer}
      {made : List (Nat × Query)} {alone next : Alone} :
      Shadow id first moments before made alone → before.after? event = some after →
      alone.Moves next → Shows id after next →
      Shadow id first (moments ++ [⟨before, event, after⟩]) after made next

namespace Shadow

theorem shows_ (shadow : Shadow id first moments last made alone) : Shows id last alone := by
  cases shadow with
  | start shows_ => exact shows_
  | rests _ _ shows_ => exact shows_
  | calls _ _ _ shows_ => exact shows_
  | moves _ _ _ shows_ => exact shows_

/-- What is beside the host is a run of direct calls. -/
theorem run (shadow : Shadow id first moments last made alone) : Alone.Run first made alone := by
  induction shadow with
  | start => exact .start
  | rests _ _ _ ih => exact ih
  | calls query _ _ _ ih => exact ih.called query
  | moves _ _ moves _ ih => exact ih.moved moves

end Shadow

/-- How a call of a service stands next to the direct call that was made when its work began: both
have ended with the same value, or both are in the same phase. -/
inductive Stands (id : ServiceId) (moments : List Moment) (system : System Answer)
    (start : Inquiry) : Query × Phase → Prop where
  | ended {ended : Returned} {value : Except ServiceError Reply} :
      ended ∈ returned moments → ended.number = start.number → ended.ending = .value value →
      Stands id moments system start (start.query, .ended (.value value))
  | going {call : Running Body} :
      call ∈ system.executor.running → call.request.id = start.number → call.work.service = id →
      call.work.query = start.query → call.work.phase.isFresh = false →
      Stands id moments system start (start.query, call.work.phase)

namespace Stands

/-- A call stands as it stood, as long as it is not served. -/
theorem stays (stands : Stands id moments before start call) (turn : before.Turn event after)
    (orderly : before.executor.Orderly)
    (other : ∀ place served, event = .serve place → before.executor.running[place]? = some served →
      served.work.service = id → served.request.id = start.number →
      served.work.phase.isFresh = true) :
    Stands id (moments ++ [⟨before, event, after⟩]) after start call := by
  cases stands with
  | ended member number told =>
    exact .ended (returned_grows member _) number told
  | @going running member number own asks begun =>
    obtain ⟨kept, there, request, work⟩ := turn.keeps member fun place served serves here same => by
      have equal := orderly.eq_of_number (Executor.mem_hand_of_running (List.mem_of_getElem? here))
        (Executor.mem_hand_of_running member) same
      obtain ⟨_, work⟩ := Prod.mk.inj equal
      have fresh := other place served serves here (by rw [work, own]) (same.trans number)
      rw [work, begun] at fresh
      cases fresh
    rw [← work] at own asks begun ⊢
    exact .going there (by rw [request, number]) own asks begun

/-- Once a call is served, it stands next to a direct call in the phase that it has then. -/
theorem served {place : Nat} {served : Running Body}
    (there : before.executor.running[place]? = some served) (own : served.work.service = id)
    (number : served.request.id = start.number) (asks : served.work.query = start.query)
    {phase : Phase} {service changed : Threaded}
    (serves : before.Serves place served service phase changed after) :
    Stands id (moments ++ [⟨before, .serve place, after⟩]) after start (start.query, phase) := by
  rcases serves.turn.phase_cases with ⟨value, rfl⟩ | ⟨generation, rfl, _⟩
  · exact .ended (mem_returned _ serves.returned) number rfl
  · have member : { served with work := { served.work with
        phase := .stopping generation (before.now + stopGrace) } } ∈ after.executor.running := by
      rw [serves.executor, moved_of_going _ _ rfl]
      exact List.mem_map.mpr ⟨served, List.mem_of_getElem? there, if_pos (beq_self_eq_true _)⟩
    exact .going member number own asks rfl

end Stands

/-- The service that is called directly goes along with the one behind the host, and its calls stay
as they are. -/
def Follows (id : ServiceId) (alone : Alone) (after : System Answer) : Prop :=
  Shows id after alone ∨
    ∃ next, alone.Moves next ∧ next.calls = alone.calls ∧ Shows id after next

/-- What is done to a service that is spared, is done to the one that is called directly. -/
theorem Shows.spared (shows_ : Shows id before alone) (now : after.now = before.now)
    (spares : before.host.Spares after.host id) : Follows id alone after := by
  have same := shows_.now.trans now.symm
  rcases spares with spared | ⟨config, configured⟩
  · exact .inl ⟨same, spared.trans shows_.service⟩
  · rw [shows_.service] at configured
    exact .inr ⟨_, .configured config, rfl, same, configured⟩

/-- A host and the direct calls beside it: there is one direct call for every call of the service
whose work has begun, made at that instant. -/
structure Mirrors (id : ServiceId) (first : Alone) (moments : List Moment) (system : System Answer)
    (made : List (Nat × Query)) (alone : Alone) : Prop where
  shadow : Shadow id first moments system made alone
  log : made = (begunOf id moments).map fun start => (start.instant, start.query)
  calls : List.Forall₂ (Stands id moments system) (begunOf id moments) alone.calls

theorem begunOf_append (past : List Moment) (moment : Moment) :
    begunOf id (past ++ [moment]) =
      begunOf id past ++ moment.begun?.toList.filter fun start => start.service = id := by
  rw [begunOf, begun_append, List.filter_append, begunOf]

theorem begunOf_of_unserved (moments : List Moment)
    (other : ∀ served, moment.served? = some served → served.work.service ≠ id) :
    begunOf id (moments ++ [moment]) = begunOf id moments := by
  rw [begunOf_append]
  cases begins : moment.begun? with
  | none => exact List.append_nil _
  | some start =>
    obtain ⟨served, found, rfl⟩ := Option.map_eq_some_iff.mp begins
    have apart := other served (Option.filter_eq_some_iff.mp found).1
    simp [apart]

/-- A call in hand that is not fresh stands in the book of those that began. -/
theorem Books.begunOf_of_hand (books : Books moments before stages) {entry : Request × Body}
    (mine : entry ∈ before.executor.hand) (own : entry.2.service = id)
    (cold : entry.2.phase.isFresh = false) :
    ∃ start ∈ begunOf id moments, entry.1.id = start.number ∧ entry.2.query = start.query := by
  have known : entry.1.id ∈ (begun moments).map Inquiry.number := by
    refine Decidable.byContradiction fun absent => ?_
    cases cold.symm.trans ((books.worked.fresh _ mine).mpr absent)
  obtain ⟨start, member, same⟩ := List.mem_map.mp known
  obtain ⟨inquiry, stands, number, service, query⟩ := books.worked.known start member
  obtain ⟨_, service', query'⟩ := books.entered.of_number mine stands (same.symm.trans number)
  have mine : start.service = id := service.trans (service'.symm.trans own)
  exact ⟨start, mem_begunOf.mpr ⟨member, mine⟩, same.symm, query'.trans query.symm⟩

theorem Worked.nodup_begunOf (worked : Worked moments before) (id : ServiceId) :
    (begunOf id moments).Nodup :=
  (worked.once.of_map _).filter _

theorem Worked.eq_of_begunOf (worked : Worked moments before) {other : Inquiry}
    (one : start ∈ begunOf id moments) (two : other ∈ begunOf id moments)
    (same : start.number = other.number) : start = other :=
  List.inj_on_of_nodup_map worked.once (mem_begunOf.mp one).1 (mem_begunOf.mp two).1 same

theorem Step.host_of_wait {instant : Nat} (step : before.Step stages (.wait instant) after later) :
    after.host = before.host := by
  cases step with
  | stir stirs => cases stirs
  | wait => rfl

namespace Mirrors

/-- While no call of the service is served, the direct calls stand as they stood. -/
theorem idles (mirrors : Mirrors id first moments before made alone)
    (turn : before.Turn event after) (orderly : before.executor.Orderly)
    (done : before.after? event = some after)
    (other : ∀ served, (⟨before, event, after⟩ : Moment).served? = some served →
      served.work.service ≠ id) (follows : Follows id alone after) :
    ∃ next, Mirrors id first (moments ++ [⟨before, event, after⟩]) after made next := by
  have unchanged := begunOf_of_unserved moments other
  have calls : List.Forall₂ (Stands id (moments ++ [⟨before, event, after⟩]) after)
      (begunOf id moments) alone.calls := by
    refine mirrors.calls.imp fun start call stands => stands.stays turn orderly ?_
    rintro place served rfl there own
    exact absurd own (other served there)
  rcases follows with shows_ | ⟨next, moves, same, shows_⟩
  · exact ⟨alone, mirrors.shadow.rests done shows_, by rw [unchanged, mirrors.log],
      unchanged ▸ calls⟩
  · exact ⟨next, mirrors.shadow.moves done moves shows_, by rw [unchanged, mirrors.log],
      by rwa [unchanged, same]⟩

/-- The work of a call begins, and the direct call is made. -/
theorem begins (mirrors : Mirrors id first moments before made alone)
    (books : Books moments before stages) {place : Nat}
    (done : before.after? (.serve place) = some after) {served : Running Body}
    (there : before.executor.running[place]? = some served) (own : served.work.service = id)
    (fresh : served.work.phase.isFresh = true) {phase : Phase} {service : Threaded}
    (serves : before.Serves place served alone.service phase service after)
    (turn : before.Turn (.serve place) after) :
    Mirrors id first (moments ++ [⟨before, .serve place, after⟩]) after
      (made ++ [(alone.now, served.work.query)]) (alone.call served.work.query) := by
  have shows_ := mirrors.shadow.shows_
  have went := serves.goes
  rw [Phase.eq_fresh fresh, ← shows_.now] at went
  have called : alone.call served.work.query =
      { alone with service, calls := alone.calls ++ [(served.work.query, phase)] } := by
    simp [Alone.call, Option.some.inj went]
  have longer : begunOf id (moments ++ [⟨before, .serve place, after⟩]) =
      begunOf id moments ++ [⟨before.now, served.request.id, id, served.work.query⟩] := by
    simp [begunOf_append, Moment.begun?_of_serve there, fresh, own]
  have stands : Stands id (moments ++ [⟨before, .serve place, after⟩]) after
      ⟨before.now, served.request.id, id, served.work.query⟩ (served.work.query, phase) :=
    .served there own rfl rfl serves
  refine ⟨mirrors.shadow.calls _ done ?_, ?_, ?_⟩
  · rw [called]
    exact ⟨shows_.now.trans serves.now.symm, own ▸ serves.service⟩
  · rw [longer, mirrors.log, List.map_append, shows_.now]
    rfl
  · rw [longer, called]
    refine List.rel_append (mirrors.calls.imp fun start call old => ?_) (.cons stands .nil)
    refine old.stays turn books.entered.orderly ?_
    rintro _ _ ⟨⟩ here _ _
    cases there.symm.trans here
    exact fresh

/-- The work of a call that waits goes on, and so does the direct call. -/
theorem answers (mirrors : Mirrors id first moments before made alone)
    (books : Books moments before stages) {place : Nat}
    (done : before.after? (.serve place) = some after) {served : Running Body}
    (there : before.executor.running[place]? = some served) (own : served.work.service = id)
    (cold : served.work.phase.isFresh = false) {phase : Phase} {service : Threaded}
    (serves : before.Serves place served alone.service phase service after)
    (turn : before.Turn (.serve place) after) :
    ∃ next, Mirrors id first (moments ++ [⟨before, .serve place, after⟩]) after made next := by
  have shows_ := mirrors.shadow.shows_
  have running := List.mem_of_getElem? there
  have mine := Executor.mem_hand_of_running running
  obtain ⟨start, here, number, asks⟩ := books.begunOf_of_hand mine own cold
  obtain ⟨index, known⟩ := List.getElem?_of_mem here
  obtain ⟨call, called, stands⟩ := forall₂_getElem? mirrors.calls known
  have same : call = (served.work.query, served.work.phase) := by
    cases stands with
    | ended member counts =>
      refine absurd ?_ (books.worked.going _ mine)
      rw [number, ← counts]
      exact List.mem_map_of_mem member
    | going other counts _ query =>
      have equal := books.entered.orderly.eq_of_number (Executor.mem_hand_of_running other) mine
        (counts.trans number.symm)
      rw [asks, (Prod.mk.inj equal).2]
  subst same
  have unchanged :
      begunOf id (moments ++ [⟨before, .serve place, after⟩]) = begunOf id moments := by
    simp [begunOf_append, Moment.begun?_of_serve there, cold]
  have went := serves.goes
  rw [← shows_.now] at went
  refine ⟨{ alone with service, calls := alone.calls.set index (served.work.query, phase) },
    mirrors.shadow.moves done (.goes called went)
      ⟨shows_.now.trans serves.now.symm, own ▸ serves.service⟩,
    by rw [unchanged, mirrors.log], ?_⟩
  rw [unchanged]
  refine forall₂_set mirrors.calls (books.worked.nodup_begunOf id) known
    (asks ▸ .served there own number asks serves) fun other among apart partner old => ?_
  refine old.stays turn books.entered.orderly ?_
  rintro _ _ ⟨⟩ again _ same
  cases there.symm.trans again
  exact absurd (books.worked.eq_of_begunOf among here (same.symm.trans number)) apart

/-- Where time passes behind the host, it may pass for the direct calls. -/
theorem lets (mirrors : Mirrors id first moments before made alone) {instant : Nat}
    (minds : before.minds id (.wait instant) = true) : alone.lets instant = true := by
  have shows_ := mirrors.shadow.shows_
  refine List.all_eq_true.mpr fun call member => Bool.and_eq_true_iff.mpr ?_
  obtain ⟨place, there⟩ := List.getElem?_of_mem member
  obtain ⟨start, _, stands⟩ :=
    forall₂_getElem? (List.Forall₂.flip (R := flip (Stands id moments before)) mirrors.calls) there
  cases stands with
  | ended => exact ⟨rfl, rfl⟩
  | @going running holds _ own asks =>
    obtain ⟨quiet, bounded⟩ := minds_of_wait minds holds own
    constructor
    · cases goes : alone.service.goOn alone.now start.query running.work.phase with
      | none => rfl
      | some gone =>
        rw [shows_.now, ← asks] at goes
        simp [serveCall?, own, shows_.service, Service.goOn, goes] at quiet
    · cases timer : running.work.phase.timer? with
      | none => rfl
      | some expires => exact decide_eq_true (bounded expires timer)

theorem stirred (mirrors : Mirrors id first moments before made alone) {own : ServiceId}
    {act : Threaded → Option Threaded} (done : before.stirred? own act = some after)
    (moves : ∀ next, act alone.service = some next →
      alone.Moves { alone with service := next }) : Follows id alone after := by
  obtain ⟨now, service⟩ := mirrors.shadow.shows_
  obtain ⟨inner, next, found, acts, rfl⟩ := stirred?_eq_some done
  by_cases same : own = id
  · subst same
    cases found.symm.trans service
    exact .inr ⟨_, moves next acts, rfl, now, service?_withService_self found _⟩
  · exact .inl ⟨now, (service?_withService_of_ne _ (Ne.symm same) _).trans service⟩

/-- What a service does by itself, it does where it is called directly. -/
theorem stirs (mirrors : Mirrors id first moments before made alone)
    (done : before.after? event = some after) (stirs : event.stirs = true) :
    Follows id alone after := by
  cases event with
  | go own place =>
    refine mirrors.stirred done fun next goes => ?_
    obtain ⟨run, there, goes⟩ := Option.bind_eq_some_iff.mp goes
    rw [← mirrors.shadow.shows_.now] at goes
    exact .runs there goes
  | reap own place => exact mirrors.stirred done fun _ reaped => .reaps reaped
  | record own generation => exact mirrors.stirred done fun _ looked => .records looked
  | _ => cases stirs

theorem serves (mirrors : Mirrors id first moments before made alone)
    (books : Books moments before stages) (sound : before.Sound) {place : Nat}
    (done : before.after? (.serve place) = some after)
    (step : before.Step stages (.serve place) after later) :
    ∃ made next, Mirrors id first (moments ++ [⟨before, .serve place, after⟩]) after made next := by
  have shows_ := mirrors.shadow.shows_
  obtain ⟨served, there, _⟩ := Option.bind_eq_some_iff.mp done
  by_cases own : served.work.service = id
  · obtain ⟨phase, service, serves⟩ := step.serves sound there (own ▸ shows_.service)
    cases fresh : served.work.phase.isFresh with
    | true => exact ⟨_, _, mirrors.begins books done there own fresh serves step.turn⟩
    | false => exact ⟨made, mirrors.answers books done there own fresh serves step.turn⟩
  · refine ⟨made, mirrors.idles step.turn books.entered.orderly done ?_ (.inl ?_)⟩
    · rintro other same
      cases there.symm.trans same
      exact own
    · cases step with
      | stir stirs => cases stirs
      | serve here =>
        cases there.symm.trans here
        exact ⟨shows_.now, (service?_withService_of_ne _ (Ne.symm own) _).trans shows_.service⟩

theorem step (mirrors : Mirrors id first moments before made alone)
    (books : Books moments before stages) (sound : before.Sound)
    (minds : before.minds id event = true) (done : before.after? event = some after)
    (step : before.Step stages event after later) {holder : Holder}
    (held : after.host.holds later id holder) :
    ∃ made next, Mirrors id first (moments ++ [⟨before, event, after⟩]) after made next := by
  have shows_ := mirrors.shadow.shows_
  by_cases serving : ∃ place, event = .serve place
  · obtain ⟨place, rfl⟩ := serving
    exact mirrors.serves books sound done step
  have unserved : (⟨before, event, after⟩ : Moment).served? = none :=
    Turn.served?_of_ne fun place same => serving ⟨place, same⟩
  refine ⟨made, mirrors.idles step.turn books.entered.orderly done
    (fun served there => by cases unserved.symm.trans there) ?_⟩
  cases stirs : event.stirs with
  | true => exact mirrors.stirs done stirs
  | false =>
    have spares := step.spares books.owned held shows_.service
      (fun place same => serving ⟨place, same⟩) stirs
    rcases step.turn.now_cases with now | rfl
    · exact shows_.spared now spares
    · have since : alone.now ≤ after.now := shows_.now ▸ step.turn.now_le
      refine .inr ⟨_, .waits since (mirrors.lets minds), rfl, rfl, ?_⟩
      rw [step.host_of_wait]
      exact shows_.service

end Mirrors

/-- No call of a service has begun before the service is made. -/
theorem Books.begunOf_eq_nil (books : Books moments before stages) (event : Event)
    (after : System Answer) (absent : before.host.service? id = none) :
    begunOf id (moments ++ [⟨before, event, after⟩]) = [] := by
  have unmade : ∀ inquiry ∈ asked moments, inquiry.service ≠ id := by
    rintro inquiry stands rfl
    obtain ⟨_, found⟩ := Host.exists_service? (books.seated.known inquiry stands)
    cases absent.symm.trans found
  have unserved : ∀ served, (⟨before, event, after⟩ : Moment).served? = some served →
      served.work.service ≠ id := by
    intro served there own
    obtain ⟨inquiry, stands, _, service, _⟩ :=
      books.entered.hand _ (Executor.mem_hand_of_running (Moment.mem_of_served? there))
    exact unmade inquiry stands (service.symm.trans own)
  rw [begunOf_of_unserved moments unserved]
  refine List.eq_nil_iff_forall_not_mem.mpr fun start member => ?_
  obtain ⟨began, own⟩ := mem_begunOf.mp member
  obtain ⟨inquiry, stands, _, service, _⟩ := books.worked.known start began
  exact unmade inquiry stands (service.symm.trans own)

/-- There are direct calls of a service beside a host, from the making of the service on. -/
def Mirrored (id : ServiceId) (moments : List Moment) (system : System Answer) : Prop :=
  ∃ first made alone, Service.New (.threaded first.service) ∧ first.calls = [] ∧
    Mirrors id first moments system made alone

theorem Mirrored.begins (books : Books moments before stages)
    (absent : before.host.service? id = none) {service : Threaded}
    (found : after.host.service? id = some (.threaded service))
    (new : Service.New (.threaded service)) :
    Mirrored id (moments ++ [⟨before, event, after⟩]) after := by
  have nothing := books.begunOf_eq_nil event after absent
  refine ⟨⟨after.now, service, []⟩, [], ⟨after.now, service, []⟩, new, rfl,
    .start ⟨rfl, found⟩, ?_, ?_⟩
  · rw [nothing]
    rfl
  · rw [nothing]
    exact .nil

/-- Whatever a host does with a service that somebody holds, there are direct calls that do the
same. -/
theorem History.mirrored {host : Host} {capacity : Nat} (unused : host.Unused)
    (history : History (.start host capacity) moments last) (mindful : Mindful id moments)
    {server : ServerId} (held : last.host.serviceOf server = some id) {service : Threaded}
    (found : last.host.service? id = some (.threaded service)) : Mirrored id moments last := by
  obtain ⟨stages, _, _, mirrored⟩ := (Books.start unused capacity).onward history
    (fun done system stages => system.Sound ∧ (Mindful id done → ∀ holder service,
      system.host.holds stages id holder → system.host.service? id = some (.threaded service) →
      Mirrored id done system))
    ⟨(Trail.sound unused .start).1, fun _ _ service _ found => by
      simp [System.start, Host.service?, unused.services] at found⟩
    fun _ happens books step ⟨sound, mirrored⟩ => by
      refine ⟨step.sound sound, fun mindful holder service held found => ?_⟩
      obtain ⟨mindful, minds⟩ := mindful.of_append
      rcases step.kinds found with ⟨absent, new⟩ | ⟨earlier, there⟩
      · exact Mirrored.begins books absent found new
      · obtain ⟨former, before_held⟩ := step.held_before held there
        obtain ⟨first, made, alone, new, empty, mirrors⟩ :=
          mirrored mindful former earlier before_held there
        obtain ⟨made, next, mirrors⟩ := mirrors.step books sound minds happens step held
        exact ⟨first, made, next, new, empty, mirrors⟩
  exact mirrored mindful (.server server) service held found

end System
end ServiceHost
