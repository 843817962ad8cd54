import ServiceHost.Proofs.Host.Return

/-! When calls get their permits, and when their work begins.

A call that has got its permit is ready. So if time passes only while no call of its service could
go on, its work begins at the very instant of the permit.
-/

set_option autoImplicit false

namespace ServiceHost

theorem Executor.stays_continueWith {ω ρ : Type} {executor : Executor ω ρ} {id : Nat} {work : ω}
    {entry : Request × ω} (member : entry ∈ executor.hand) :
    ∃ body, (entry.1, body) ∈ (executor.continueWith id work).hand := by
  rcases mem_hand.mp member with ⟨call, here, rfl⟩ | waits
  · by_cases own : (call.request.id == id) = true
    · exact ⟨work, mem_hand.mpr (.inl ⟨_, List.mem_map.mpr ⟨call, here, if_pos own⟩, rfl⟩)⟩
    · exact ⟨call.work, mem_hand.mpr (.inl ⟨_, List.mem_map.mpr ⟨call, here, if_neg own⟩, rfl⟩)⟩
  · exact ⟨entry.2, mem_hand_of_queue waits⟩

namespace System

variable {before after last : System Answer} {stages later : Nat → Option Stage} {event : Event}
  {moments : List Moment} {moment : Moment} {call : Running Body} {entry : Request × Body}
  {inquiry : Inquiry} {id : ServiceId}

/-! ## Time that minds the calls of a service -/

/-- Whether an event may happen now, as far as the calls of a service are concerned: time passes
only while none of them that has a permit could go on, and not beyond a timer of theirs. -/
def minds (id : ServiceId) (system : System Answer) : Event → Bool
  | .wait instant => system.executor.running.all fun call =>
    call.work.service != id ||
      (system.serveCall? call).isNone && call.work.phase.timer?.all fun timer => instant ≤ timer
  | _ => true

/-- The other services may be as slow as they like. -/
def Mindful (id : ServiceId) (moments : List Moment) : Prop :=
  ∀ moment ∈ moments, moment.before.minds id moment.event = true

instance (id : ServiceId) (moments : List Moment) : Decidable (Mindful id moments) :=
  inferInstanceAs (Decidable (∀ moment ∈ moments, moment.before.minds id moment.event = true))

theorem Mindful.of_append (mindful : Mindful id (moments ++ [moment])) :
    Mindful id moments ∧ moment.before.minds id moment.event = true :=
  ⟨fun earlier member => mindful earlier (List.mem_append_left _ member),
    mindful moment (List.mem_append_right _ List.mem_cons_self)⟩

/-- Time passes in this way under the clock. -/
theorem minds_of_prompts (prompt : before.prompts event = true) (id : ServiceId) :
    before.minds id event = true := by
  cases event with
  | wait instant =>
    refine List.all_eq_true.mpr fun call member =>
      Bool.or_eq_true_iff.mpr (.inr (Bool.and_eq_true_iff.mpr ⟨?_, ?_⟩))
    · exact Option.isNone_iff_eq_none.mpr (not_servable (quiet_of_wait prompt) member)
    · cases timer : call.work.phase.timer? with
      | none => rfl
      | some expires => exact decide_eq_true (wait_le_timer prompt member timer)
  | _ => rfl

theorem minds_of_wait {instant : Nat} (minds : before.minds id (.wait instant) = true)
    (member : call ∈ before.executor.running) (own : call.work.service = id) :
    before.serveCall? call = none ∧ ∀ timer, call.work.phase.timer? = some timer →
      instant ≤ timer := by
  have all := List.all_eq_true.mp minds call member
  simp only [own, bne_self_eq_false, Bool.false_or, Bool.and_eq_true,
    Option.isNone_iff_eq_none] at all
  obtain ⟨quiet, bounded⟩ := all
  refine ⟨quiet, fun timer known => ?_⟩
  rw [known, Option.all_some, decide_eq_true_eq] at bounded
  exact bounded

/-! ## What becomes of the calls in hand -/

/-- What is in hand under the number of a call is that call. -/
theorem Entered.of_number (entered : Entered moments last) {entry : Request × Body}
    (member : entry ∈ last.executor.hand) (stands : inquiry ∈ asked moments)
    (number : entry.1.id = inquiry.number) :
    entry.1 = inquiry.request ∧ entry.2.service = inquiry.service ∧
      entry.2.query = inquiry.query := by
  obtain ⟨other, asked, heads, rest⟩ := entered.hand entry member
  obtain rfl := entered.eq_of_number asked stands ((congrArg Request.id heads).symm.trans number)
  exact ⟨heads, rest⟩

/-- Where a call has its permit from. -/
inductive Permit (before : System Answer) (event : Event) (after : System Answer)
    (call : Running Body) : Prop where
  | kept {earlier : Running Body} :
      earlier ∈ before.executor.running → earlier.request = call.request →
      earlier.work = call.work → Permit before event after call
  | granted :
      call.request.id ∉ before.executor.holders → after.now = before.now →
      call.work.phase.isFresh = true →
      (call.request, call.work) ∈ before.executor.queue ∨
        call.request.expires = before.now + callDeadline →
      Permit before event after call
  /-- It is the call that was served, and it goes on. -/
  | served {place : Nat} {earlier : Running Body} {service changed : Service} :
      event = .serve place → before.executor.running[place]? = some earlier →
      before.host.service? earlier.work.service = some service →
      service.goOn before.now earlier.work.query earlier.work.phase =
        some (call.work.phase, changed) →
      call.work.phase.ending? = none → earlier.request = call.request →
      earlier.work.service = call.work.service → earlier.work.query = call.work.query →
      after.now = before.now → Permit before event after call

/-- A call of a service with a run loop is served: how far it is then, and the service then. -/
structure Serves (before : System Answer) (place : Nat) (call : Running Body) (service : Threaded)
    (phase : Phase) (next : Threaded) (after : System Answer) : Prop where
  goes : service.goOn before.now call.work.query call.work.phase = some (phase, next)
  turn : service.Turn before.now call.work.query call.work.phase phase next
  service : after.host.service? call.work.service = some (.threaded next)
  executor : after.executor = moved before.executor call phase
  now : after.now = before.now
  returned : (⟨before, .serve place, after⟩ : Moment).returned? =
    phase.ending?.map fun ending => ⟨before.now, call.request.id, ending⟩

theorem Step.serves {place : Nat} {service : Threaded}
    (step : before.Step stages (.serve place) after later) (sound : before.Sound)
    (there : before.executor.running[place]? = some call)
    (found : before.host.service? call.work.service = some (.threaded service)) :
    ∃ phase next, before.Serves place call service phase next after := by
  cases step with
  | stir stirs => cases stirs
  | @serve _ other serving changed phase here served goes =>
    cases there.symm.trans here
    cases served.symm.trans found
    obtain ⟨⟨_, next⟩, went, equation⟩ := Option.map_eq_some_iff.mp goes
    cases equation
    exact ⟨phase, next, went, sound.turn (List.mem_of_getElem? there) found went,
      service?_withService_self found _, rfl, rfl, Moment.returned?_of_serve there served goes⟩

/-- The call that is served holds a permit. -/
theorem Moment.mem_of_served? (served : moment.served? = some call) :
    call ∈ moment.before.executor.running := by
  unfold served? at served
  split at served
  · exact List.mem_of_getElem? served
  · cases served

namespace Turn

/-- Time passes by nothing but a wait. -/
theorem now_cases (turn : before.Turn event after) :
    after.now = before.now ∨ event = .wait after.now := by
  cases turn with
  | rests _ _ _ now | asks _ _ _ _ _ _ now | serves _ _ _ _ now | expires _ now => exact .inl now
  | waits _ _ now => exact .inr (congrArg Event.wait now.symm)

theorem permit (turn : before.Turn event after) (entered : Entered moments before)
    (worked : Worked moments before) (member : call ∈ after.executor.running) :
    Permit before event after call := by
  have orderly := entered.orderly
  -- Whoever waits in the line has no permit yet.
  have waiting : (call.request, call.work) ∈ before.executor.queue →
      call.request.id ∉ before.executor.holders := fun waits holds =>
    Nat.lt_irrefl _ (orderly.older _ holds _ (List.mem_map_of_mem waits))
  cases turn with
  | rests _ _ same | waits _ same =>
    rw [same] at member
    exact .kept member rfl rfl
  | asks service query _ _ _ same now =>
    rw [same] at member
    rcases Executor.running_submit member with old | ⟨_, admitted⟩
    · exact .kept old rfl rfl
    · rcases List.mem_append.mp admitted with waits | new
      · exact .granted (waiting waits) now (worked.queued _ waits) (.inl waits)
      · obtain ⟨request, work⟩ := Prod.mk.inj (List.mem_singleton.mp new)
        refine .granted (fun holds => ?_) now (by rw [work]; rfl) (.inr (by rw [request]))
        rw [request] at holds
        exact Nat.lt_irrefl _ (orderly.lt_issued_of_holder holds)
  | @serves place _ earlier service changed phase there found goes same now =>
    rw [same] at member
    cases told : phase.ending? with
    | some ending =>
      obtain rfl := Phase.ending?_eq_some.mp told
      rw [moved_of_ended] at member
      rcases Executor.running_conclude member with old | ⟨_, waits⟩
      · exact .kept old rfl rfl
      · exact .granted (waiting waits) now (worked.queued _ waits) (.inl waits)
    | none =>
      rw [moved_of_going _ _ told] at member
      rcases Executor.running_continueWith member with ⟨old, _⟩ | ⟨other, here, same, rfl⟩
      · exact .kept old rfl rfl
      · have equal := orderly.eq_of_number
          (Executor.mem_hand_of_running (List.mem_of_getElem? there))
          (Executor.mem_hand_of_running here) same.symm
        exact .served rfl there found goes told (Prod.mk.inj equal).1 rfl rfl now
  | expires same =>
    rw [same] at member
    obtain ⟨earlier, here, rfl⟩ := Executor.running_expire member
    exact .kept here rfl rfl

/-- A call keeps its permit, and its work stays as it is, as long as it is not served. -/
theorem keeps (turn : before.Turn event after) (member : call ∈ before.executor.running)
    (other : ∀ place served, event = .serve place → before.executor.running[place]? = some served →
      served.request.id ≠ call.request.id) :
    ∃ kept ∈ after.executor.running, kept.request = call.request ∧ kept.work = call.work := by
  cases turn with
  | rests _ _ same | waits _ same => exact ⟨call, by rwa [same], rfl, rfl⟩
  | asks _ _ _ _ _ same =>
    refine ⟨call, ?_, rfl, rfl⟩
    rw [same, Executor.submit, Executor.grantFree, Executor.grant_eq]
    exact List.mem_append_left _ member
  | @serves place _ served _ _ phase there _ _ same =>
    have apart := other place served rfl there
    refine ⟨call, ?_, rfl, rfl⟩
    rw [same]
    cases told : phase.ending? with
    | some ending =>
      obtain rfl := Phase.ending?_eq_some.mp told
      obtain ⟨_, running, _⟩ := before.executor.conclude_parts served.request.id
        fun request => ending.outcome request.operation
      rw [moved_of_ended, running]
      exact List.mem_append_left _ (List.mem_filter.mpr ⟨member, by simpa using apart.symm⟩)
    | none =>
      rw [moved_of_going _ _ told]
      exact List.mem_map.mpr ⟨call, member, if_neg (by simpa using apart.symm)⟩
  | expires same =>
    rw [same]
    exact ⟨_, List.mem_map.mpr ⟨call, member, rfl⟩, rfl, rfl⟩

/-- A call stays in hand until its work ends, or its deadline comes while it waits in the line. -/
theorem stays (turn : before.Turn event after) (orderly : before.executor.Orderly)
    (member : entry ∈ before.executor.hand) :
    (∃ body, (entry.1, body) ∈ after.executor.hand) ∨
      (entry ∈ before.executor.queue ∧ entry.1.expires ≤ before.now) ∨
      ∃ served ∈ before.executor.running, served.request.id = entry.1.id ∧
        ∃ ended, (⟨before, event, after⟩ : Moment).returned? = some ended ∧
          ended.number = entry.1.id := by
  cases turn with
  | rests _ _ same | waits _ same => exact .inl ⟨entry.2, by rw [same]; exact member⟩
  | asks _ _ _ _ _ same =>
    refine .inl ⟨entry.2, ?_⟩
    rw [same, Executor.hand_submit]
    exact List.mem_append_left _ member
  | @serves place _ served _ _ phase there found goes same =>
    have running := List.mem_of_getElem? there
    rw [same]
    cases told : phase.ending? with
    | some ending =>
      obtain rfl := Phase.ending?_eq_some.mp told
      by_cases own : served.request.id = entry.1.id
      · refine .inr (.inr ⟨served, running, own, ⟨before.now, served.request.id, ending⟩, ?_, own⟩)
        simp [Moment.returned?_of_serve there found goes, Phase.ending?]
      · refine .inl ⟨entry.2, ?_⟩
        rw [moved_of_ended]
        exact (Executor.mem_hand_conclude orderly (List.mem_map_of_mem running)).mpr
          ⟨member, Ne.symm own⟩
    | none =>
      rw [moved_of_going _ _ told]
      exact .inl (Executor.stays_continueWith member)
  | expires same =>
    rw [same]
    rcases Executor.mem_hand.mp member with ⟨call, here, rfl⟩ | waits
    · refine .inl ⟨call.work, Executor.mem_hand.mpr (.inl ⟨_, List.mem_map_of_mem here, rfl⟩)⟩
    · by_cases late : entry.1.expires ≤ before.now
      · exact .inr (.inl ⟨waits, late⟩)
      · refine .inl ⟨entry.2, Executor.mem_hand_of_queue ?_⟩
        exact List.mem_filter.mpr ⟨waits, by simpa using late⟩

end Turn

/-! ## From the permit to the beginning of the work -/

/-- A call gets its permit in a moment. -/
def Moment.Grants (moment : Moment) (number : Nat) : Prop :=
  number ∉ moment.before.executor.holders ∧ number ∈ moment.after.executor.holders

/-- A call has got its permit at an instant. -/
def GrantedAt (moments : List Moment) (number instant : Nat) : Prop :=
  ∃ moment ∈ moments, moment.Grants number ∧ moment.before.now = instant

theorem GrantedAt.append {number instant : Nat} (granted : GrantedAt moments number instant)
    (moment : Moment) : GrantedAt (moments ++ [moment]) number instant := by
  obtain ⟨earlier, member, rest⟩ := granted
  exact ⟨earlier, List.mem_append_left _ member, rest⟩

/-- Time does not pass while a call that has its permit has not begun. -/
theorem Books.not_fresh_of_wait {instant : Nat} (books : Books moments before stages)
    (minds : before.minds id (.wait instant) = true) (member : call ∈ before.executor.running)
    (own : call.work.service = id) : call.work.phase.isFresh = false := by
  refine Bool.eq_false_iff.mpr fun fresh => ?_
  obtain ⟨place, there, ready⟩ := books.begins member fresh
  simp [after?, there, (minds_of_wait minds member own).1] at ready

/-- The work of every call of a service begins at the instant at which the call has got its
permit. -/
structure Granted (id : ServiceId) (moments : List Moment) (system : System Answer) : Prop where
  fresh : ∀ call ∈ system.executor.running, call.work.service = id →
    call.work.phase.isFresh = true → GrantedAt moments call.request.id system.now
  begun : ∀ start ∈ begun moments, start.service = id →
    GrantedAt moments start.number start.instant

namespace Granted

theorem start (id : ServiceId) (host : Host) (capacity : Nat) :
    Granted id [] (.start host capacity) where
  fresh _ member := by cases member
  begun _ member := by cases member

theorem step (granted : Granted id moments before) (books : Books moments before stages)
    (minds : before.minds id event = true) (step : before.Step stages event after later) :
    Granted id (moments ++ [⟨before, event, after⟩]) after where
  fresh call member own fresh := by
    cases step.turn.permit books.entered books.worked member with
    | @kept earlier here request work =>
      rw [← work] at own fresh
      rcases step.turn.now_cases with now | rfl
      · rw [now, ← request]
        exact (granted.fresh earlier here own fresh).append _
      · cases fresh.symm.trans (books.not_fresh_of_wait minds here own)
    | granted absent now =>
      exact ⟨_, List.mem_append_right _ List.mem_cons_self,
        ⟨absent, List.mem_map_of_mem member⟩, now.symm⟩
    | served _ _ _ goes => cases fresh.symm.trans (Service.not_fresh goes)
  begun start member own := by
    rw [begun_append, List.mem_append, Option.mem_toList] at member
    rcases member with old | new
    · exact (granted.begun start old own).append _
    · obtain ⟨call, served, rfl⟩ := Option.map_eq_some_iff.mp new
      obtain ⟨served, fresh⟩ := Option.filter_eq_some_iff.mp served
      exact (granted.fresh call (Moment.mem_of_served? served) own fresh).append _

end Granted

/-- In a history that minds the calls of a service, their work begins at the instants of their
permits. -/
theorem History.granted {host : Host} {capacity : Nat} (unused : host.Unused)
    (history : History (.start host capacity) moments last) (mindful : Mindful id moments) :
    Granted id moments last := by
  obtain ⟨_, _, granted⟩ := (Books.start unused capacity).onward history
    (fun done system _ => Mindful id done → Granted id done system)
    (fun _ => .start id host capacity)
    fun _ _ books step granted mindful =>
      (granted mindful.of_append.1).step books mindful.of_append.2 step
  exact granted mindful

end System
end ServiceHost
