import ServiceHost.Proofs.Host.Solo

/-! What a procedure comes to, whatever its calls are answered.

While a procedure waits, the services of the host go on by themselves, and nothing else is
done to the host. A procedure that ensures an outcome ends in all that can come of this.
-/

set_option autoImplicit false

namespace ServiceHost

namespace Host.Works

variable {host middle after : Host}

theorem trans (first : host.Works middle) (next : middle.Works after) : host.Works after where
  frame := by rw [next.frame, first.frame]
  works id := Service.Works.rel_trans (first.works id) (next.works id)

theorem directory (works : host.Works after) : after.directory = host.directory := by
  rw [works.frame]

theorem around (works : host.Works after) : after.around = host.around := by
  rw [works.frame]

theorem servers (works : host.Works after) : after.servers = host.servers := by
  rw [works.frame]

/-- Services go on, but none comes or goes. -/
theorem length_services (works : host.Works after) :
    after.services.length = host.services.length := by
  have there : ∀ id : Nat, (after.services[id]?).isSome = (host.services[id]?).isSome := by
    intro id
    have same := works.works id
    rw [service?, service?] at same
    cases before : host.services[id]? <;> cases now : after.services[id]? <;>
      simp_all
  refine Nat.le_antisymm (Nat.le_of_not_lt fun more => ?_) (Nat.le_of_not_lt fun more => ?_)
  · simpa [more] using there host.services.length
  · simpa [more] using there after.services.length

end Host.Works

namespace Flow

variable {α β : Type} {host : Host} {flow : Flow α}

/-- Whatever its calls are answered, a procedure ends with an outcome as stated. It does away with
no service, and calls none that the host does not have. -/
inductive Ensures (post : α → Host → Prop) : Flow α → Host → Prop where
  | done {flow : Flow α} {host last : Host} {result : α} :
      flow.run host = (.done result, last) → host.services.length ≤ last.services.length →
      post result last → Ensures post flow host
  | call {flow : Flow α} {host last : Host} {service : ServiceId} {query : Query}
      {next : CallAnswer → Flow α} :
      flow.run host = (.call service query next, last) →
      host.services.length ≤ last.services.length → service < last.services.length →
      (∀ answer after, last.Works after → Ensures post (next answer) after) →
      Ensures post flow host

/-- What a procedure can come to: the result, and the host in which it ends, for some answers of its
calls. -/
inductive ComesTo : Flow α → Host → α → Host → Prop where
  | done {flow : Flow α} {host last : Host} {result : α} :
      flow.run host = (.done result, last) → ComesTo flow host result last
  | call {flow : Flow α} {host middle after last : Host} {service : ServiceId} {query : Query}
      {next : CallAnswer → Flow α} {answer : CallAnswer} {result : α} :
      flow.run host = (.call service query next, middle) → middle.Works after →
      ComesTo (next answer) after result last → ComesTo flow host result last

variable {post weaker : α → Host → Prop}

namespace Ensures

theorem mono (ensures : Ensures post flow host)
    (implies : ∀ result last, post result last → weaker result last) :
    Ensures weaker flow host := by
  induction ensures with
  | done run grows holds => exact .done run grows (implies _ _ holds)
  | call run grows known _ ih => exact .call run grows known ih

/-- Only what a procedure does up to its next call matters. -/
theorem of_run {other : Flow α} {start : Host} (same : other.run start = flow.run host)
    (kept : start.services.length ≤ host.services.length) (ensures : Ensures post flow host) :
    Ensures post other start := by
  cases ensures with
  | done run grows holds => exact .done (same.trans run) (Nat.le_trans kept grows) holds
  | call run grows known onward =>
    exact .call (same.trans run) (Nat.le_trans kept grows) known onward

theorem pure {result : α} (holds : post result host) : Ensures post (pure result) host :=
  .done rfl (Nat.le_refl _) holds

theorem read {view : Host → α} (holds : post (view host) host) :
    Ensures post (Flow.read view) host :=
  .done rfl (Nat.le_refl _) holds

theorem act {change : Host → α × Host}
    (grows : host.services.length ≤ (change host).2.services.length)
    (holds : post (change host).1 (change host).2) : Ensures post (Flow.act change) host :=
  .done rfl grows holds

theorem modify {change : Host → Host} {post : Unit → Host → Prop}
    (grows : host.services.length ≤ (change host).services.length)
    (holds : post () (change host)) : Ensures post (Flow.modify change) host :=
  .done rfl grows holds

/-- No service is gone at the end. -/
theorem grown (ensures : Ensures post flow host) :
    Ensures (fun result last => post result last ∧ host.services.length ≤ last.services.length)
      flow host := by
  induction ensures with
  | done run grows holds => exact .done run grows ⟨holds, grows⟩
  | call run grows known _ ih =>
    refine .call run grows known fun answer after works => (ih answer after works).mono ?_
    rintro result last ⟨holds, more⟩
    rw [works.length_services] at more
    exact ⟨holds, Nat.le_trans grows more⟩

/-- It ends in something that it can come to. -/
theorem comesTo (ensures : Ensures post flow host) :
    Ensures (fun result last => ComesTo flow host result last ∧ post result last) flow host := by
  induction ensures with
  | done run grows holds => exact .done run grows ⟨.done run, holds⟩
  | call run grows known _ ih =>
    refine .call run grows known fun answer after works => (ih answer after works).mono ?_
    rintro result last ⟨comes, holds⟩
    exact ⟨.call run works comes, holds⟩

theorem bind {next : α → Flow β} {post : β → Host → Prop}
    (ensures : Ensures (fun result => Ensures post (next result)) flow host) :
    Ensures post (flow >>= next) host := by
  induction ensures with
  | @done flow host last result run grows holds =>
    exact holds.of_run (run_bind_of_done host run next) grows
  | @call flow host last service query goes run grows known _ ih =>
    have equation := run_bind flow next host
    rw [run] at equation
    exact .call equation grows known ih

/-- What is ensured of a changed result was ensured before the change. -/
theorem of_map {change : α → β} {post : β → Host → Prop}
    (ensures : Ensures post (change <$> flow) host) :
    Ensures (fun result => post (change result)) flow host := by
  generalize mapped : change <$> flow = whole at ensures
  induction ensures generalizing flow with
  | done run grows holds =>
    subst mapped
    rw [run_map] at run
    cases stops : flow.run _ with
    | mk stop last =>
      rw [stops] at run
      cases stop with
      | done => cases run; exact .done stops grows holds
      | call => cases run
  | call run grows known _ ih =>
    subst mapped
    rw [run_map] at run
    cases stops : flow.run _ with
    | mk stop last =>
      rw [stops] at run
      cases stop with
      | done => cases run
      | call =>
        cases run
        exact .call stops grows known fun answer after works => ih answer after works rfl

end Ensures

end Flow

/-! ## Operations, from halt to halt -/

/-- What holds of an operation and its host whenever it halts, if it does so once. It calls nobody
then who is not there. -/
structure Halt.Invariant (Holds : Halt → Host → Prop) : Prop where
  works : ∀ halt now after, Holds halt now → now.Works after → Holds halt after
  known : ∀ service stage now, Holds (.waits service stage) now → service < now.services.length
  hears : ∀ service stage now, Holds (.waits service stage) now → ∀ answer, ∃ halt later,
    stage.Section now answer halt later ∧ (stage.next answer).run now = (halt.stop, later) ∧
      Holds halt later

theorem Host.Works.attends {host after : Host} (works : host.Works after) : host.Attends after :=
  ⟨_, _, _, _, works.length_services, works.frame⟩

/-- On the way an operation touches nothing but services, servers, the directory and the log. -/
theorem Halt.Invariant.attending {Holds : Halt → Host → Prop} (invariant : Invariant Holds)
    (first : Host) : Invariant fun halt now => first.Attends now ∧ Holds halt now where
  works := by
    rintro halt now after ⟨attends, holds⟩ works
    exact ⟨attends.trans works.attends, invariant.works _ _ _ holds works⟩
  known := by
    rintro service stage now ⟨_, holds⟩
    exact invariant.known _ _ _ holds
  hears := by
    rintro service stage now ⟨attends, holds⟩ answer
    obtain ⟨halt, later, part, runs, onward⟩ := invariant.hears _ _ _ holds answer
    exact ⟨halt, later, part, runs, attends.trans part.attends, onward⟩

/-- An operation comes closer to its end with every call, and what holds of it holds there. -/
theorem Halt.Invariant.ensures {Holds : Halt → Host → Prop} (invariant : Invariant Holds)
    {halt : Halt} {start now : Host} {flow : Flow (Yield Answer)} (holds : Holds halt now)
    (grows : start.services.length ≤ now.services.length)
    (run : flow.run start = (halt.stop, now)) :
    flow.Ensures (fun yield last => Holds (.ended yield) last) start := by
  generalize bound : halt.stage?.elim 0 Stage.calls = calls
  induction calls using Nat.strongRecOn generalizing flow start now halt with
  | _ calls ih =>
    cases halt with
    | ended => exact .done run grows holds
    | waits service stage =>
      apply Flow.Ensures.call run grows (invariant.known _ _ _ holds)
      intro answer after works
      obtain ⟨halt, later, part, runs, onward⟩ :=
        invariant.hears _ _ _ (invariant.works _ _ _ holds works) answer
      have fewer : halt.stage?.elim 0 Stage.calls < calls := by
        rw [← bound]
        cases halt with
        | ended => exact stage.calls_pos
        | waits => exact part.calls_lt
      exact ih _ fewer onward part.deals.length runs rfl

end ServiceHost
