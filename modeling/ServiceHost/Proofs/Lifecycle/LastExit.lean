import ServiceHost.Proofs.Lifecycle.Ends

/-! Which exit a lifecycle tells.

The end of a run is recorded twice: by its watcher, and by the machine when it lets go of
the run. A machine that lets go at the end of a stop takes over what the watcher has
recorded. A kill writes down an abort whatever there was, and a start takes over what is
recorded by then. So the exit that is told is that of the latest run that has ended,
unless a kill or a start came at the wrong moment.
-/

set_option autoImplicit false

namespace ServiceHost

theorem Watched.Honest.seen_of_ended {task : Watched} (honest : task.Honest)
    (quiet : task.unseen = false) {exit : Exit} (ended : task.ended = some exit) :
    task.seen = some exit := by
  rcases honest.2 with none | same
  · simp [unseen, ended, none, honest.1] at quiet
  · rw [same, ended]

namespace Lifecycle

variable {lifecycle : Lifecycle} {generation : Nat} {exit : Exit}

/-- No watcher has an end before it that it has not recorded. -/
def Quiet (lifecycle : Lifecycle) : Prop := ∀ run ∈ lifecycle.runs, run.unseen = false

/-- The latest of the runs that have ended, and how it has. -/
def LastEnd (lifecycle : Lifecycle) (generation : Nat) (exit : Exit) : Prop :=
  lifecycle.endOf generation = some exit ∧
    ∀ later, generation < later → lifecycle.endOf later = none

theorem LastEnd.unique {other : Nat} {told : Exit} (last : lifecycle.LastEnd generation exit)
    (also : lifecycle.LastEnd other told) : generation = other ∧ exit = told := by
  rcases Nat.lt_trichotomy generation other with before | rfl | after
  · exact absurd (last.2 other before) (by simp [also.1])
  · exact ⟨rfl, Option.some.inj (last.1.symm.trans also.1)⟩
  · exact absurd (also.2 generation after) (by simp [last.1])

/-- The latest run that the machine has let go of, zero before the first. -/
def letGo (lifecycle : Lifecycle) : Nat :=
  match lifecycle.task with
  | some generation => generation - 1
  | none => lifecycle.generations.issued

theorem letGo_of_task (task : lifecycle.task = some generation) :
    lifecycle.letGo = generation - 1 := by
  simp [letGo, task]

theorem letGo_of_none (task : lifecycle.task = none) :
    lifecycle.letGo = lifecycle.generations.issued := by
  simp [letGo, task]

theorem latestExit_of_exitOf (task : lifecycle.task = some generation)
    (seen : lifecycle.exitOf generation = some exit) : lifecycle.latestExit = some exit := by
  simp [latestExit, task, seen]

theorem latestExit_of_unseen
    (unseen : ∀ generation, lifecycle.task = some generation → lifecycle.exitOf generation = none) :
    lifecycle.latestExit = lifecycle.lastExit := by
  unfold latestExit
  cases task : lifecycle.task with
  | none => rfl
  | some generation => simp [unseen generation task]

namespace Sound

theorem exitOf_of_endOf (sound : lifecycle.Sound) (quiet : lifecycle.Quiet)
    (ended : lifecycle.endOf generation = some exit) : lifecycle.exitOf generation = some exit := by
  obtain ⟨run, found, ended⟩ := Option.bind_eq_some_iff.mp ended
  have member : run ∈ lifecycle.runs := by
    cases generation with
    | zero => cases found
    | succ index =>
      rw [run?_succ] at found
      exact List.mem_of_getElem? found
  simpa [exitOf, found] using (sound.honest run member).seen_of_ended (quiet run member) ended

/-- A run that comes after those that were let go of is the present one. -/
theorem task_of_letGo_lt (sound : lifecycle.Sound) (later : lifecycle.letGo < generation)
    (bound : generation ≤ lifecycle.generations.issued) : lifecycle.task = some generation := by
  cases task : lifecycle.task with
  | none =>
    rw [letGo_of_none task] at later
    omega
  | some present =>
    obtain ⟨_, rfl, _⟩ := sound.open_of_task task
    rw [letGo_of_task task] at later
    congr
    omega

theorem letGo_lt_of_task (sound : lifecycle.Sound) (task : lifecycle.task = some generation) :
    lifecycle.letGo < generation := by
  obtain ⟨_, _, positive⟩ := sound.open_of_task task
  rw [letGo_of_task task]
  omega

theorem exists_end_letGo (sound : lifecycle.Sound) (positive : 0 < lifecycle.letGo) :
    ∃ exit, lifecycle.endOf lifecycle.letGo = some exit := by
  cases task : lifecycle.task with
  | none =>
    refine sound.exists_end positive (Nat.le_of_eq (letGo_of_none task)) ?_
    simp [task]
  | some generation =>
    obtain ⟨_, latest, _⟩ := sound.open_of_task task
    have before := sound.letGo_lt_of_task task
    refine sound.exists_end positive (by omega) fun same => ?_
    rw [task] at same
    cases same
    omega

theorem lastEnd_of_issued (sound : lifecycle.Sound)
    (ended : lifecycle.endOf lifecycle.generations.issued = some exit) :
    lifecycle.LastEnd lifecycle.generations.issued exit := by
  refine ⟨ended, fun later order => Option.eq_none_iff_forall_ne_some.mpr fun other past => ?_⟩
  have := sound.le_issued_of_endOf past
  omega

/-- While the present run goes on, the latest end is that of the run before. -/
theorem lastEnd_letGo (sound : lifecycle.Sound)
    (going : ∀ generation, lifecycle.task = some generation → lifecycle.endOf generation = none)
    (ended : lifecycle.endOf lifecycle.letGo = some exit) :
    lifecycle.LastEnd lifecycle.letGo exit := by
  refine ⟨ended, fun later order => Option.eq_none_iff_forall_ne_some.mpr fun other past => ?_⟩
  have task := sound.task_of_letGo_lt order (sound.le_issued_of_endOf past)
  rw [going later task] at past
  cases past

end Sound
end Lifecycle

namespace Shared

structure Moment where
  before : Shared
  deed : Deed
  after : Shared

/-- The runs from the creation of a lifecycle on, moment by moment. -/
inductive History : List Moment → Shared → Prop where
  | start : History [] fresh
  | next {moments : List Moment} {present after : Shared} {deed : Deed} :
      History moments present → Step present deed after →
      History (moments ++ [⟨present, deed, after⟩]) after

/-- A kill found the run of a generation still in its place, though it had ended. -/
def KilledLate (moments : List Moment) (generation : Nat) : Prop :=
  ∃ moment ∈ moments, moment.deed = .kill ∧ moment.before.lifecycle.task = some generation ∧
    moment.before.lifecycle.endOf generation ≠ none

/-- A start came between the end of the run of a generation and the record of that end. -/
def Overlooked (moments : List Moment) (generation : Nat) : Prop :=
  ∃ moment ∈ moments, (∃ next, moment.deed = .start (.ok next)) ∧
    moment.before.lifecycle.task = some generation ∧
    moment.before.lifecycle.exitOf generation = none

/-- What is told of a run that has ended with an exit. -/
inductive Account (moments : List Moment) (generation : Nat) (exit : Exit) :
    Option Exit → Prop where
  | truly : ¬ KilledLate moments generation → ¬ Overlooked moments generation →
      Account moments generation exit (some exit)
  | replaced : KilledLate moments generation → ¬ Overlooked moments generation →
      exit ≠ .aborted → Account moments generation exit (some .aborted)
  | forgotten : ¬ KilledLate moments generation → Overlooked moments generation →
      Account moments generation exit none

/-- What the machine remembers of the latest run that it has let go of. -/
structure Remembers (moments : List Moment) (lifecycle : Lifecycle) : Prop where
  later : ∀ generation, lifecycle.letGo < generation →
    ¬ KilledLate moments generation ∧ ¬ Overlooked moments generation
  first : lifecycle.letGo = 0 → lifecycle.lastExit = none
  account : ∀ exit, lifecycle.endOf lifecycle.letGo = some exit →
    Account moments lifecycle.letGo exit lifecycle.lastExit
  /-- Whoever aborts a run lets go of it. -/
  own : ∀ generation, lifecycle.task = some generation →
    lifecycle.endOf generation ≠ some .aborted

variable {moments : List Moment} {present after : Shared} {deed : Deed} {moment : Moment}
  {generation : Nat} {exit : Exit}

theorem History.sound (history : History moments present) : present.Sound := by
  induction history with
  | start => exact Run.start.sound
  | next _ step ih => exact ih.step step

theorem killedLate_concat : KilledLate (moments ++ [moment]) generation ↔
    KilledLate moments generation ∨ moment.deed = .kill ∧
      moment.before.lifecycle.task = some generation ∧
      moment.before.lifecycle.endOf generation ≠ none := by
  simp [KilledLate, or_and_right, exists_or]

theorem overlooked_concat : Overlooked (moments ++ [moment]) generation ↔
    Overlooked moments generation ∨ (∃ next, moment.deed = .start (.ok next)) ∧
      moment.before.lifecycle.task = some generation ∧
      moment.before.lifecycle.exitOf generation = none := by
  simp [Overlooked, or_and_right, exists_or]

theorem Account.congr {others : List Moment} {told : Option Exit}
    (account : Account moments generation exit told)
    (killed : KilledLate others generation ↔ KilledLate moments generation)
    (overlooked : Overlooked others generation ↔ Overlooked moments generation) :
    Account others generation exit told := by
  cases account with
  | truly early seen => exact .truly (mt killed.mp early) (mt overlooked.mp seen)
  | replaced late seen own => exact .replaced (killed.mpr late) (mt overlooked.mp seen) own
  | forgotten early unseen => exact .forgotten (mt killed.mp early) (overlooked.mpr unseen)

/-- As long as the machine lets go of no run, it remembers what it did. -/
theorem Remembers.stays {before lifecycle : Lifecycle} {others : List Moment}
    (remembers : Remembers moments before) (gone : lifecycle.letGo = before.letGo)
    (lastExit : lifecycle.lastExit = before.lastExit)
    (killed : ∀ generation, KilledLate others generation ↔ KilledLate moments generation)
    (overlooked : ∀ generation, Overlooked others generation ↔ Overlooked moments generation)
    (ended : ∀ exit, lifecycle.endOf before.letGo = some exit →
      before.endOf before.letGo = some exit)
    (own : ∀ generation, lifecycle.task = some generation →
      lifecycle.endOf generation ≠ some .aborted) :
    Remembers others lifecycle where
  later generation order := by
    rw [killed, overlooked]
    exact remembers.later generation (gone ▸ order)
  first none := lastExit.trans (remembers.first (gone ▸ none))
  account exit past := by
    rw [gone] at past ⊢
    rw [lastExit]
    exact (remembers.account exit (ended exit past)).congr (killed _) (overlooked _)
  own := own

/-- When the machine lets go of its run, what it remembers is what it is left with of this run. -/
theorem Remembers.lets_go {lifecycle : Lifecycle} (remembers : Remembers moments present.lifecycle)
    (machine : present.lifecycle.Sound) (task : present.lifecycle.task = some generation)
    (gone : lifecycle.letGo = generation)
    (account : ∀ exit, lifecycle.endOf generation = some exit →
      Account (moments ++ [⟨present, deed, after⟩]) generation exit lifecycle.lastExit)
    (own : ∀ generation, lifecycle.task = some generation →
      lifecycle.endOf generation ≠ some .aborted) :
    Remembers (moments ++ [⟨present, deed, after⟩]) lifecycle where
  later other order := by
    have before := machine.letGo_lt_of_task task
    obtain ⟨early, seen⟩ := remembers.later other (by omega)
    have apart : present.lifecycle.task ≠ some other := by
      rw [task]
      intro same
      cases same
      omega
    simp [killedLate_concat, overlooked_concat, early, seen, apart]
  first none := by
    obtain ⟨_, _, positive⟩ := machine.open_of_task task
    omega
  account exit past := by
    rw [gone] at past ⊢
    exact account exit past
  own := own

/-- A kill tells the truth of a run that it ends itself. -/
theorem account_killed (machine : present.lifecycle.Sound)
    (task : present.lifecycle.task = some generation)
    (early : ¬ KilledLate moments generation) (seen : ¬ Overlooked moments generation)
    (own : present.lifecycle.endOf generation ≠ some .aborted)
    (past : (present.lifecycle.killed generation).endOf generation = some exit) :
    Account (moments ++ [⟨present, .kill, after⟩]) generation exit (some .aborted) := by
  have remembered : ¬ Overlooked (moments ++ [⟨present, .kill, after⟩]) generation := by
    simp [overlooked_concat, seen]
  rw [machine.endOf_killed task, if_pos rfl] at past
  cases ended : present.lifecycle.endOf generation with
  | none =>
    rw [ended] at past
    cases past
    exact .truly (by simp [killedLate_concat, early, ended]) remembered
  | some former =>
    rw [ended] at past
    cases past
    refine .replaced (killedLate_concat.mpr (.inr ⟨rfl, task, ?_⟩)) remembered fun aborted => ?_
    · simp [ended]
    · exact own (aborted ▸ ended)

/-- A start takes over what is recorded of the run before, and forgets it if nothing is. -/
theorem account_restarted (machine : present.lifecycle.Sound) {next : Nat}
    (task : present.lifecycle.task = some generation)
    (early : ¬ KilledLate moments generation) (seen : ¬ Overlooked moments generation)
    (past : present.lifecycle.endOf generation = some exit) :
    Account (moments ++ [⟨present, .start (.ok next), after⟩]) generation exit
      (present.lifecycle.exitOf generation) := by
  have kept : ¬ KilledLate (moments ++ [⟨present, .start (.ok next), after⟩]) generation := by
    simp [killedLate_concat, early]
  cases recorded : present.lifecycle.exitOf generation with
  | none => exact .forgotten kept (overlooked_concat.mpr (.inr ⟨⟨_, rfl⟩, task, recorded⟩))
  | some told =>
    obtain rfl : told = exit :=
      Option.some.inj ((machine.endOf_of_exitOf recorded).symm.trans past)
    exact .truly kept (by simp [overlooked_concat, seen, recorded])

theorem Remembers.handled {lifecycle : Lifecycle} (remembers : Remembers moments present.lifecycle)
    (machine : present.lifecycle.Sound) (handles : Handles present.lifecycle deed lifecycle)
    (after : Shared) : Remembers (moments ++ [⟨present, deed, after⟩]) lifecycle := by
  cases handles with
  | keeps start kill task lastExit issued ends =>
    refine remembers.stays ?_ lastExit (fun other => ?_) (fun other => ?_) (fun exit past => ?_)
      fun generation there aborted => ?_
    · unfold Lifecycle.letGo
      rw [task, issued]
    · rw [killedLate_concat, or_iff_left]
      rintro ⟨kills, there, -⟩
      rw [kill kills] at there
      cases there
    · rw [overlooked_concat, or_iff_left]
      rintro ⟨⟨next, starts⟩, -⟩
      exact start next starts
    · rcases ends present.lifecycle.letGo with same | ⟨open_, _⟩
      · rwa [← same]
      -- A run that was let go of has ended before.
      · obtain ⟨_, ended⟩ := machine.exists_end_letGo (Lifecycle.positive_of_endOf past)
        rw [open_] at ended
        cases ended
    · rcases ends generation with same | ⟨_, exit, natural, _, ended⟩
      · exact remembers.own generation (task ▸ there) (same ▸ aborted)
      · rw [ended] at aborted
        exact natural (Option.some.inj aborted)
  | @releases generation exit task ended =>
    obtain ⟨early, seen⟩ := remembers.later generation (machine.letGo_lt_of_task task)
    obtain ⟨_, latest, _⟩ := machine.open_of_task task
    refine remembers.lets_go machine task latest.symm (fun other past => ?_)
      fun _ none => (by cases none)
    obtain rfl : exit = other := Option.some.inj (ended.symm.trans past)
    exact .truly (by simp [killedLate_concat, early]) (by simp [overlooked_concat, seen])
  | @drops generation task =>
    obtain ⟨early, seen⟩ := remembers.later generation (machine.letGo_lt_of_task task)
    obtain ⟨_, latest, _⟩ := machine.open_of_task task
    refine remembers.lets_go machine task ?_ (fun exit past => ?_) fun _ none => (by cases none)
    · simp [Lifecycle.letGo, Lifecycle.killed, latest]
    · exact account_killed machine task early seen (remembers.own generation task) past
  | begins quiet =>
    have own : ∀ generation, present.lifecycle.restarted.task = some generation →
        present.lifecycle.restarted.endOf generation ≠ some .aborted := by
      rintro _ ⟨⟩ aborted
      rw [Lifecycle.endOf_restarted] at aborted
      have := machine.le_issued_of_endOf aborted
      omega
    cases task : present.lifecycle.task with
    | none =>
      refine remembers.stays ?_ ?_ (fun other => ?_) (fun other => ?_) (fun exit past => ?_) own
      · rw [Lifecycle.letGo_of_none task]
        rfl
      · simp [Lifecycle.restarted, task]
      · simp [killedLate_concat]
      · simp [overlooked_concat, task]
      · rwa [Lifecycle.endOf_restarted] at past
    | some generation =>
      obtain ⟨early, seen⟩ := remembers.later generation (machine.letGo_lt_of_task task)
      obtain ⟨_, latest, _⟩ := machine.open_of_task task
      refine remembers.lets_go machine task latest.symm (fun exit past => ?_) own
      rw [Lifecycle.endOf_restarted] at past
      simpa only [Lifecycle.restarted, task] using
        account_restarted machine task early seen past

theorem History.remembers (history : History moments present) :
    Remembers moments present.lifecycle := by
  induction history with
  | start =>
    exact ⟨fun _ _ => ⟨by simp [KilledLate], by simp [Overlooked]⟩, fun _ => rfl,
      fun _ past => (by cases past), fun _ none => (by cases none)⟩
  | next history step ih =>
    exact ih.handled history.sound.machine (history.sound.handles step) _

theorem Account.told_iff {told : Option Exit} (account : Account moments generation exit told) :
    told = some exit ↔ ¬ KilledLate moments generation ∧ ¬ Overlooked moments generation := by
  cases account with
  | truly early seen => simp [early, seen]
  | replaced late _ own => simp [late, own.symm]
  | forgotten _ unseen => simp [unseen]

theorem History.account (history : History moments present) (quiet : present.lifecycle.Quiet) :
    (∀ generation, present.lifecycle.endOf generation = none) ∧
        present.lifecycle.latestExit = none ∨
      ∃ generation exit, present.lifecycle.LastEnd generation exit ∧
        Account moments generation exit present.lifecycle.latestExit := by
  have machine := history.sound.machine
  have remembers := history.remembers
  by_cases past : ∃ generation exit, present.lifecycle.task = some generation ∧
      present.lifecycle.endOf generation = some exit
  · obtain ⟨generation, exit, task, ended⟩ := past
    obtain ⟨early, seen⟩ := remembers.later generation (machine.letGo_lt_of_task task)
    obtain ⟨_, rfl, _⟩ := machine.open_of_task task
    rw [Lifecycle.latestExit_of_exitOf task (machine.exitOf_of_endOf quiet ended)]
    exact .inr ⟨_, exit, machine.lastEnd_of_issued ended, .truly early seen⟩
  · have going : ∀ generation, present.lifecycle.task = some generation →
        present.lifecycle.endOf generation = none := fun generation task =>
      Option.eq_none_iff_forall_ne_some.mpr fun exit ended => past ⟨generation, exit, task, ended⟩
    have told : present.lifecycle.latestExit = present.lifecycle.lastExit :=
      Lifecycle.latestExit_of_unseen fun generation task =>
        Option.eq_none_iff_forall_ne_some.mpr fun exit seen =>
          past ⟨generation, exit, task, machine.endOf_of_exitOf seen⟩
    rw [told]
    rcases Nat.eq_zero_or_pos present.lifecycle.letGo with zero | positive
    · refine .inl ⟨fun generation => Option.eq_none_iff_forall_ne_some.mpr fun exit ended => ?_,
        remembers.first zero⟩
      have positive := Lifecycle.positive_of_endOf ended
      have task := machine.task_of_letGo_lt (zero ▸ positive) (machine.le_issued_of_endOf ended)
      exact past ⟨generation, exit, task, ended⟩
    · obtain ⟨exit, ended⟩ := machine.exists_end_letGo positive
      exact .inr ⟨_, exit, machine.lastEnd_letGo going ended, remembers.account exit ended⟩

/-- A start that comes when the watchers have looked forgets nothing. -/
theorem latestExit_restarted {lifecycle : Lifecycle} (sound : lifecycle.Sound)
    (quiet : lifecycle.Quiet) (past : lifecycle.isAlive = false) :
    lifecycle.restarted.latestExit = lifecycle.latestExit := by
  have fresh : ∀ generation, lifecycle.restarted.task = some generation →
      lifecycle.restarted.exitOf generation = none := by
    rintro _ ⟨⟩
    simp [Lifecycle.exitOf, Lifecycle.run?_succ, Lifecycle.restarted, sound.runs_length.symm,
      Watched.fresh]
  rw [Lifecycle.latestExit_of_unseen fresh]
  cases task : lifecycle.task with
  | none => simp [Lifecycle.restarted, Lifecycle.latestExit, task]
  | some generation =>
    obtain ⟨_, latest, positive⟩ := sound.open_of_task task
    obtain ⟨exit, ended⟩ : ∃ exit, lifecycle.endOf generation = some exit := by
      cases ended : lifecycle.endOf generation with
      | none =>
        have going := (sound.endOf_eq_none_iff positive (Nat.le_of_eq latest)).mp ended
        simp [Lifecycle.isAlive, task, going] at past
      | some exit => exact ⟨exit, rfl⟩
    have seen := sound.exitOf_of_endOf quiet ended
    rw [Lifecycle.latestExit_of_exitOf task seen]
    simp [Lifecycle.restarted, task, seen]

/-- Whenever the watchers have looked, what is told of the latest run that has ended is how it did
end, and nothing is told as long as none has: unless a kill came when this run had ended and was
still in its place, since then it is told to be aborted, or a start came before the end was
recorded, since then nothing is told. Meanwhile the end of a run stays what it was, and no start
that comes when the watchers have looked changes what is told. -/
theorem latestExit_truthful_iff (history : History moments present)
    (quiet : present.lifecycle.Quiet) :
    ((∀ generation, present.lifecycle.endOf generation = none) ∧
        present.lifecycle.latestExit = none ∨
      ∃ generation exit, present.lifecycle.LastEnd generation exit ∧
        Account moments generation exit present.lifecycle.latestExit ∧
        (present.lifecycle.latestExit = some exit ↔
          ¬ KilledLate moments generation ∧ ¬ Overlooked moments generation)) ∧
    (∀ deed after generation exit, Step present deed after →
      present.lifecycle.endOf generation = some exit →
        after.lifecycle.endOf generation = some exit) ∧
    ∀ next after, Step present (.start (.ok next)) after →
      after.lifecycle.latestExit = present.lifecycle.latestExit := by
  have sound := history.sound
  refine ⟨?_, fun _ _ _ _ step ended => (sound.handles step).keeps_end sound.machine ended,
    fun next after step => ?_⟩
  · rcases history.account quiet with none | ⟨generation, exit, last, account⟩
    · exact .inl none
    · exact .inr ⟨generation, exit, last, account, account.told_iff⟩
  · have handles := sound.handles step
    obtain ⟨_, lifecycle, _⟩ := after
    generalize started : (Deed.start (.ok next)) = deed at handles
    cases handles with
    | keeps start => exact absurd started.symm (start next)
    | releases | drops => cases started
    | begins past => exact latestExit_restarted sound.machine quiet past

/-- A run that panics by itself, and a start after the record of it. -/
theorem latestExit_truthful_iff_panicked :
    ∃ moments present, History moments present ∧ present.lifecycle.Quiet ∧
      present.lifecycle.LastEnd 1 (.panicked "ledger corrupted") ∧
      present.lifecycle.latestExit = some (.panicked "ledger corrupted") ∧
      ¬ KilledLate moments 1 ∧ ¬ Overlooked moments 1 := by
  have began := History.start.next (.start rfl)
  have ended := began.next
    (@Step.endRun _ 1 .fresh (.panicked "ledger corrupted") rfl rfl (by decide))
  have recorded := ended.next (@Step.record _ 1 _ rfl)
  have again := recorded.next (.start rfl)
  have quiet : ∀ run ∈ [Watched.mk (some (.panicked "ledger corrupted"))
      (some (.panicked "ledger corrupted")) false, .fresh], run.unseen = false := by decide
  have last : Lifecycle.LastEnd _ 1 (.panicked "ledger corrupted") :=
    again.sound.machine.lastEnd_letGo (by rintro _ ⟨⟩; rfl) rfl
  obtain ⟨none, -⟩ | ⟨generation, exit, same, -, truthful⟩ :=
    (latestExit_truthful_iff again quiet).1
  · exact absurd (none 1) (by decide)
  · obtain ⟨rfl, rfl⟩ := last.unique same
    exact ⟨_, _, again, quiet, last, rfl, truthful.mp rfl⟩

/-- A kill that comes when a run has ended by itself and its end was told puts an abort in its
place, and a start that comes before the watcher has looked makes the end forgotten. -/
theorem latestExit_untruthful :
    (∃ moments before after, History moments before ∧ before.lifecycle.Quiet ∧
      before.lifecycle.LastEnd 1 .returned ∧ before.lifecycle.latestExit = some .returned ∧
      Step before .kill after ∧ after.lifecycle.Quiet ∧
      after.lifecycle.LastEnd 1 .returned ∧ after.lifecycle.latestExit = some .aborted) ∧
    ∃ moments present, History moments present ∧ present.lifecycle.Quiet ∧
      present.lifecycle.LastEnd 1 .returned ∧ present.lifecycle.latestExit = none := by
  have began := History.start.next (.start rfl)
  have ended := began.next (@Step.endRun _ 1 .fresh .returned rfl rfl (by decide))
  have record := ended.next (@Step.record _ 1 _ rfl)
  have killed := record.next (.kill _)
  have again := ended.next (.start rfl)
  have late := again.next (@Step.record _ 1 _ rfl)
  have past : ∀ run ∈ [Watched.mk (some .returned) (some .returned) false],
      run.unseen = false := by decide
  have onward : ∀ run ∈ [Watched.mk (some .returned) (some .returned) false, .fresh],
      run.unseen = false := by decide
  refine ⟨⟨_, _, _, record, past, record.sound.machine.lastEnd_of_issued rfl, rfl, .kill _, past,
    killed.sound.machine.lastEnd_of_issued rfl, rfl⟩, _, _, late, onward, ?_, rfl⟩
  exact late.sound.machine.lastEnd_letGo (by rintro _ ⟨⟩; rfl) rfl

end Shared
end ServiceHost
