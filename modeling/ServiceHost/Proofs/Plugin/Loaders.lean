import ServiceHost.Proofs.Plugin.Reload

/-! Who holds which loader, and for how long.

A loader is counted: it exists as long as somebody holds it. Over any history of a plugin
directory the counts are those of the handles that there are, one at most in the preloader and
one in each instance that was not dropped. -/

set_option autoImplicit false

namespace ServiceHost.Plugin

variable {α : Type}

/-! ## Handles and counts -/

/-- Whether what a place holds is the loader with that number. -/
def names (id : Nat) (held : Option Loader) : Bool := held.any (·.id == id)

@[simp] theorem names_none (id : Nat) : names id none = false := rfl

@[simp] theorem names_some (id : Nat) (loader : Loader) :
    names id (some loader) = (loader.id == id) := rfl

theorem Holders.count_hold (holders : Holders) (loader : Loader) (times id : Nat) :
    (holders.hold loader.id times).count id =
      holders.count id + if names id (some loader) then times else 0 := by
  by_cases same : loader.id = id
  · simp [hold, names, same]
  · simp [hold, names, same, Ne.symm same]

theorem Holders.count_release (holders : Holders) (held : Option Loader) (id : Nat) :
    (holders.release held).count id = holders.count id - if names id held then 1 else 0 := by
  unfold release names
  dsimp only
  split <;> simp

@[simp] theorem Holders.release_none (holders : Holders) : holders.release none = holders := rfl

theorem countP_set_names {slots : List (Option Loader)} {index : Nat} {before : Option Loader}
    (there : slots[index]? = some before) (after : Option Loader) (id : Nat) :
    (slots.set index after).countP (names id) + (if names id before then 1 else 0) =
      slots.countP (names id) + if names id after then 1 else 0 := by
  obtain ⟨within, rfl⟩ := List.getElem?_eq_some_iff.mp there
  rw [List.countP_set within]
  have at_least : (if names id slots[index] then 1 else 0) ≤ slots.countP (names id) := by
    split
    case isTrue named =>
      exact List.countP_pos_iff.mpr ⟨_, List.getElem_mem within, named⟩
    case isFalse => exact Nat.zero_le _
  omega

namespace Holding

/-- The places that may hold a loader: the preloader first, then each instance. -/
def slots (holding : Holding α) : List (Option Loader) :=
  holding.preloader.loader :: holding.instances.map (Option.map Instance.loader)

theorem slots_zero (holding : Holding α) : holding.slots[0]? = some holding.preloader.loader := rfl

/-- The counts are those of the handles in all the places, one more place among them. -/
def Counted (holding : Holding α) (extra : Option Loader) : Prop :=
  ∀ id, holding.holders.count id = (extra :: holding.slots).countP (names id)

theorem under_fresh {holding : Holding α} {factories : FactoryTable α} {files : Files}
    {built : Instance α} (given : built ∈ (holding.reload factories files).2.1) :
    built.loader = holding.fresh files := by
  obtain ⟨archive, -, made⟩ := mem_instantiateAll_iff.mp given
  exact made.loader

theorem slots_reload (holding : Holding α) (factories : FactoryTable α) (files : Files) :
    (holding.reload factories files).2.2.slots =
      holding.slots.set 0 (some (holding.fresh files)) ++
        List.replicate (holding.reload factories files).2.1.length
          (some (holding.fresh files)) := by
  have under : ∀ built ∈ (holding.reload factories files).2.1,
      some built.loader = some (holding.fresh files) :=
    fun _ given => congrArg some (under_fresh given)
  rw [← List.map_eq_replicate_iff.mpr under]
  simp [slots, reload, instantiateAll, Function.comp_def]

/-- In a reload the new loader is held by the reload itself for a while, then by the preloader, whose
handle of the former one goes, and by each instance. -/
theorem Counted.reload {holding : Holding α} {extra : Option Loader} (counted : holding.Counted extra)
    (factories : FactoryTable α) (files : Files) :
    (holding.reload factories files).2.2.Counted extra := by
  intro id
  have before := counted id
  have replaced := countP_set_names holding.slots_zero (some (holding.fresh files)) id
  have count : (holding.reload factories files).2.2.holders.count id =
      holding.holders.count id + (if names id (some (holding.fresh files)) then 1 else 0) +
        (if names id (some (holding.fresh files)) then 1 else 0) -
        (if names id holding.preloader.loader then 1 else 0) +
        (if names id (some (holding.fresh files)) then
          (holding.reload factories files).2.1.length else 0) -
        (if names id (some (holding.fresh files)) then 1 else 0) := by
    simp only [Holding.reload, Holders.count_hold, Holders.count_release]
  rw [count, slots_reload, List.countP_cons, List.countP_append, List.countP_replicate]
  rw [List.countP_cons] at before
  have current : (if names id holding.preloader.loader then 1 else 0) ≤
      holding.slots.countP (names id) := by
    rw [slots, List.countP_cons]
    exact Nat.le_add_left ..
  split <;> simp_all <;> omega

/-- A new preloader starts without a loader; the handle of the one that it replaces goes later. -/
theorem Counted.reopenAt {holding : Holding α} (counted : holding.Counted none) (dir : String)
    (factories : FactoryTable α) (files : Files) :
    (holding.reopenAt dir factories files).2.2.Counted none := by
  have opened : Counted { holding with preloader := ⟨dir, none⟩ } holding.preloader.loader := by
    intro id
    simpa [slots, List.countP_cons, names, Nat.add_comm] using counted id
  intro id
  have after := opened.reload factories files id
  rw [List.countP_cons] at after ⊢
  have count : (holding.reopenAt dir factories files).2.2.holders.count id =
      ({ holding with preloader := ⟨dir, none⟩ }.reload factories files).2.2.holders.count id -
        if names id holding.preloader.loader then 1 else 0 := Holders.count_release ..
  rw [count, after]
  exact Nat.add_sub_cancel ..

/-- One place is emptied. -/
theorem Counted.emptied {holding after : Holding α} (counted : holding.Counted none) {index : Nat}
    {held : Option Loader} (there : holding.slots[index]? = some held)
    (slots : after.slots = holding.slots.set index none)
    (holders : after.holders = holding.holders.release held) : after.Counted none := by
  intro id
  have before := counted id
  have cleared := countP_set_names there none id
  rw [List.countP_cons] at before ⊢
  rw [holders, Holders.count_release, slots]
  simp only [names_none, Bool.false_eq_true, if_false] at before cleared ⊢
  omega

theorem Counted.unload {holding : Holding α} (counted : holding.Counted none) :
    holding.unload.Counted none :=
  counted.emptied holding.slots_zero rfl rfl

theorem slots_drop (holding : Holding α) (index : Nat) :
    (holding.drop index).slots = holding.slots.set (index + 1) none := by
  simp [slots, drop, List.map_set]

theorem Counted.drop {holding : Holding α} (counted : holding.Counted none) (index : Nat) :
    (holding.drop index).Counted none := by
  cases slot : holding.instances[index]? with
  | none =>
    -- There is no such instance, and nothing changes.
    have same : holding.drop index = holding := by
      have beyond := List.set_eq_of_length_le (a := none) (List.getElem?_eq_none_iff.mp slot)
      simp [Holding.drop, instance?, slot, beyond]
    rwa [same]
  | some held =>
    have there : holding.slots[index + 1]? = some (held.map Instance.loader) := by
      simp [slots, slot]
    refine counted.emptied there (slots_drop holding index) ?_
    simp [Holding.drop, instance?, slot]

theorem mem_instances_iff {holding : Holding α} {made : Instance α} :
    some made ∈ holding.instances ↔ ∃ index, holding.instance? index = some made := by
  simp [instance?, List.mem_iff_getElem?, Option.join_eq_some_iff]

/-- A loader exists exactly as long as the preloader or some instance holds it. -/
theorem Counted.alive_iff {holding : Holding α} (counted : holding.Counted none) (id : Nat) :
    holding.alive id = true ↔
      (∃ loader, holding.preloader.loader = some loader ∧ loader.id = id) ∨
        ∃ index made, holding.instance? index = some made ∧ made.loader.id = id := by
  have somewhere : holding.alive id = true ↔ ∃ slot ∈ holding.slots, names id slot = true := by
    rw [alive, decide_eq_true_iff, counted id, List.countP_cons_of_neg (by simp),
      List.countP_pos_iff]
  rw [somewhere, slots]
  simp only [List.mem_cons, or_and_right, exists_or, exists_eq_left]
  refine or_congr ?_ ?_
  · cases holding.preloader.loader <;> simp
  · simp only [List.mem_map]
    constructor
    · rintro ⟨_, ⟨slot, found, rfl⟩, named⟩
      cases slot with
      | none => simp at named
      | some made =>
        obtain ⟨index, there⟩ := mem_instances_iff.mp found
        exact ⟨index, made, there, by simpa using named⟩
    · rintro ⟨index, made, there, rfl⟩
      exact ⟨_, ⟨some made, mem_instances_iff.mpr ⟨index, there⟩, rfl⟩, by simp⟩

/-! ## One reload -/

/-- What a reload makes of a holding, of a new preloader or of the one there was. -/
structure Renewed (before : Holding α) (loader : Loader) (built : List (Instance α))
    (after : Holding α) : Prop where
  number : loader.id = before.issued + 1
  issued : after.issued = before.issued + 1
  current : after.preloader.loader = some loader
  instances : after.instances = before.instances ++ built.map some
  under : ∀ made ∈ built, made.loader = loader

theorem renewed_reload (holding : Holding α) (factories : FactoryTable α) (files : Files) :
    holding.Renewed (holding.fresh files) (holding.reload factories files).2.1
      (holding.reload factories files).2.2 :=
  ⟨rfl, rfl, rfl, rfl, fun _ given => under_fresh given⟩

theorem renewed_reopenAt (holding : Holding α) (dir : String) (factories : FactoryTable α)
    (files : Files) :
    holding.Renewed ⟨holding.issued + 1, dir, scan designated? files dir⟩
      (holding.reopenAt dir factories files).2.1 (holding.reopenAt dir factories files).2.2 := by
  have opened := renewed_reload { holding with preloader := ⟨dir, none⟩ } factories files
  exact ⟨rfl, rfl, rfl, rfl, opened.under⟩

theorem lt_of_instance? (holding : Holding α) {index : Nat} {made : Instance α}
    (there : holding.instance? index = some made) : index < holding.instances.length :=
  (List.getElem?_eq_some_iff.mp (Option.join_eq_some_iff.mp there)).1

theorem instance?_drop (holding : Holding α) (index other : Nat) :
    (holding.drop index).instance? other =
      if index = other then none else holding.instance? other := by
  simp only [instance?, drop, List.getElem?_set]
  split
  · split <;> rfl
  · rfl

theorem instance?_of_drop (holding : Holding α) {index other : Nat} {made : Instance α}
    (there : (holding.drop index).instance? other = some made) :
    holding.instance? other = some made := by
  rw [instance?_drop] at there
  split at there
  · cases there
  · exact there

section Renewed

variable {before after : Holding α} {loader : Loader} {built : List (Instance α)} {index : Nat}

theorem Renewed.instance?_of_lt (renewed : before.Renewed loader built after)
    (old : index < before.instances.length) : after.instance? index = before.instance? index := by
  rw [instance?, renewed.instances, List.getElem?_append_left old, instance?]

theorem Renewed.new_of_not_lt (renewed : before.Renewed loader built after)
    (new : ¬ index < before.instances.length) {made : Instance α}
    (there : after.instance? index = some made) :
    index - before.instances.length < built.length ∧ made.loader = loader := by
  rw [instance?, renewed.instances, List.getElem?_append_right (by omega), List.getElem?_map,
    Option.join_eq_some_iff, Option.map_eq_some_iff] at there
  obtain ⟨_, found, same⟩ := there
  cases same
  exact ⟨(List.getElem?_eq_some_iff.mp found).1, renewed.under made (List.mem_of_getElem? found)⟩

end Renewed

end Holding

/-! ## Histories -/

/-- What a caller may do with a plugin directory. The directory, the factories and the files may be
others each time. -/
inductive Action (α : Type) where
  | reload (factories : FactoryTable α) (files : Files)
  | reopen (dir : String) (factories : FactoryTable α) (files : Files)
  | unload
  | drop (index : Nat)

/-- A plugin directory in use and how it came to be: the loader of each reload so far, and for each
instance that was handed out the place of its reload among them. -/
structure Chronicle (α : Type) where
  holding : Holding α
  made : List Loader
  births : List Nat

namespace Chronicle

def start (dir : String) : Chronicle α := ⟨.start dir, [], []⟩

/-- Puts a reload on record: the loader that the preloader has then, and what was built. -/
def reloaded (past : Chronicle α) (outcome : List Notice × List (Instance α) × Holding α) :
    Chronicle α :=
  let (_, built, holding) := outcome
  ⟨holding, past.made ++ holding.preloader.loader.toList,
    past.births ++ List.replicate built.length past.made.length⟩

def next (past : Chronicle α) : Action α → Chronicle α
  | .reload factories files => past.reloaded (past.holding.reload factories files)
  | .reopen dir factories files => past.reloaded (past.holding.reopenAt dir factories files)
  | .unload => { past with holding := past.holding.unload }
  | .drop index => { past with holding := past.holding.drop index }

/-- What has come of a directory after so many actions. -/
def after (dir : String) (actions : List (Action α)) : Chronicle α :=
  actions.foldl next (start dir)

/-- The record fits the holding. -/
structure Sound (past : Chronicle α) : Prop where
  counted : past.holding.Counted none
  numbered : past.made.map Loader.id = List.range' 1 past.holding.issued
  current : ∀ loader, past.holding.preloader.loader = some loader → loader ∈ past.made
  births : past.births.length = past.holding.instances.length
  born : ∀ index made, past.holding.instance? index = some made →
    ∃ birth, past.births[index]? = some birth ∧ past.made[birth]? = some made.loader

theorem Sound.start (dir : String) : (start dir : Chronicle α).Sound where
  counted := fun _ => rfl
  numbered := rfl
  current := fun _ held => nomatch held
  births := rfl
  born := fun _ _ there => by simp [Chronicle.start, Holding.start, Holding.instance?] at there

theorem Sound.reloaded {past : Chronicle α} (sound : past.Sound) {loader : Loader}
    {outcome : List Notice × List (Instance α) × Holding α}
    (renewed : past.holding.Renewed loader outcome.2.1 outcome.2.2)
    (counted : outcome.2.2.Counted none) : (past.reloaded outcome).Sound := by
  have made : (past.reloaded outcome).made = past.made ++ [loader] := by
    simp [Chronicle.reloaded, renewed.current]
  refine ⟨counted, ?_, fun other held => ?_, ?_, fun index built there => ?_⟩
  · have issued : (past.reloaded outcome).holding.issued = past.holding.issued + 1 :=
      renewed.issued
    rw [made, issued, List.map_append, sound.numbered, List.range'_concat]
    simp [renewed.number, Nat.add_comm]
  · obtain rfl : loader = other := Option.some.inj (renewed.current.symm.trans held)
    simp [made]
  · simp [Chronicle.reloaded, sound.births, renewed.instances]
  · rw [made]
    by_cases old : index < past.holding.instances.length
    · rw [Chronicle.reloaded, renewed.instance?_of_lt old] at there
      obtain ⟨birth, born, its⟩ := sound.born index built there
      have earlier := (List.getElem?_eq_some_iff.mp its).1
      refine ⟨birth, ?_, by rw [List.getElem?_append_left earlier, its]⟩
      rw [Chronicle.reloaded, List.getElem?_append_left (sound.births ▸ old), born]
    · obtain ⟨within, rfl⟩ := renewed.new_of_not_lt old there
      refine ⟨past.made.length, ?_, by simp⟩
      rw [← sound.births] at old within
      rw [Chronicle.reloaded, List.getElem?_append_right (Nat.le_of_not_lt old),
        List.getElem?_replicate, if_pos within]

theorem Sound.unload {past : Chronicle α} (sound : past.Sound) : (past.next .unload).Sound where
  counted := sound.counted.unload
  numbered := sound.numbered
  current := fun _ held => nomatch held
  births := sound.births
  born := sound.born

theorem Sound.drop {past : Chronicle α} (sound : past.Sound) (index : Nat) :
    (past.next (.drop index)).Sound where
  counted := sound.counted.drop index
  numbered := sound.numbered
  current := sound.current
  births := by simpa [next, Holding.drop] using sound.births
  born := fun other made there =>
    sound.born other made (past.holding.instance?_of_drop there)

theorem Sound.next {past : Chronicle α} (sound : past.Sound) (action : Action α) :
    (past.next action).Sound := by
  cases action with
  | reload factories files =>
    exact sound.reloaded (past.holding.renewed_reload factories files)
      (sound.counted.reload factories files)
  | reopen dir factories files =>
    exact sound.reloaded (past.holding.renewed_reopenAt dir factories files)
      (sound.counted.reopenAt dir factories files)
  | unload => exact sound.unload
  | drop index => exact sound.drop index

theorem Sound.actions {past : Chronicle α} (sound : past.Sound) (actions : List (Action α)) :
    (actions.foldl Chronicle.next past).Sound := by
  induction actions generalizing past with
  | nil => exact sound
  | cons action rest ih => exact ih (sound.next action)

theorem Sound.after (dir : String) (actions : List (Action α)) : (after dir actions).Sound :=
  (Sound.start dir).actions actions

/-! ## What the record says -/

section Record

variable {past : Chronicle α} (sound : past.Sound)
include sound

/-- Each reload has a number of its own. -/
theorem Sound.id_of_made {birth : Nat} {loader : Loader} (made : past.made[birth]? = some loader) :
    loader.id = birth + 1 := by
  have number : (past.made.map Loader.id)[birth]? = some loader.id := by simp [made]
  rw [sound.numbered] at number
  obtain ⟨within, same⟩ := List.getElem?_eq_some_iff.mp number
  simpa [Nat.add_comm] using same.symm

theorem Sound.birth_inj {birth other : Nat} {loader again : Loader}
    (made : past.made[birth]? = some loader) (also : past.made[other]? = some again)
    (same : loader.id = again.id) : birth = other := by
  rw [sound.id_of_made made, sound.id_of_made also] at same
  exact Nat.succ.inj same

theorem Sound.increasing : past.made.Pairwise (·.id < ·.id) := by
  rw [← List.pairwise_map, sound.numbered]
  exact List.pairwise_lt_range' 1

theorem Sound.alive_iff {birth : Nat} {loader : Loader} (made : past.made[birth]? = some loader) :
    past.holding.alive loader.id = true ↔
      past.holding.preloader.loader = some loader ∨
        ∃ index built, past.holding.instance? index = some built ∧
          past.births[index]? = some birth := by
  rw [sound.counted.alive_iff]
  refine or_congr ⟨?_, fun held => ⟨loader, held, rfl⟩⟩ (exists_congr fun index =>
    exists_congr fun built => and_congr_right fun there => ?_)
  · rintro ⟨other, held, same⟩
    obtain ⟨later, also⟩ := List.mem_iff_getElem?.mp (sound.current other held)
    obtain rfl := sound.birth_inj also made same
    rw [held, ← also, made]
  · obtain ⟨own, born, its⟩ := sound.born index built there
    rw [born, Option.some.injEq]
    constructor
    · exact sound.birth_inj its made
    · rintro rfl
      exact congrArg Loader.id (Option.some.inj (its.symm.trans made))

/-- Instances share a loader if they come from one reload, and only then. -/
theorem Sound.same_loader_iff {index other : Nat} {first second : Instance α}
    (there : past.holding.instance? index = some first)
    (also : past.holding.instance? other = some second) :
    first.loader.id = second.loader.id ↔ past.births[index]? = past.births[other]? := by
  obtain ⟨birth, born, made⟩ := sound.born index first there
  obtain ⟨later, bornLater, madeLater⟩ := sound.born other second also
  rw [born, bornLater, Option.some.injEq]
  constructor
  · exact sound.birth_inj made madeLater
  · rintro rfl
    exact congrArg Loader.id (Option.some.inj (made.symm.trans madeLater))

end Record

/-! ## What lasts -/

theorem made_next (past : Chronicle α) (action : Action α) :
    past.made <+: (past.next action).made := by
  cases action with
  | reload => exact List.prefix_append ..
  | reopen => exact List.prefix_append ..
  | unload => exact List.prefix_rfl
  | drop => exact List.prefix_rfl

theorem length_next (past : Chronicle α) (action : Action α) :
    past.holding.instances.length ≤ (past.next action).holding.instances.length := by
  cases action with
  | reload factories files =>
    rw [next, reloaded, (past.holding.renewed_reload factories files).instances]
    simp
  | reopen dir factories files =>
    rw [next, reloaded, (past.holding.renewed_reopenAt dir factories files).instances]
    simp
  | unload => exact Nat.le_refl _
  | drop => simp [next, Holding.drop]

/-- An instance stays as it is until it is dropped. -/
theorem instance?_next {past : Chronicle α} {index : Nat}
    (old : index < past.holding.instances.length) (action : Action α) :
    (past.next action).holding.instance? index = past.holding.instance? index ∨
      action = .drop index ∧ (past.next action).holding.instance? index = none := by
  cases action with
  | reload factories files =>
    exact .inl ((past.holding.renewed_reload factories files).instance?_of_lt old)
  | reopen dir factories files =>
    exact .inl ((past.holding.renewed_reopenAt dir factories files).instance?_of_lt old)
  | unload => exact .inl rfl
  | drop dropped =>
    rw [next, Holding.instance?_drop]
    split
    case isTrue same => exact .inr ⟨congrArg _ same, rfl⟩
    case isFalse => exact .inl rfl

theorem made_actions (past : Chronicle α) (actions : List (Action α)) :
    past.made <+: (actions.foldl next past).made := by
  induction actions generalizing past with
  | nil => exact List.prefix_rfl
  | cons action rest ih => exact (past.made_next action).trans (ih _)

theorem instance?_actions {past : Chronicle α} {index : Nat}
    (old : index < past.holding.instances.length) (actions : List (Action α)) :
    (actions.foldl next past).holding.instance? index = past.holding.instance? index ∨
      .drop index ∈ actions ∧ (actions.foldl next past).holding.instance? index = none := by
  induction actions generalizing past with
  | nil => exact .inl rfl
  | cons action rest ih =>
    have onward := ih (Nat.lt_of_lt_of_le old (past.length_next action))
    rcases onward with same | ⟨dropped, gone⟩
    · rcases instance?_next old action with kept | ⟨rfl, gone⟩
      · exact .inl (same.trans kept)
      · exact .inr ⟨List.mem_cons_self, same.trans gone⟩
    · exact .inr ⟨List.mem_cons_of_mem _ dropped, gone⟩

/-- For every history of a plugin directory, at its end: the loader of a reload exists exactly if the
preloader holds it or some instance that the reload built was not dropped; two instances share a
loader exactly if one reload built both; each reload's loader has a greater number than those before
it; and an instance has the loader of its reload as it was made, whatever else happens, until the
instance is dropped. -/
theorem loaders_over_history (dir : String) (actions more : List (Action α)) :
    let past := Chronicle.after dir actions
    let later := Chronicle.after dir (actions ++ more)
    (∀ birth loader, past.made[birth]? = some loader →
      (past.holding.alive loader.id = true ↔
        past.holding.preloader.loader = some loader ∨
          ∃ index built, past.holding.instance? index = some built ∧
            past.births[index]? = some birth)) ∧
      (∀ index other first second, past.holding.instance? index = some first →
        past.holding.instance? other = some second →
          (first.loader.id = second.loader.id ↔ past.births[index]? = past.births[other]?)) ∧
      past.made.Pairwise (·.id < ·.id) ∧
      past.made <+: later.made ∧
      ∀ index built, past.holding.instance? index = some built →
        (∃ birth, past.births[index]? = some birth ∧ past.made[birth]? = some built.loader) ∧
          (later.holding.instance? index = some built ∨
            .drop index ∈ more ∧ later.holding.instance? index = none) := by
  intro past later
  have sound : past.Sound := Sound.after dir actions
  have onward : later = more.foldl next past := List.foldl_append
  refine ⟨fun _ _ made => sound.alive_iff made, fun _ _ _ _ there also =>
    sound.same_loader_iff there also, sound.increasing, onward ▸ past.made_actions more,
    fun index built there => ⟨sound.born index built there, ?_⟩⟩
  rw [onward, ← there]
  exact instance?_actions (past.holding.lt_of_instance? there) more

end Chronicle

end ServiceHost.Plugin
