/-! Tables keyed by text that keep the order in which their keys were first inserted.

Writing a key that is present replaces its value in place; erasing a key keeps
the order of the others. The keys are pairwise different by construction. -/

set_option autoImplicit false

namespace ServiceHost

/-- The entries after `key` was written: in place if the key is present, else at the end. -/
def Table.write {α : Type} (key : String) (value : α) : List (String × α) → List (String × α)
  | [] => [(key, value)]
  | (k, v) :: rest => if k = key then (k, value) :: rest else (k, v) :: Table.write key value rest

theorem Table.mem_keys_write {α : Type} (key other : String) (value : α)
    (entries : List (String × α)) :
    other ∈ (Table.write key value entries).map Prod.fst ↔
      other = key ∨ other ∈ entries.map Prod.fst := by
  induction entries with
  | nil => simp [Table.write]
  | cons entry rest ih =>
    by_cases h : entry.1 = key
    · simp only [Table.write, h, if_true, List.map_cons, List.mem_cons]
      constructor
      · exact fun member => member.elim Or.inl fun m => Or.inr (Or.inr m)
      · rintro (same | same | member)
        · exact Or.inl same
        · exact Or.inl same
        · exact Or.inr member
    · simp only [Table.write, h, if_false, List.map_cons, List.mem_cons, ih]
      constructor
      · rintro (same | same | member)
        · exact Or.inr (Or.inl same)
        · exact Or.inl same
        · exact Or.inr (Or.inr member)
      · rintro (same | same | member)
        · exact Or.inr (Or.inl same)
        · exact Or.inl same
        · exact Or.inr (Or.inr member)

theorem Table.nodup_write {α : Type} (key : String) (value : α) (entries : List (String × α))
    (nodup : (entries.map Prod.fst).Nodup) :
    ((Table.write key value entries).map Prod.fst).Nodup := by
  induction entries with
  | nil => simp [Table.write]
  | cons entry rest ih =>
    rw [List.map_cons, List.nodup_cons] at nodup
    by_cases h : entry.1 = key
    · simp only [Table.write, h, if_true, List.map_cons, List.nodup_cons]
      exact ⟨h ▸ nodup.1, nodup.2⟩
    · simp only [Table.write, h, if_false, List.map_cons, List.nodup_cons, mem_keys_write]
      exact ⟨fun member => member.elim False.elim nodup.1, ih nodup.2⟩

/-- Entries in insertion order, no key twice. -/
structure Table (α : Type) where
  entries : List (String × α)
  nodup : (entries.map Prod.fst).Nodup

namespace Table

variable {α : Type}

def empty : Table α := ⟨[], by simp⟩

instance : Inhabited (Table α) := ⟨empty⟩

def keys (table : Table α) : List String := table.entries.map Prod.fst

def size (table : Table α) : Nat := table.entries.length

def isEmpty (table : Table α) : Bool := table.entries.isEmpty

def get? (table : Table α) (key : String) : Option α := table.entries.lookup key

def contains (table : Table α) (key : String) : Bool := (table.get? key).isSome

def insert (table : Table α) (key : String) (value : α) : Table α :=
  ⟨write key value table.entries, nodup_write key value table.entries table.nodup⟩

def erase (table : Table α) (key : String) : Table α :=
  ⟨table.entries.filter fun entry => entry.1 ≠ key,
    table.nodup.sublist ((List.filter_sublist).map Prod.fst)⟩

def insertAll (table : Table α) (pairs : List (String × α)) : Table α :=
  pairs.foldl (fun table pair => table.insert pair.1 pair.2) table

def ofList (pairs : List (String × α)) : Table α := empty.insertAll pairs

@[ext] theorem ext {first second : Table α} (h : first.entries = second.entries) :
    first = second := by
  cases first
  cases second
  cases h
  rfl

instance [DecidableEq α] : DecidableEq (Table α) := fun first second =>
  decidable_of_iff (first.entries = second.entries) ⟨ext, fun h => h ▸ rfl⟩

/-- The same values under the same keys, whatever the order. -/
def agrees [DecidableEq α] (first second : Table α) : Bool :=
  first.size == second.size &&
    first.entries.all fun entry => second.get? entry.1 == some entry.2

theorem lookup_write (key other : String) (value : α) (entries : List (String × α)) :
    (write key value entries).lookup other =
      if other = key then some value else entries.lookup other := by
  induction entries with
  | nil =>
    by_cases h : other = key
    · simp [write, h]
    · simp [write, h, beq_eq_false_iff_ne.mpr h, List.lookup_cons]
  | cons entry rest ih =>
    obtain ⟨k, v⟩ := entry
    by_cases h : k = key
    · subst h
      by_cases same : other = k
      · simp [write, same]
      · simp [write, same, beq_eq_false_iff_ne.mpr same, List.lookup_cons]
    · by_cases same : other = k
      · subst same
        simp [write, h]
      · simp [write, h, List.lookup_cons, beq_eq_false_iff_ne.mpr same, ih]

@[simp] theorem get?_insert (table : Table α) (key other : String) (value : α) :
    (table.insert key value).get? other =
      if other = key then some value else table.get? other :=
  lookup_write key other value table.entries

/-- A key that is not there yet goes to the end. -/
theorem entries_insert_of_absent (table : Table α) {key : String} (absent : table.get? key = none)
    (value : α) : (table.insert key value).entries = table.entries ++ [(key, value)] := by
  obtain ⟨entries, nodup⟩ := table
  change write key value entries = entries ++ [(key, value)]
  replace absent : entries.lookup key = none := absent
  clear nodup
  induction entries with
  | nil => rfl
  | cons entry rest ih =>
    obtain ⟨k, v⟩ := entry
    rw [List.lookup_cons] at absent
    split at absent
    · cases absent
    · rename_i apart
      have other : k ≠ key := Ne.symm (beq_eq_false_iff_ne.mp apart)
      rw [write, if_neg other, ih absent, List.cons_append]

theorem mem_of_get? (table : Table α) {key : String} {value : α}
    (there : table.get? key = some value) : (key, value) ∈ table.entries := by
  obtain ⟨before, after, split, _⟩ := List.lookup_eq_some_iff.mp there
  rw [split]
  simp

theorem get?_of_mem (table : Table α) {key : String} {value : α}
    (member : (key, value) ∈ table.entries) : table.get? key = some value := by
  obtain ⟨before, after, split⟩ := List.append_of_mem member
  have once := table.nodup
  rw [split, List.map_append, List.map_cons, List.nodup_append] at once
  refine List.lookup_eq_some_iff.mpr ⟨before, after, split, fun entry earlier => ?_⟩
  rw [bne_iff_ne]
  exact Ne.symm (once.2.2 entry.1 (List.mem_map_of_mem earlier) key List.mem_cons_self)

theorem mem_keys_of_get? (table : Table α) {key : String} {value : α}
    (there : table.get? key = some value) : key ∈ table.keys := by
  obtain ⟨before, after, split, _⟩ := List.lookup_eq_some_iff.mp there
  rw [keys, split]
  simp

theorem lookup_filter_ne (key other : String) (entries : List (String × α)) :
    (entries.filter fun entry => entry.1 ≠ key).lookup other =
      if other = key then none else entries.lookup other := by
  induction entries with
  | nil => simp
  | cons entry rest ih =>
    obtain ⟨k, v⟩ := entry
    by_cases h : k = key
    · subst h
      by_cases same : other = k
      · simpa [same] using ih
      · simpa [same, List.lookup_cons, beq_eq_false_iff_ne.mpr same] using ih
    · by_cases same : other = k
      · subst same
        simp [h]
      · simpa [h, List.lookup_cons, beq_eq_false_iff_ne.mpr same] using ih

@[simp] theorem get?_erase (table : Table α) (key other : String) :
    (table.erase key).get? other = if other = key then none else table.get? other :=
  lookup_filter_ne key other table.entries

theorem sublist_erase (table : Table α) (key : String) :
    (table.erase key).entries.Sublist table.entries := List.filter_sublist

theorem not_mem_erase (table : Table α) (key : String) (value : α) :
    (key, value) ∉ (table.erase key).entries := by
  simp [erase]

@[simp] theorem keys_erase (table : Table α) (key : String) :
    (table.erase key).keys = table.keys.filter (· ≠ key) := by
  simp only [erase, keys, List.filter_map]
  rfl

theorem keys_insert (table : Table α) (key : String) (value : α) :
    (table.insert key value).keys =
      if key ∈ table.keys then table.keys else table.keys ++ [key] := by
  obtain ⟨entries, nodup⟩ := table
  change (write key value entries).map Prod.fst =
    if key ∈ entries.map Prod.fst then entries.map Prod.fst else entries.map Prod.fst ++ [key]
  clear nodup
  induction entries with
  | nil => rfl
  | cons entry rest ih =>
    by_cases same : entry.1 = key
    · simp [write, same]
    · simp only [write, same, if_false, List.map_cons, List.mem_cons, ih, Ne.symm same, false_or]
      split <;> rfl

/-- Keys that are not there yet follow at the end, each where it first comes. -/
theorem keys_insertAll (table : Table α) (pairs : List (String × α)) :
    (table.insertAll pairs).keys =
      table.keys ++ ((pairs.map Prod.fst).removeAll table.keys).eraseDups := by
  induction pairs generalizing table with
  | nil => exact (List.append_nil _).symm
  | cons pair rest ih =>
    change ((table.insert pair.1 pair.2).insertAll rest).keys = _
    have further : (rest.map Prod.fst).removeAll (table.keys ++ [pair.1]) =
        ((rest.map Prod.fst).removeAll table.keys).filter fun other => !other == pair.1 := by
      rw [List.removeAll, List.removeAll, List.filter_filter]
      refine List.filter_congr fun other _ => ?_
      by_cases same : other = pair.1 <;> simp [same]
    rw [ih, keys_insert, List.map_cons, List.cons_removeAll, List.contains_eq_mem]
    by_cases there : pair.1 ∈ table.keys
    · simp [there]
    · simp [there, List.eraseDups_cons, further]

/-- What was written last under a key is there. -/
theorem get?_insertAll (table : Table α) (pairs : List (String × α)) (key : String) :
    (table.insertAll pairs).get? key = (pairs.reverse.lookup key).or (table.get? key) := by
  induction pairs generalizing table with
  | nil => rfl
  | cons pair rest ih =>
    obtain ⟨k, v⟩ := pair
    change ((table.insert k v).insertAll rest).get? key = _
    rw [ih, get?_insert, List.reverse_cons, List.lookup_append, Option.or_assoc]
    by_cases same : key = k
    · subst same
      simp
    · simp [List.lookup_cons, same, beq_eq_false_iff_ne.mpr same]

/-- Each key comes once, where it came first. -/
theorem keys_ofList (pairs : List (String × α)) :
    (ofList pairs).keys = (pairs.map Prod.fst).eraseDups := by
  have all : (pairs.map Prod.fst).removeAll [] = pairs.map Prod.fst :=
    List.filter_eq_self.mpr fun _ _ => rfl
  rw [ofList, keys_insertAll]
  exact congrArg List.eraseDups all

theorem get?_ofList (pairs : List (String × α)) (key : String) :
    (ofList pairs).get? key = pairs.reverse.lookup key := by
  rw [ofList, get?_insertAll]
  exact Option.or_none

theorem mem_of_mem_ofList {pairs : List (String × α)} {pair : String × α}
    (member : pair ∈ (ofList pairs).entries) : pair ∈ pairs := by
  have there := get?_of_mem _ member
  rw [get?_ofList] at there
  obtain ⟨before, after, split, _⟩ := List.lookup_eq_some_iff.mp there
  rw [← List.mem_reverse, split]
  simp

theorem entries_insertAll (table : Table α) (pairs : List (String × α))
    (distinct : ((table.entries ++ pairs).map Prod.fst).Nodup) :
    (table.insertAll pairs).entries = table.entries ++ pairs := by
  induction pairs generalizing table with
  | nil => exact (List.append_nil _).symm
  | cons pair rest ih =>
    have absent : table.get? pair.1 = none := by
      rw [List.map_append, List.map_cons, List.nodup_append] at distinct
      refine List.lookup_eq_none_iff.mpr fun entry there => ?_
      rw [bne_iff_ne]
      exact Ne.symm (distinct.2.2 entry.1 (List.mem_map_of_mem there) _ List.mem_cons_self)
    have entries := table.entries_insert_of_absent absent pair.2
    change ((table.insert pair.1 pair.2).insertAll rest).entries = _
    rw [ih _ (by simpa [entries] using distinct), entries, List.append_assoc, List.singleton_append]

theorem ofList_entries (table : Table α) : ofList table.entries = table :=
  ext (entries_insertAll empty table.entries table.nodup)

end Table

end ServiceHost
