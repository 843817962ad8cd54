import ServiceHost.Files.Tree

/-! One tree, listed in different orders.

The names in a directory come in the order in which its entries are kept. No path leads elsewhere
for that, and no file has another content. -/

set_option autoImplicit false

namespace ServiceHost

namespace FileNode

/-- The same tree, in which directories may keep their entries in another order. -/
inductive Relisted : FileNode → FileNode → Prop where
  | refl (node : FileNode) : Relisted node node
  | order {entries others : List (String × FileNode)} : (entries.map Prod.fst).Nodup →
      entries.Perm others → Relisted (.directory entries) (.directory others)
  | within {front back : List (String × FileNode)} {name : String} {node other : FileNode} :
      Relisted node other → Relisted (.directory (front ++ (name, node) :: back))
        (.directory (front ++ (name, other) :: back))
  | trans {first second third : FileNode} : Relisted first second → Relisted second third →
      Relisted first third

/-- The same as far as one looks at one place: nothing, a file with its content, or a directory with
the same names in it. -/
inductive Alike : Option FileNode → Option FileNode → Prop where
  | nothing : Alike none none
  | file (content : Blob) : Alike (some (.file content)) (some (.file content))
  | directory {entries others : List (String × FileNode)} :
      (entries.map Prod.fst).Perm (others.map Prod.fst) →
      Alike (some (.directory entries)) (some (.directory others))

theorem Alike.refl (node : Option FileNode) : Alike node node := by
  rcases node with _ | content | entries
  · exact .nothing
  · exact .file content
  · exact .directory (List.Perm.refl _)

theorem Alike.trans {first second third : Option FileNode} (h : Alike first second)
    (next : Alike second third) : Alike first third := by
  cases h with
  | nothing => exact next
  | file => exact next
  | directory same =>
    cases next with
    | directory further => exact .directory (same.trans further)

/-- Among distinct names, a child is found wherever it stands. -/
theorem child?_eq_some_iff {entries : List (String × FileNode)}
    (distinct : (entries.map Prod.fst).Nodup) {name : String} {node : FileNode} :
    child? name entries = some node ↔ (name, node) ∈ entries := by
  induction entries with
  | nil => simp [child?]
  | cons entry rest ih =>
    obtain ⟨key, held⟩ := entry
    obtain ⟨absent, distinct⟩ := List.nodup_cons.mp distinct
    by_cases same : key = name
    · subst same
      have only : (key, node) ∉ rest := fun inside =>
        absent (List.mem_map.mpr ⟨(key, node), inside, rfl⟩)
      simp [child?, only, eq_comm]
    · simp [child?, same, Ne.symm same, ih distinct]

theorem child?_of_perm {entries others : List (String × FileNode)}
    (distinct : (entries.map Prod.fst).Nodup) (same : entries.Perm others) (name : String) :
    child? name entries = child? name others := by
  have also : (others.map Prod.fst).Nodup := (same.map Prod.fst).nodup_iff.mp distinct
  ext node
  rw [child?_eq_some_iff distinct, child?_eq_some_iff also, same.mem_iff]

theorem isSome_child?_iff {entries : List (String × FileNode)} {name : String} :
    (child? name entries).isSome = true ↔ name ∈ entries.map Prod.fst := by
  induction entries with
  | nil => simp [child?]
  | cons entry rest ih =>
    by_cases same : entry.1 = name
    · simp [child?, same]
    · simpa [child?, same, Ne.symm same] using ih

theorem isSome_child?_of_perm {entries others : List (String × FileNode)}
    (same : (entries.map Prod.fst).Perm (others.map Prod.fst)) (name : String) :
    (child? name entries).isSome = (child? name others).isSome := by
  rw [Bool.eq_iff_iff, isSome_child?_iff, isSome_child?_iff, same.mem_iff]

/-- A child that gives way to another leaves all others where they are. -/
theorem child?_within (front back : List (String × FileNode)) (name other : String)
    (node instead : FileNode) :
    child? other (front ++ (name, node) :: back) = child? other (front ++ (name, instead) :: back) ∨
      child? other (front ++ (name, node) :: back) = some node ∧
        child? other (front ++ (name, instead) :: back) = some instead := by
  induction front with
  | nil => by_cases same : name = other <;> simp [child?, same]
  | cons entry rest ih =>
    by_cases same : entry.1 = other
    · simp [child?, same]
    · simpa [child?, same] using ih

/-- By induction on the changes of order: at each place, a change either permutes the names there or
happens further down. -/
theorem Relisted.alike {first second : FileNode} (h : Relisted first second)
    (names : List String) : Alike (first.at? names) (second.at? names) := by
  induction h generalizing names with
  | refl => exact .refl _
  | order distinct same =>
    cases names with
    | nil => exact .directory (same.map Prod.fst)
    | cons name rest =>
      simp only [at?, child?_of_perm distinct same]
      exact .refl _
  | @within front back name node other _ ih =>
    cases names with
    | nil => exact .directory (by simp)
    | cons step rest =>
      rcases child?_within front back name step node other with same | ⟨here, there⟩
      · simp only [at?, same]
        exact .refl _
      · simp only [at?, here, there]
        exact ih rest
  | trans _ _ first second => exact (first names).trans (second names)

end FileNode

namespace Files

open FileNode (Alike)

/-- The same files in the same places, of which directories may be listed in another order. -/
structure Relisted (files other : Files) : Prop where
  root : files.root.Relisted other.root
  working : files.working = other.working

variable {files other : Files}

/-- A step leads to the same place: it asks a directory only whether a name is in it. -/
theorem Relisted.go (same : files.Relisted other) : files.go = other.go := by
  funext position step
  have here := same.root.alike position
  unfold Files.go
  generalize files.root.at? position = first at here ⊢
  generalize other.root.at? position = second at here ⊢
  cases here with
  | nothing => cases step <;> rfl
  | file => cases step <;> rfl
  | @directory entries others listed =>
    cases step with
    | name text =>
      have known := FileNode.isSome_child?_of_perm listed (String.ofList text)
      dsimp only
      cases found : FileNode.child? (String.ofList text) entries with
      | none =>
        cases also : FileNode.child? (String.ofList text) others with
        | none => rfl
        | some node => simp [found, also] at known
      | some node =>
        cases also : FileNode.child? (String.ofList text) others with
        | none => simp [found, also] at known
        | some node => rfl
    | _ => rfl

theorem Relisted.resolve (same : files.Relisted other) (path : String) :
    files.resolve path = other.resolve path := by
  unfold Files.resolve
  rw [same.go, same.working]
  dsimp only
  cases path.toList.contains (Char.ofNat 0) with
  | true => rfl
  | false =>
    cases path.toList.isEmpty with
    | true => rfl
    | false =>
      cases (Path.steps path.toList).foldlM other.go other.working with
      | error cause => rfl
      | ok names =>
        have here := same.root.alike names
        simp only [Bool.false_eq_true, if_false, bind, Except.bind]
        generalize files.root.at? names = first at here ⊢
        generalize other.root.at? names = second at here ⊢
        cases here <;> rfl

theorem Relisted.node? (same : files.Relisted other) (path : String) :
    Alike (files.node? path) (other.node? path) := by
  unfold Files.node?
  rw [same.resolve path]
  cases other.resolve path with
  | error => exact .nothing
  | ok names => exact same.root.alike names

theorem Relisted.list_perm (same : files.Relisted other) (path : String) :
    (files.list path).Perm (other.list path) := by
  have here := same.node? path
  unfold Files.list
  generalize files.node? path = first at here ⊢
  generalize other.node? path = second at here ⊢
  cases here with
  | directory listed => exact listed
  | _ => exact List.Perm.refl _

/-- A path leads to the same files. -/
theorem Relisted.file_iff (same : files.Relisted other) (path : String) (content : Blob) :
    files.node? path = some (.file content) ↔ other.node? path = some (.file content) := by
  have here := same.node? path
  generalize files.node? path = first at here ⊢
  generalize other.node? path = second at here ⊢
  cases here <;> simp

end Files

end ServiceHost
