import ServiceHost.Proofs.Files.Below
import ServiceHost.Resolver.Store

/-! Lookups of a resolver that reads files stay below its root.

A name is guarded twice over: code by its dotted segments, resources and libraries by the
steps of the name as a path. Either way the path that is consulted goes down by names. -/

set_option autoImplicit false

namespace ServiceHost

namespace Resolver

open ServiceHost.Path

/-- The names below the root for the segments of a dotted name. -/
def segmentNames : List (List Char) → List (List Char)
  | [] => []
  | [last] => [last ++ ".svc".toList]
  | segment :: rest => segment :: segmentNames rest

/-- A dotted name stands for names if each of its segments is one plain file name. -/
def Dotted (name : String) (names : List (List Char)) : Prop :=
  (∀ segment ∈ Text.splitOn '.' name.toList, segment ≠ [] ∧ '/' ∉ segment) ∧
    names = segmentNames (Text.splitOn '.' name.toList)

/-- A relative path stands for names if it makes no step but these, and at least one. -/
def Relative (name : String) (names : List (List Char)) : Prop :=
  names ≠ [] ∧ steps name.toList = names.map .name

theorem isSegment_iff (segment : List Char) :
    isSegment segment = true ↔ segment ≠ [] ∧ '/' ∉ segment := by
  simp [isSegment]

/-- A piece without slash that is no dot is a path of one name. -/
theorem steps_of_isName {name : List Char} (h : IsName name) : steps name = [.name name] := by
  have head : name.head? ≠ some '/' := by
    intro slash
    exact h.slash (List.mem_of_mem_head? slash)
  rw [steps_relative head, Text.splitOn_of_notMem h.slash]
  unfold lead
  split
  case _ same => exact absurd (List.cons.inj same).1 h.ne_here
  case _ => simp [h.step?]

theorem isName_of_segment {segment : List Char} (plain : segment ≠ [] ∧ '/' ∉ segment)
    (dotless : '.' ∉ segment) : IsName segment where
  ne_nil := plain.1
  ne_here := by rintro rfl; simp at dotless
  ne_up := by rintro rfl; simp at dotless
  slash := plain.2

theorem isName_of_codeFile {last : List Char} (plain : last ≠ [] ∧ '/' ∉ last) :
    IsName (last ++ ".svc".toList) where
  ne_nil := by simp
  ne_here := by intro same; simpa using congrArg List.length same
  ne_up := by intro same; simpa using congrArg List.length same
  slash := by simpa using plain.2

theorem below_segment (path : List Char) {name : List Char} (h : IsName name) :
    Below path (Path.join path name) [name] :=
  Below.join path (by simp) (steps_of_isName h)

theorem codePathFrom_below {segments : List (List Char)} (nonempty : segments ≠ [])
    (dotless : ∀ segment ∈ segments, '.' ∉ segment) (start : List Char) {path : List Char}
    (h : codePathFrom start segments = some path) :
    (∀ segment ∈ segments, segment ≠ [] ∧ '/' ∉ segment) ∧
      Below start path (segmentNames segments) := by
  induction segments generalizing start with
  | nil => exact absurd rfl nonempty
  | cons segment rest ih =>
    cases rest with
    | nil =>
      simp only [codePathFrom, Option.ite_none_right_eq_some, isSegment_iff, Option.some.injEq] at h
      obtain ⟨plain, rfl⟩ := h
      exact ⟨by simpa using plain, below_segment start (isName_of_codeFile plain)⟩
    | cons next others =>
      simp only [codePathFrom, Option.ite_none_right_eq_some, isSegment_iff] at h
      obtain ⟨plain, h⟩ := h
      obtain ⟨plainRest, below⟩ :=
        ih (by simp) (fun other member => dotless other (by simp [member])) _ h
      have first := below_segment start (isName_of_segment plain (dotless segment (by simp)))
      exact ⟨List.forall_mem_cons.mpr ⟨plain, plainRest⟩, first.trans below⟩

theorem codePathFrom_isSome {segments : List (List Char)}
    (plain : ∀ segment ∈ segments, segment ≠ [] ∧ '/' ∉ segment) (start : List Char) :
    (codePathFrom start segments).isSome := by
  induction segments generalizing start with
  | nil => rfl
  | cons segment rest ih =>
    have own := (isSegment_iff segment).mpr (plain segment (by simp))
    cases rest with
    | nil => simp [codePathFrom, own]
    | cons next others =>
      simp only [codePathFrom, own, if_true]
      exact ih (fun other member => plain other (by simp [member])) _

/-- A path that may be consulted below a root, for a name that may stand for names below it. -/
structure Guarded (root : String) (path? : Option String) (leads : List (List Char) → Prop) :
    Prop where
  below : ∀ path, path? = some path → ∃ names, leads names ∧ Below root.toList path.toList names
  refused : path? = none ↔ ∀ names, ¬ leads names

theorem below_of_codePath {root name path : String} (h : codePath root name = some path) :
    ∃ names, Dotted name names ∧ Below root.toList path.toList names := by
  obtain ⟨text, made, rfl⟩ := Option.map_eq_some_iff.mp h
  have dotless : ∀ segment ∈ Text.splitOn '.' name.toList, '.' ∉ segment :=
    fun segment member inside => Text.ne_of_mem_splitOn '.' _ segment member _ inside rfl
  obtain ⟨plain, below⟩ := codePathFrom_below (Text.splitOn_ne_nil _ _) dotless _ made
  exact ⟨_, ⟨plain, rfl⟩, by simpa using below⟩

theorem codePath_guarded (root name : String) :
    Guarded root (codePath root name) (Dotted name) where
  below := fun _ => below_of_codePath
  refused := by
    constructor
    · rintro refused names ⟨plain, -⟩
      have made := codePathFrom_isSome plain root.toList
      rw [codePath, Option.map_eq_none_iff] at refused
      simp [refused] at made
    · intro refused
      cases made : codePath root name with
      | none => rfl
      | some path =>
        obtain ⟨names, dotted, -⟩ := below_of_codePath made
        exact absurd dotted (refused names)

theorem innerPath_guarded (root name : String) :
    Guarded root (innerPath root name) (Relative name) where
  below := by
    intro path h
    simp only [innerPath, Option.ite_none_right_eq_some, isInner_iff, Option.some.injEq] at h
    obtain ⟨⟨names, down, led⟩, rfl⟩ := h
    exact ⟨names, ⟨down, led⟩, by simpa using Below.join root.toList down led⟩
  refused := by
    simp [innerPath, isInner_iff, Relative]

/-- A lookup below a root. Every answer shows what the tree holds at a place that lies strictly
below the place of the root. -/
structure Confined {α : Type} (root : String) (path? : Option String)
    (leads : List (List Char) → Prop) (ask : Surroundings → Option α)
    (shows : String → List String → FileNode → α → Prop) : Prop extends
    Guarded root path? leads where
  /-- Without a path below the root there is no answer, in any surroundings. -/
  unanswered : ∀ around, path? = none → ask around = none
  answered : ∀ around answer, ask around = some answer →
    ∃ path names home node, path? = some path ∧ leads names ∧ names ≠ [] ∧
      (∀ name ∈ names, IsName name) ∧ around.files.resolve root = .ok home ∧
      around.files.resolve path = .ok (home ++ names.map String.ofList) ∧
      around.files.root.at? (home ++ names.map String.ofList) = some node ∧
      shows path (home ++ names.map String.ofList) node answer
  /-- Nothing else in the tree matters. -/
  blind : ∀ around other : Surroundings, around.files.SameUnder root other.files →
    ask around = ask other

/-- A lookup asks the tree at the guarded path, and nothing else. -/
theorem Guarded.confined {α : Type} {root : String} {path? : Option String}
    {leads : List (List Char) → Prop} {shows : String → List String → FileNode → α → Prop}
    (guarded : Guarded root path? leads) (given : root ≠ "")
    {ask : Surroundings → Option α} (look : Files → String → Option α)
    (asks : ∀ around, ask around = path?.bind (look around.files))
    (looks : ∀ files path answer, look files path = some answer → ∃ place,
      files.resolve path = .ok place ∧
        ∀ node, files.root.at? place = some node → shows path place node answer)
    (blind : ∀ (files other : Files) (path : String) (names : List (List Char)),
      files.SameUnder root other → Below root.toList path.toList names →
        look files path = look other path) :
    Confined root path? leads ask shows where
  toGuarded := guarded
  unanswered := fun around refused => by rw [asks, refused]; rfl
  answered := by
    intro around answer h
    rw [asks] at h
    obtain ⟨path, consulted, h⟩ := Option.bind_eq_some_iff.mp h
    obtain ⟨names, led, below⟩ := guarded.below path consulted
    obtain ⟨place, resolved, shown⟩ := looks _ _ _ h
    obtain ⟨home, node, atHome, rfl, found⟩ :=
      Files.exists_of_resolve below given (by rw [resolved]; rfl)
    exact ⟨path, names, home, node, consulted, led, below.down, below.named, atHome, resolved,
      found, shown node found⟩
  blind := by
    intro around other same
    rw [asks, asks]
    cases consulted : path? with
    | none => rfl
    | some path =>
      obtain ⟨names, -, below⟩ := guarded.below path consulted
      exact blind _ _ _ _ same below

end Resolver

namespace Resolvers

open ServiceHost.Resolver

variable {store : Resolvers} {id : ResolverId} {root : String}

theorem search_fileSystem {β : Type} (leaf : Resolver → Option β × Resolver) (counts : β → Bool)
    (held : store.get? id = some (.fileSystem root)) :
    (search leaf counts store.depth id store).1 = (leaf (.fileSystem root)).1 := by
  simp [depth, search, held]

/-- Whatever a resolver that reads files gives away lies strictly below its root, for every name
and every tree: the path goes down from the root by names, and a name without such a path is
answered by nothing, whatever is elsewhere. -/
theorem lookups_stay_below_root {files : Files} (made : files.isDirectory root = true)
    (held : store.get? id = some (.fileSystem root)) (name : String) :
    Confined root (codePath root name) (Dotted name)
      (fun around => (store.findCode around id name).1)
      (fun _ _ node code => node = .file code) ∧
    Confined root (innerPath root name) (Relative name)
      (fun around => (store.findResource around id name).1)
      (fun _ place _ url => url = Path.fileUrl place) ∧
    Confined root (innerPath root (libraryName name)) (Relative (libraryName name))
      (fun around => (store.findLibrary around id name).1)
      (fun path _ _ answer => answer = path) := by
  have given := Files.ne_empty_of_isDirectory made
  refine ⟨?code, ?resource, ?library⟩
  case code =>
    apply (codePath_guarded root name).confined given fun files path => (files.read path).toOption
    · exact fun around => search_fileSystem _ _ held
    · intro files path code h
      rw [Files.read_toOption] at h
      obtain ⟨node, found, h⟩ := Option.bind_eq_some_iff.mp h
      obtain ⟨place, resolved, there⟩ := Files.exists_of_node? found
      refine ⟨place, resolved, ?_⟩
      intro other found
      cases there.symm.trans found
      cases node <;> simp_all
    · exact fun files other path names same below => same.read below given
  case resource =>
    apply (innerPath_guarded root name).confined given
      fun files path => (files.resolve path).toOption.map Path.fileUrl
    · exact fun around => search_fileSystem _ _ held
    · intro files path url h
      obtain ⟨place, resolved, rfl⟩ := Option.map_eq_some_iff.mp h
      exact ⟨place, Files.resolve_eq_of_toOption resolved, fun _ _ => rfl⟩
    · intro files other path names same below
      rw [same.resolve below given]
  case library =>
    apply (innerPath_guarded root (libraryName name)).confined given
      fun files path => if files.present path then some path else none
    · exact fun around => search_fileSystem _ _ held
    · intro files path answer h
      simp only [Option.ite_none_right_eq_some, Option.some.injEq] at h
      obtain ⟨present, rfl⟩ := h
      obtain ⟨node, found⟩ := Option.isSome_iff_exists.mp present
      obtain ⟨place, resolved, -⟩ := Files.exists_of_node? found
      exact ⟨place, resolved, fun _ _ => rfl⟩
    · intro files other path names same below
      rw [same.present below given]

/-- The tree of a resolver at `/srv`, with a secret beside it. -/
def srv : Files where
  root := .directory [("srv", .directory [("billing", .directory [("Ledger.svc", .file [1])])]),
    ("secret.svc", .file [2])]
  working := ["srv"]

theorem lookups_stay_below_root_srv :
    let store : Resolvers := ⟨[.fileSystem "/srv"]⟩
    let around : Surroundings := ⟨srv, fun _ _ => none⟩
    srv.isDirectory "/srv" = true ∧ store.get? 0 = some (.fileSystem "/srv") ∧
      (store.findCode around 0 "billing.Ledger").1 = some [1] ∧
      Confined "/srv" (codePath "/srv" "billing.Ledger") (Dotted "billing.Ledger")
        (fun around => (store.findCode around 0 "billing.Ledger").1)
        (fun _ _ node code => node = .file code) ∧
      (store.findResource around 0 "../secret.svc").1 = none ∧
      Confined "/srv" (innerPath "/srv" "../secret.svc") (Relative "../secret.svc")
        (fun around => (store.findResource around 0 "../secret.svc").1)
        (fun _ place _ url => url = Path.fileUrl place) :=
  have made : srv.isDirectory "/srv" = true := by decide +kernel
  ⟨made, rfl, by decide +kernel, (lookups_stay_below_root made rfl "billing.Ledger").1,
    by decide +kernel, (lookups_stay_below_root made rfl "../secret.svc").2.1⟩

end Resolvers

end ServiceHost
