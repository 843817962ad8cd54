import Mathlib.Data.List.Forall2
import ServiceHost.Proofs.Files.Relisted
import ServiceHost.Proofs.Plugin.Reload
import ServiceHost.Proofs.Text.Splitting

/-! A reload archive by archive: which files it takes for archives, what it tells of each, and what
it builds.

How manifests are read does not matter here, so the reader of them is left open. Each archive is
tried by itself: what comes of it depends on its own bytes and the factory of its class alone. -/

set_option autoImplicit false

namespace ServiceHost.Plugin

variable {α : Type}

/-! ## The archives of a directory -/

/-- Reads the keys of a manifest with their values. -/
abbrev Reader := String → Option (List (String × Toml.Value))

/-- The class that a manifest designates, for any reader. -/
def classBy (reader : Reader) (manifest : String) : Option String := do
  let entries ← reader manifest
  let text ← (← entries.lookup "plugin-class").string?
  let name := Text.trim text.toList
  if name.isEmpty then none else some (String.ofList name)

/-- A file of a directory, by its name there, that is an archive: a regular file with the extension
whose bytes are the text of a manifest with a class that is not blank. -/
structure Offers (reader : Reader) (files : Files) (dir name : String) (archive : Archive) :
    Prop where
  listed : name ∈ files.list dir
  extension : Path.extension? name.toList = some "plugin".toList
  path : archive.path = String.ofList (Path.join dir.toList name.toList)
  content : files.node? archive.path = some (.file archive.code)
  manifest : ∃ text entries written, Text.ofBytes? archive.code = some text ∧
    reader text = some entries ∧ entries.lookup "plugin-class" = some (.string written) ∧
    (∃ c ∈ written.toList, Text.isBlank c = false) ∧
    archive.className = String.ofList (Text.trim written.toList)

variable {reader : Reader} {files : Files} {dir : String}

theorem classBy_eq_some_iff {text className : String} :
    classBy reader text = some className ↔ ∃ entries written, reader text = some entries ∧
      entries.lookup "plugin-class" = some (.string written) ∧
      (∃ c ∈ written.toList, Text.isBlank c = false) ∧
      className = String.ofList (Text.trim written.toList) := by
  have solid : ∀ written : String, Text.trim written.toList = [] ↔
      ¬ ∃ c ∈ written.toList, Text.isBlank c = false := by
    intro written
    simp [Text.trim_eq_nil_iff]
  simp only [classBy, Option.bind_eq_bind, Option.bind_eq_some_iff]
  constructor
  · rintro ⟨entries, read, value, under, written, text, named⟩
    cases value with
    | string own =>
      cases text
      simp only [List.isEmpty_iff, solid, Option.ite_none_left_eq_some, not_not,
        Option.some.injEq] at named
      exact ⟨entries, written, read, under, named.1, named.2.symm⟩
    | _ => cases text
  · rintro ⟨entries, written, read, under, mixed, rfl⟩
    refine ⟨entries, read, _, under, written, rfl, ?_⟩
    simp only [List.isEmpty_iff, solid, mixed, not_true_eq_false, if_false]

/-- Whether the name of a file is that of an archive. -/
def isPlugin (name : String) : Bool := Path.extension? name.toList = some "plugin".toList

/-- What a file of a directory holds for an archive, whatever its name. -/
def archiveAt? (reader : Reader) (files : Files) (dir name : String) : Option Archive :=
  readArchive (classBy reader) files (String.ofList (Path.join dir.toList name.toList))

theorem scan_eq (reader : Reader) (files : Files) (dir : String) :
    scan (classBy reader) files dir =
      (archiveNames (files.list dir)).filterMap (archiveAt? reader files dir) := rfl

theorem offers_iff {name : String} {archive : Archive} :
    Offers reader files dir name archive ↔ name ∈ files.list dir ∧ isPlugin name = true ∧
      archiveAt? reader files dir name = some archive := by
  rw [archiveAt?, readArchive_eq_some_iff, isPlugin, decide_eq_true_iff]
  simp only [classBy_eq_some_iff]
  constructor
  · rintro ⟨listed, extension, path, content, text, entries, written, decoded, read, under,
      mixed, named⟩
    exact ⟨listed, extension, path, path ▸ content,
      text, decoded, entries, written, read, under, mixed, named⟩
  · rintro ⟨listed, extension, path, content, text, decoded, entries, written, read, under,
      mixed, named⟩
    exact ⟨listed, extension, path, path ▸ content,
      text, entries, written, decoded, read, under, mixed, named⟩

/-- A file is one archive at most. -/
theorem Offers.unique {name : String} {archive other : Archive}
    (offers : Offers reader files dir name archive) (also : Offers reader files dir name other) :
    archive = other :=
  Option.some.inj ((offers_iff.mp offers).2.2.symm.trans (offers_iff.mp also).2.2)

theorem sorted_mergeSort (names : List String) : names.mergeSort.Pairwise (· ≤ ·) := by
  have sorted := @List.pairwise_mergeSort String (fun a b => decide (a ≤ b))
    (fun a b c => by simpa using String.le_trans)
    (fun a b => by simpa using String.le_total a b) names
  simpa using sorted

theorem archiveNames_of_perm {names others : List String} (same : names.Perm others) :
    archiveNames names = archiveNames others := by
  refine List.Perm.eq_of_pairwise (fun a b _ _ => String.le_antisymm) (sorted_mergeSort _)
    (sorted_mergeSort _) ?_
  exact (List.mergeSort_perm _ _).trans ((same.filter _).trans (List.mergeSort_perm _ _).symm)

/-- What is found is found where it is looked for, in the same order. -/
theorem forall₂_filterMap {β γ : Type} {find : β → Option γ} {holds : β → γ → Prop}
    {places : List β}
    (found : ∀ place ∈ places, ∀ thing, find place = some thing → holds place thing) :
    List.Forall₂ holds (places.filter fun place => (find place).isSome)
      (places.filterMap find) := by
  induction places with
  | nil => exact .nil
  | cons place rest ih =>
    obtain ⟨own, others⟩ := List.forall_mem_cons.mp found
    cases here : find place with
    | none => simpa [here] using ih others
    | some thing => simpa [here] using List.Forall₂.cons (own thing here) (ih others)

theorem exists_of_forall₂ {β γ : Type} {holds : β → γ → Prop} {places : List β} {things : List γ}
    (all : List.Forall₂ holds places things) {place : β} (known : place ∈ places) :
    ∃ thing ∈ things, holds place thing := by
  induction all with
  | nil => cases known
  | @cons _ thing _ _ here _ ih =>
    rcases List.mem_cons.mp known with rfl | later
    · exact ⟨thing, List.mem_cons_self, here⟩
    · obtain ⟨thing, member, there⟩ := ih later
      exact ⟨thing, List.mem_cons_of_mem _ member, there⟩

/-- The archives of a directory: one for each file that is one, in the order of the file names, and
none for the others. -/
structure Found (reader : Reader) (files : Files) (dir : String) (archives : List Archive)
    (names passed : List String) : Prop where
  listed : (files.list dir).Perm (names ++ passed)
  sorted : names.Pairwise (· ≤ ·)
  offered : List.Forall₂ (Offers reader files dir) names archives
  others : ∀ name ∈ passed, ∀ archive, ¬ Offers reader files dir name archive

theorem exists_found (reader : Reader) (files : Files) (dir : String) :
    ∃ names passed, Found reader files dir (scan (classBy reader) files dir) names passed := by
  have sorted : (archiveNames (files.list dir)).Perm ((files.list dir).filter isPlugin) :=
    List.mergeSort_perm _ _
  have kept := sorted.filter fun name => (archiveAt? reader files dir name).isSome
  rw [List.filter_filter] at kept
  refine ⟨(archiveNames (files.list dir)).filter fun name =>
      (archiveAt? reader files dir name).isSome,
    (files.list dir).filter fun name =>
      !((archiveAt? reader files dir name).isSome && isPlugin name), ?_, ?_, ?_, ?_⟩
  · exact (List.filter_append_perm _ _).symm.trans (kept.symm.append_right _)
  · exact (sorted_mergeSort _).filter _
  · rw [scan_eq]
    refine forall₂_filterMap fun name member archive found => offers_iff.mpr ?_
    obtain ⟨listed, extension⟩ := List.mem_filter.mp (sorted.mem_iff.mp member)
    exact ⟨listed, extension, found⟩
  · intro name member archive offers
    obtain ⟨-, extension, found⟩ := offers_iff.mp offers
    have passed := (List.mem_filter.mp member).2
    rw [extension, found] at passed
    cases passed

/-! ## One archive at a time -/

/-- What comes of an archive: the factory of its class is given all bytes of the file. -/
inductive Attempt (factories : FactoryTable α) (archive : Archive) :
    Notice → Option α → Prop where
  | loaded {factory : Factory α} {value : α} :
      factories.get? archive.className = some factory → factory archive.code = .ok value →
      Attempt factories archive (.loaded archive.className) (some value)
  | refused {factory : Factory α} {reason : String} :
      factories.get? archive.className = some factory → factory archive.code = .error reason →
      Attempt factories archive
        (.failed archive.className archive.path (.failed archive.className reason)) none
  | unregistered : factories.get? archive.className = none →
      Attempt factories archive
        (.failed archive.className archive.path (.notRegistered archive.className)) none

/-- An archive with what the listener was told of it and what was built from it. -/
structure Try (α : Type) where
  archive : Archive
  notice : Notice
  made : Option α

def Try.instance? (tried : Try α) (loader : Loader) : Option (Instance α) :=
  tried.made.map fun value => ⟨tried.archive.className, loader, value⟩

def tryOf (factories : FactoryTable α) (archive : Archive) : Try α :=
  match factories.instantiate archive.className archive.code with
  | .ok value => ⟨archive, .loaded archive.className, some value⟩
  | .error cause => ⟨archive, .failed archive.className archive.path cause, none⟩

def tries (factories : FactoryTable α) (loader : Loader) : List (Try α) :=
  loader.archives.map (tryOf factories)

@[simp] theorem archive_tryOf (factories : FactoryTable α) (archive : Archive) :
    (tryOf factories archive).archive = archive := by
  unfold tryOf
  split <;> rfl

theorem instantiate_eq (factories : FactoryTable α) (loader : Loader) (archive : Archive) :
    instantiate factories loader archive =
      ((tryOf factories archive).notice, (tryOf factories archive).instance? loader) := by
  unfold instantiate tryOf
  cases factories.instantiate archive.className archive.code <;> rfl

theorem attempt_tryOf (factories : FactoryTable α) (archive : Archive) :
    Attempt factories archive (tryOf factories archive).notice
      (tryOf factories archive).made := by
  unfold tryOf FactoryTable.instantiate
  cases known : factories.get? archive.className with
  | none => exact .unregistered known
  | some factory =>
    cases made : factory archive.code with
    | ok value =>
      simp only [made]
      exact .loaded known made
    | error reason =>
      simp only [made]
      exact .refused known made

/-- Nothing but the factory of the class decides what comes of an archive. -/
theorem tryOf_congr {factories others : FactoryTable α} {archive : Archive}
    (same : others.get? archive.className = factories.get? archive.className) :
    tryOf others archive = tryOf factories archive := by
  unfold tryOf FactoryTable.instantiate
  rw [same]

/-! ## A reload, archive by archive -/

/-- A reload under a loader: its archives are those of the directory, each of them is tried once in
their order, the listener is told of each, and what was built keeps the loader. -/
structure Reloaded (reader : Reader) (factories : FactoryTable α) (files : Files) (loader : Loader)
    (notices : List Notice) (built : List (Instance α)) : Prop where
  found : ∃ names passed, Found reader files loader.dir loader.archives names passed
  tried : (tries factories loader).map Try.archive = loader.archives
  attempts : ∀ tried ∈ tries factories loader,
    Attempt factories tried.archive tried.notice tried.made
  notices : notices = (tries factories loader).map Try.notice
  built : built = (tries factories loader).filterMap fun tried => tried.instance? loader

theorem reloaded_of_scan (factories : FactoryTable α) {loader : Loader}
    (scanned : loader.archives = scan (classBy reader) files loader.dir) :
    Reloaded reader factories files loader (instantiateAll factories loader).1
      (instantiateAll factories loader).2 where
  found := scanned ▸ exists_found reader files loader.dir
  tried := by simp [tries, Function.comp_def]
  attempts := by
    intro tried member
    obtain ⟨archive, -, rfl⟩ := List.mem_map.mp member
    rw [archive_tryOf]
    exact attempt_tryOf factories archive
  notices := by simp [instantiateAll, tries, instantiate_eq, Function.comp_def]
  built := by simp [instantiateAll, tries, instantiate_eq, List.filterMap_map, Function.comp_def]

theorem Found.mem_of_offers {archives : List Archive} {names passed : List String}
    (found : Found reader files dir archives names passed) {name : String} {archive : Archive}
    (offers : Offers reader files dir name archive) : archive ∈ archives := by
  have known : name ∈ names := by
    refine (List.mem_append.mp (found.listed.subset offers.listed)).resolve_right fun aside => ?_
    exact found.others name aside archive offers
  obtain ⟨other, member, also⟩ := exists_of_forall₂ found.offered known
  rwa [offers.unique also]

namespace Holding

/-- The loader that a reload makes, what it tells, and what it builds, for any reader of
manifests. -/
def reloadBy (reader : Reader) (holding : Holding α) (factories : FactoryTable α) (files : Files) :
    Loader × List Notice × List (Instance α) :=
  let loader := holding.preloader.rescan (classBy reader) files (holding.issued + 1)
  (loader, instantiateAll factories loader)

end Holding

theorem scan_of_relisted {other : Files} (same : files.Relisted other) (dir : String) :
    scan (classBy reader) files dir = scan (classBy reader) other dir := by
  have read : readArchive (classBy reader) files = readArchive (classBy reader) other := by
    funext path
    ext archive
    simp only [readArchive_eq_some_iff, same.file_iff path]
  rw [scan, scan, archiveNames_of_perm (same.list_perm dir), read]

/-- In every state, for every directory in whatever order it is listed, every table of factories and
every reader of manifests: a reload tries the archives of the directory one by one in the order of
their names, and what comes of one does not depend on the others. -/
theorem Holding.reload_one_by_one (reader : Reader) (holding : Holding α)
    (factories : FactoryTable α) (files : Files) :
    match holding.reloadBy reader factories files with
    | (loader, notices, built) =>
      loader.dir = holding.preloader.dir ∧ loader.id = holding.issued + 1 ∧
      Reloaded reader factories files loader notices built ∧
      (∀ other, files.Relisted other →
        holding.reloadBy reader factories other = (loader, notices, built)) ∧
      (∀ (aside : Holding α) (others : FactoryTable α) (elsewhere : Files),
        match aside.reloadBy reader others elsewhere with
        | (another, _, _) => ∀ tried ∈ tries factories loader, ∀ name,
            Offers reader elsewhere another.dir name tried.archive →
            others.get? tried.archive.className = factories.get? tried.archive.className →
            tried ∈ tries others another) ∧
      (reader = Toml.read → ∃ after, holding.reload factories files = (notices, built, after) ∧
        after.preloader = ⟨loader.dir, some loader⟩) := by
  have reloaded (holding : Holding α) (factories : FactoryTable α) (files : Files) :=
    reloaded_of_scan factories
      (show (holding.preloader.rescan (classBy reader) files (holding.issued + 1)).archives =
        scan (classBy reader) files holding.preloader.dir from rfl)
  refine ⟨rfl, rfl, reloaded holding factories files, ?relisted, ?isolated, ?own⟩
  case relisted =>
    intro other same
    have loaders : ∀ id, holding.preloader.rescan (classBy reader) other id =
        holding.preloader.rescan (classBy reader) files id := by
      simp [Preloader.rescan, scan_of_relisted same]
    simp only [reloadBy, loaders]
    rfl
  case isolated =>
    intro aside others elsewhere tried member name offers same
    obtain ⟨archive, -, rfl⟩ := List.mem_map.mp member
    rw [archive_tryOf] at offers same
    obtain ⟨names, passed, found⟩ := (reloaded aside others elsewhere).found
    rw [← tryOf_congr same]
    exact List.mem_map_of_mem (found.mem_of_offers offers)
  case own =>
    rintro rfl
    -- With that reader the class of a manifest is the designated one.
    exact ⟨_, rfl, rfl⟩

end ServiceHost.Plugin
