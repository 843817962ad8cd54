import Mathlib.Data.List.Nodup
import ServiceHost.Plugin.Loader

/-! What a reload promises of the classes that a directory designates, and when it keeps that.

A reload goes through the archives one by one, while a loader answers for a class with the first
archive that designates it. The two agree where no class has two archives. -/

set_option autoImplicit false

namespace ServiceHost.Plugin

variable {α : Type}

/-- A file of a directory, by its name there, that is an archive. -/
structure Designates (files : Files) (dir name : String) (archive : Archive) : Prop where
  listed : name ∈ files.list dir
  extension : Path.extension? name.toList = some "plugin".toList
  path : archive.path = String.ofList (Path.join dir.toList name.toList)
  content : files.node? archive.path = some (.file archive.code)
  manifest : ∃ text, Text.ofBytes? archive.code = some text ∧
    designated? text = some archive.className

theorem readArchive_eq_some_iff {classOf : String → Option String} {files : Files} {path : String}
    {archive : Archive} :
    readArchive classOf files path = some archive ↔
      archive.path = path ∧ files.node? path = some (.file archive.code) ∧
        ∃ text, Text.ofBytes? archive.code = some text ∧ classOf text = some archive.className := by
  obtain ⟨place, className, code⟩ := archive
  unfold readArchive
  split
  case h_1 found file =>
    simp only [Option.bind_eq_bind, Option.bind_eq_some_iff, Option.some.injEq, Archive.mk.injEq,
      file, FileNode.file.injEq]
    constructor
    · rintro ⟨text, decoded, name, designated, rfl, rfl, rfl⟩
      exact ⟨rfl, rfl, text, decoded, designated⟩
    · rintro ⟨rfl, rfl, text, decoded, designated⟩
      exact ⟨text, decoded, className, designated, rfl, rfl, rfl⟩
  case h_2 other =>
    simp only [reduceCtorEq, false_iff]
    rintro ⟨-, file, -⟩
    exact other code file

/-- A scan finds the archives of the directory, all of them and nothing else. -/
theorem mem_scan_iff {files : Files} {dir : String} {archive : Archive} :
    archive ∈ scan designated? files dir ↔ ∃ name, Designates files dir name archive := by
  simp only [scan, archiveNames, List.mem_filterMap, List.mem_mergeSort, List.mem_filter,
    decide_eq_true_eq, readArchive_eq_some_iff]
  constructor
  · rintro ⟨name, ⟨listed, extension⟩, path, content, manifest⟩
    exact ⟨name, listed, extension, path, path ▸ content, manifest⟩
  · rintro ⟨name, listed, extension, path, content, manifest⟩
    exact ⟨name, ⟨listed, extension⟩, path, path ▸ content, manifest⟩

/-! ## One archive at a time -/

/-- The class that a notice is about. -/
def Notice.className : Notice → String
  | loaded className => className
  | failed className _ _ => className

/-- An instance was built under a loader from an archive: by the factory of its class, from the bytes
of the archive. -/
structure BuiltFrom (factories : FactoryTable α) (loader : Loader) (archive : Archive)
    (built : Instance α) : Prop where
  loader : built.loader = loader
  className : built.className = archive.className
  value : factories.instantiate archive.className archive.code = .ok built.value

theorem className_instantiate (factories : FactoryTable α) (loader : Loader) (archive : Archive) :
    (instantiate factories loader archive).1.className = archive.className := by
  unfold instantiate
  split <;> rfl

theorem instantiate_snd_eq_some_iff {factories : FactoryTable α} {loader : Loader}
    {archive : Archive} {built : Instance α} :
    (instantiate factories loader archive).2 = some built ↔
      BuiltFrom factories loader archive built := by
  obtain ⟨className, under, value⟩ := built
  unfold instantiate
  split
  case h_1 made success =>
    simp only [Option.some.injEq, Instance.mk.injEq]
    constructor
    · rintro ⟨rfl, rfl, rfl⟩
      exact ⟨rfl, rfl, success⟩
    · rintro ⟨rfl, rfl, again⟩
      exact ⟨rfl, rfl, by simpa [success] using again⟩
  case h_2 cause failure =>
    simp only [reduceCtorEq, false_iff]
    rintro ⟨-, -, success⟩
    simp [failure] at success

/-- Each archive makes one attempt, in the order of the archives. -/
theorem tried_instantiateAll (factories : FactoryTable α) (loader : Loader) :
    (instantiateAll factories loader).1.map Notice.className =
      loader.archives.map Archive.className := by
  simp only [instantiateAll, List.map_map]
  exact List.map_congr_left fun archive _ => className_instantiate factories loader archive

theorem mem_instantiateAll_iff {factories : FactoryTable α} {loader : Loader}
    {built : Instance α} :
    built ∈ (instantiateAll factories loader).2 ↔
      ∃ archive ∈ loader.archives, BuiltFrom factories loader archive built := by
  simp [instantiateAll, instantiate_snd_eq_some_iff]

/-! ## What the loader answers -/

/-- An instance has the value that the factory of its class makes of the very bytes that its loader
answers for the class. -/
def Agrees (factories : FactoryTable α) (built : Instance α) : Prop :=
  ∃ code, built.loader.code? built.className = some code ∧
    factories.instantiate built.className code = .ok built.value

theorem Loader.code?_eq_some_iff {loader : Loader} {className : String} {code : Blob} :
    loader.code? className = some code ↔
      ∃ archive ∈ loader.archives.find? (·.className == className), archive.code = code := by
  simp [Loader.code?]

/-- Where archives of one class have the same bytes, it does not matter which of them a loader
answers with. -/
theorem BuiltFrom.agrees {factories : FactoryTable α} {loader : Loader} {archive : Archive}
    {built : Instance α} (h : BuiltFrom factories loader archive built)
    (found : archive ∈ loader.archives)
    (same : ∀ other ∈ loader.archives, other.className = archive.className →
      other.code = archive.code) : Agrees factories built := by
  have some_one : (loader.archives.find? (·.className == archive.className)).isSome :=
    List.find?_isSome.mpr ⟨archive, found, by simp⟩
  obtain ⟨first, answers⟩ := Option.isSome_iff_exists.mp some_one
  have its_class : first.className = archive.className := by
    simpa using List.find?_some answers
  refine ⟨first.code, ?_, ?_⟩
  · rw [h.loader, h.className, Loader.code?_eq_some_iff]
    exact ⟨first, answers, rfl⟩
  · rw [h.className, same first (List.mem_of_find?_eq_some answers) its_class]
    exact h.value

/-! ## A whole reload -/

/-- No two archives designate the same class. -/
def Sole (archives : List Archive) : Prop := (archives.map Archive.className).Nodup

instance (archives : List Archive) : Decidable (Sole archives) :=
  inferInstanceAs (Decidable (List.Nodup _))

/-- What a reload promises: it tries each class once that some archive of the directory designates,
and what it builds agrees with the loader. -/
structure Faithful (factories : FactoryTable α) (files : Files) (dir : String)
    (notices : List Notice) (built : List (Instance α)) : Prop where
  once : ∀ name archive, Designates files dir name archive →
    (notices.map Notice.className).count archive.className = 1
  agree : ∀ made ∈ built, Agrees factories made

theorem faithful_iff (factories : FactoryTable α) (files : Files) (loader : Loader)
    (scanned : loader.archives = scan designated? files loader.dir) :
    Faithful factories files loader.dir (instantiateAll factories loader).1
        (instantiateAll factories loader).2 ↔ Sole loader.archives := by
  have designates : ∀ archive, archive ∈ loader.archives ↔
      ∃ name, Designates files loader.dir name archive := by simp [scanned, mem_scan_iff]
  constructor
  · intro faithful
    refine List.nodup_iff_count_eq_one.mpr fun className tried => ?_
    obtain ⟨archive, found, rfl⟩ := List.mem_map.mp tried
    obtain ⟨name, designating⟩ := (designates archive).mp found
    simpa [tried_instantiateAll] using faithful.once name archive designating
  · intro sole
    refine ⟨fun name archive designating => ?_, fun made given => ?_⟩
    · rw [tried_instantiateAll]
      refine List.nodup_iff_count_eq_one.mp sole _ (List.mem_map_of_mem ?_)
      exact (designates archive).mpr ⟨name, designating⟩
    · obtain ⟨archive, found, built⟩ := mem_instantiateAll_iff.mp given
      refine built.agrees found fun other also same => ?_
      rw [List.inj_on_of_nodup_map sole also found same]

/-- In every state, for every directory and every table of factories, a reload tries the class of
each archive once for that archive, in their order, and builds each instance from the bytes of an
archive that designates its class. So it keeps its promise exactly if no two archives of the
directory designate the same class. -/
theorem Holding.reload_faithful_iff (holding : Holding α) (factories : FactoryTable α)
    (files : Files) :
    match holding.reload factories files with
    | (notices, built, _) =>
      notices.map Notice.className =
          (scan designated? files holding.preloader.dir).map Archive.className ∧
        (∀ made ∈ built, ∃ name archive,
          Designates files holding.preloader.dir name archive ∧
            BuiltFrom factories (holding.fresh files) archive made) ∧
        (Faithful factories files holding.preloader.dir notices built ↔
          Sole (scan designated? files holding.preloader.dir)) := by
  refine ⟨tried_instantiateAll factories _, fun made given => ?_,
    faithful_iff factories files (holding.fresh files) rfl⟩
  obtain ⟨archive, found, built⟩ := mem_instantiateAll_iff.mp given
  obtain ⟨name, designating⟩ := mem_scan_iff.mp found
  exact ⟨name, archive, designating, built⟩

/-! ## Two archives of one class -/

def manifest (version : String) : Blob :=
  ("plugin-class = \"Text\"\nversion = \"" ++ version ++ "\"\n").toUTF8.toList

/-- A directory with two archives of one class that are not the same. -/
def twins : Files :=
  ⟨.directory [("plugins", .directory
    [("a.plugin", .file (manifest "1")), ("b.plugin", .file (manifest "2"))])], []⟩

/-- One class, whose objects are the bytes they were built from. -/
def verbatim : FactoryTable Blob := Table.empty.insert "Text" .ok

/-- The loader of the first reload there. -/
def twinLoader : Loader :=
  ⟨1, "/plugins",
    [⟨"/plugins/a.plugin", "Text", manifest "1"⟩, ⟨"/plugins/b.plugin", "Text", manifest "2"⟩]⟩

theorem scan_twins : scan designated? twins "/plugins" = twinLoader.archives := by
  have names : archiveNames (twins.list "/plugins") = ["a.plugin", "b.plugin"] := by
    have all : (twins.list "/plugins").filter
        (fun name => Path.extension? name.toList = some "plugin".toList) =
          ["a.plugin", "b.plugin"] := by decide +kernel
    rw [archiveNames, all]
    exact List.mergeSort_of_pairwise (by decide +kernel)
  rw [scan, names]
  decide +kernel

/-- A reload tries their class twice. Its loader answers both instances with the first archive, but the
second one was built from the other. -/
theorem Holding.reload_not_faithful_twins :
    match (Holding.start "/plugins").reload verbatim twins with
    | (notices, built, _) =>
      notices = [.loaded "Text", .loaded "Text"] ∧
        (built.map fun made =>
          (made.value, made.loader.code? made.className)) =
            [(manifest "1", some (manifest "1")), (manifest "2", some (manifest "1"))] ∧
        ¬ Faithful verbatim twins "/plugins" notices built := by
  have fresh : (Holding.start "/plugins" : Holding Blob).fresh twins = twinLoader :=
    congrArg (Loader.mk 1 "/plugins") scan_twins
  have twice : ¬ Sole twinLoader.archives := by decide +kernel
  simp only [Holding.reload, fresh]
  refine ⟨by decide +kernel, by decide +kernel, fun faithful => twice ?_⟩
  exact (faithful_iff verbatim twins twinLoader scan_twins.symm).mp faithful

end ServiceHost.Plugin
