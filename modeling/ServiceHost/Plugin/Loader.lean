import ServiceHost.Factory
import ServiceHost.Plugin.Archive

/-! Loaders: one per reload of a plugin directory, scoped to the archives then found.

A reload builds every designated class once. Each instance keeps its loader, so a
loader outlives its replacement until the last instance built under it is gone. -/

set_option autoImplicit false

namespace ServiceHost.Plugin

structure Loader where
  id : Nat
  dir : String
  archives : List Archive
  deriving DecidableEq, Repr

namespace Loader

def name (loader : Loader) : String := s!"loader#{loader.id}"

def describe (loader : Loader) : String := s!"plugins:{loader.dir}@{loader.name}"

/-- The code of a class: the bytes of the first archive that designates it. -/
def code? (loader : Loader) (className : String) : Option Blob :=
  (loader.archives.find? fun archive => archive.className == className).map Archive.code

end Loader

structure Instance (α : Type) where
  className : String
  loader : Loader
  value : α

/-- What a reload tells of one designated class. -/
inductive Notice where
  | loaded (className : String)
  | failed (className path : String) (cause : InstantiateError)
  deriving DecidableEq, Repr

def failureText (className path : String) (cause : InstantiateError) : String :=
  s!"plugin class '{className}' from {path}: {cause.message}"

def instantiate {α : Type} (factories : FactoryTable α) (loader : Loader) (archive : Archive) :
    Notice × Option (Instance α) :=
  match factories.instantiate archive.className archive.code with
  | .ok value => (.loaded archive.className, some ⟨archive.className, loader, value⟩)
  | .error cause => (.failed archive.className archive.path cause, none)

def instantiateAll {α : Type} (factories : FactoryTable α) (loader : Loader) :
    List Notice × List (Instance α) :=
  let outcomes := loader.archives.map (instantiate factories loader)
  (outcomes.map Prod.fst, outcomes.filterMap Prod.snd)

/-- What resolves plugin classes: a directory, and the loader of the latest reload unless it was
let go. -/
structure Preloader where
  dir : String
  loader : Option Loader
  deriving DecidableEq, Repr

namespace Preloader

def describe (preloader : Preloader) : String :=
  match preloader.loader with
  | some loader => loader.describe
  | none => s!"plugins:{preloader.dir}@unloaded"

def code? (preloader : Preloader) (className : String) : Option Blob :=
  preloader.loader.bind fun loader => loader.code? className

/-- Scans the directory again and puts a new loader in the place of the old one. -/
def rescan (preloader : Preloader) (classOf : String → Option String) (files : Files) (id : Nat) :
    Loader :=
  ⟨id, preloader.dir, scan classOf files preloader.dir⟩

end Preloader

/-- How many hold each loader, by its number. A loader exists as long as somebody holds it. -/
structure Holders where
  count : Nat → Nat

namespace Holders

def nobody : Holders := ⟨fun _ => 0⟩

/-- So many more hold the loader with that number. -/
def hold (holders : Holders) (id times : Nat) : Holders :=
  ⟨fun other => if other = id then holders.count other + times else holders.count other⟩

/-- One who may have held a loader holds it no more. -/
def release (holders : Holders) (held : Option Loader) : Holders :=
  ⟨fun other =>
    if held.any (·.id == other) then holders.count other - 1 else holders.count other⟩

end Holders

/-- A plugin directory in use: the preloader, how many loaders there have been and who holds them,
and the instances that callers were given, those dropped again left blank. -/
structure Holding (α : Type) where
  preloader : Preloader
  issued : Nat
  instances : List (Option (Instance α))
  holders : Holders

namespace Holding

variable {α : Type}

def start (dir : String) : Holding α := ⟨⟨dir, none⟩, 0, [], .nobody⟩

/-- The loader that a reload makes. -/
def fresh (holding : Holding α) (files : Files) : Loader :=
  holding.preloader.rescan designated? files (holding.issued + 1)

def reload (holding : Holding α) (factories : FactoryTable α) (files : Files) :
    List Notice × List (Instance α) × Holding α :=
  let loader := holding.fresh files
  -- The reload itself holds the loader until it is done.
  let holders := holding.holders.hold loader.id 1
  let holders := (holders.hold loader.id 1).release holding.preloader.loader
  let (notices, built) := instantiateAll factories loader
  (notices, built,
    { preloader := { holding.preloader with loader := some loader }
      issued := holding.issued + 1
      instances := holding.instances ++ built.map some
      holders := (holders.hold loader.id built.length).release (some loader) })

/-- Puts a new preloader for a directory in the place of the old one, which goes when the new one has
reloaded. -/
def reopenAt (holding : Holding α) (dir : String) (factories : FactoryTable α) (files : Files) :
    List Notice × List (Instance α) × Holding α :=
  let (notices, built, opened) := { holding with preloader := ⟨dir, none⟩ }.reload factories files
  (notices, built, { opened with holders := opened.holders.release holding.preloader.loader })

def reopen (holding : Holding α) (factories : FactoryTable α) (files : Files) :
    List Notice × List (Instance α) × Holding α :=
  holding.reopenAt holding.preloader.dir factories files

def unload (holding : Holding α) : Holding α :=
  { holding with
    preloader := { holding.preloader with loader := none }
    holders := holding.holders.release holding.preloader.loader }

def instance? (holding : Holding α) (index : Nat) : Option (Instance α) :=
  (holding.instances[index]?).join

def drop (holding : Holding α) (index : Nat) : Holding α :=
  { holding with
    instances := holding.instances.set index none
    holders := holding.holders.release ((holding.instance? index).map Instance.loader) }

/-- Whether the loader with that number still exists. -/
def alive (holding : Holding α) (id : Nat) : Bool := 0 < holding.holders.count id

end Holding

end ServiceHost.Plugin
