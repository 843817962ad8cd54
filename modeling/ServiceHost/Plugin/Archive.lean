import ServiceHost.Files.Tree
import ServiceHost.Toml.Document

/-! Plugin archives: files of a plugin directory that designate a class.

An archive is a regular file with the extension `plugin` that holds a TOML manifest
in UTF-8; the manifest names its class as text under `plugin-class`. The bytes of
the whole file are the code of the class. -/

set_option autoImplicit false

namespace ServiceHost.Plugin

structure Archive where
  path : String
  className : String
  code : Blob
  deriving DecidableEq, Repr

/-- The class that a manifest designates, blanks around it removed; other keys do not matter. -/
def designated? (manifest : String) : Option String := do
  let entries ← Toml.read manifest
  let text ← (← entries.lookup "plugin-class").string?
  let name := Text.trim text.toList
  if name.isEmpty then none else some (String.ofList name)

/-- The names of the archives in a directory listing, in order. -/
def archiveNames (names : List String) : List String :=
  (names.filter fun name => Path.extension? name.toList = some "plugin".toList).mergeSort

def readArchive (classOf : String → Option String) (files : Files) (path : String) :
    Option Archive :=
  match files.node? path with
  | some (.file code) => do
    let className ← classOf (← Text.ofBytes? code)
    some ⟨path, className, code⟩
  | _ => none

/-- The archives of a directory in the order of their names. Files that are unreadable or
designate no class are passed over. -/
def scan (classOf : String → Option String) (files : Files) (dir : String) : List Archive :=
  (archiveNames (files.list dir)).filterMap fun name =>
    readArchive classOf files (String.ofList (Path.join dir.toList name.toList))

end ServiceHost.Plugin
