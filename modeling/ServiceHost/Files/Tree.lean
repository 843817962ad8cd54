import ServiceHost.Files.Path
import ServiceHost.Text.Utf8

/-! A tree of files and directories, without links, and a working directory in it. -/

set_option autoImplicit false

namespace ServiceHost

inductive FileNode where
  | file (content : Blob)
  | directory (entries : List (String × FileNode))
  deriving Inhabited

inductive FileError where
  | notFound
  | notADirectory
  | isADirectory
  | nameWithNul
  | notText
  deriving DecidableEq, Repr

def FileError.message : FileError → String
  | notFound => "No such file or directory (os error 2)"
  | notADirectory => "Not a directory (os error 20)"
  | isADirectory => "Is a directory (os error 21)"
  | nameWithNul => "file name contained an unexpected NUL byte"
  | notText => "stream did not contain valid UTF-8"

def FileError.kind : FileError → String
  | notFound => "NotFound"
  | notADirectory => "NotADirectory"
  | isADirectory => "IsADirectory"
  | nameWithNul => "InvalidInput"
  | notText => "InvalidData"

namespace FileNode

def child? (name : String) : List (String × FileNode) → Option FileNode
  | [] => none
  | (k, node) :: rest => if k = name then some node else child? name rest

def putChild (name : String) (node : FileNode) : List (String × FileNode) → List (String × FileNode)
  | [] => [(name, node)]
  | (k, other) :: rest =>
    if k = name then (k, node) :: rest else (k, other) :: putChild name node rest

def at? : List String → FileNode → Option FileNode
  | [], node => some node
  | _ :: _, .file _ => none
  | name :: path, .directory entries => (child? name entries).bind (at? path)

/-- The tree with a node at the names; directories on the way are made, files there give way. -/
def put (node : FileNode) : List String → FileNode → FileNode
  | [], _ => node
  | name :: path, .file _ => .directory [(name, put node path (.directory []))]
  | name :: path, .directory entries =>
    .directory (putChild name (put node path ((child? name entries).getD (.directory []))) entries)

def remove : List String → FileNode → FileNode
  | [], node => node
  | _ :: _, .file content => .file content
  | [name], .directory entries => .directory (entries.filter fun entry => entry.1 ≠ name)
  | name :: path, .directory entries =>
    match child? name entries with
    | none => .directory entries
    | some node => .directory (putChild name (remove path node) entries)

end FileNode

structure Files where
  root : FileNode
  working : List String

namespace Files

/-- Goes one step; only a directory has further steps. -/
def go (files : Files) (position : List String) : Path.Step → Except FileError (List String)
  | .root => .ok []
  | .here => .ok position
  -- Names and the way up both ask for a directory to start from.
  | step =>
    match files.root.at? position with
    | none => .error .notFound
    | some (.file _) => .error .notADirectory
    | some (.directory entries) =>
      match step with
      | .up => .ok position.dropLast
      | .name text =>
        match FileNode.child? (String.ofList text) entries with
        | none => .error .notFound
        | some _ => .ok (position ++ [String.ofList text])
      | _ => .ok position

/-- Whether the text of a path says that it names a directory. -/
def mustBeDirectory (path : List Char) : Bool :=
  match path.reverse with
  | '/' :: _ => true
  | ['.'] => true
  | '.' :: '/' :: _ => true
  | _ => false

/-- The names that lead from the root to an existing file or directory. -/
def resolve (files : Files) (path : String) : Except FileError (List String) := do
  let text := path.toList
  if text.contains (Char.ofNat 0) then throw .nameWithNul
  if text.isEmpty then throw .notFound
  let names ← (Path.steps text).foldlM files.go files.working
  -- The last step may have led to a file, of which a slash behind it makes no directory.
  if mustBeDirectory text then
    match files.root.at? names with
    | some (.file _) => throw .notADirectory
    | _ => pure ()
  return names

def node? (files : Files) (path : String) : Option FileNode :=
  match files.resolve path with
  | .ok names => files.root.at? names
  | .error _ => none

def present (files : Files) (path : String) : Bool := (files.node? path).isSome

def isDirectory (files : Files) (path : String) : Bool :=
  match files.node? path with
  | some (.directory _) => true
  | _ => false

def isFile (files : Files) (path : String) : Bool :=
  match files.node? path with
  | some (.file _) => true
  | _ => false

def read (files : Files) (path : String) : Except FileError Blob := do
  match files.root.at? (← files.resolve path) with
  | some (.file content) => return content
  | some (.directory _) => throw .isADirectory
  | none => throw .notFound

def readText (files : Files) (path : String) : Except FileError String := do
  match Text.ofBytes? (← files.read path) with
  | some text => return text
  | none => throw .notText

/-- The names in a directory; none if there is no such directory. -/
def list (files : Files) (path : String) : List String :=
  match files.node? path with
  | some (.directory entries) => entries.map Prod.fst
  | _ => []

def put (files : Files) (names : List String) (node : FileNode) : Files :=
  { files with root := FileNode.put node names files.root }

/-- Puts a file at a path, or a directory if the path ends with a slash. Directories on the way are
made, and one that is there stays as it is. -/
def place (files : Files) (path : String) (content : Blob) : Files :=
  let names := (Path.steps path.toList).filterMap fun
    | .name text => some (String.ofList text)
    | _ => none
  let names := if path.startsWith "/" then names else files.working ++ names
  if path.endsWith "/" then
    if files.isDirectory path then files else files.put names (.directory [])
  else files.put names (.file content)

def delete (files : Files) (path : String) : Bool × Files :=
  match files.resolve path, files.isFile path with
  | .ok names, true => (true, { files with root := FileNode.remove names files.root })
  | _, _ => (false, files)

/-- Opens a file for appending: a missing one is made, empty, in an existing directory. -/
def openForAppend (files : Files) (path : String) : Except FileError Files := do
  match files.resolve path with
  | .ok names =>
    match files.root.at? names with
    | some (.file _) => return files
    | _ => throw .isADirectory
  -- Only the last step may be missing.
  | .error .notFound =>
    let text := path.toList
    if text.isEmpty then throw .notFound
    match (Path.steps text).reverse with
    | .name name :: front =>
      let parent ← front.reverse.foldlM files.go files.working
      match files.root.at? parent with
      | some (.directory _) =>
        if mustBeDirectory text then throw .isADirectory
        return files.put (parent ++ [String.ofList name]) (.file [])
      | some (.file _) => throw .notADirectory
      | none => throw .notFound
    | _ => throw .notFound
  | .error cause => throw cause

end Files

end ServiceHost
