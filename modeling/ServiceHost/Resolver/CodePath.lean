import ServiceHost.Files.Path

/-! Where a resolver that reads files looks: every path lies below its root. -/

set_option autoImplicit false

namespace ServiceHost.Resolver

/-- A segment of a dotted name must be one plain file name. -/
def isSegment (segment : List Char) : Bool := !segment.isEmpty && !segment.contains '/'

def codePathFrom (path : List Char) : List (List Char) → Option (List Char)
  | [] => some path
  | [last] => if isSegment last then some (Path.join path (last ++ ".svc".toList)) else none
  | segment :: rest =>
    if isSegment segment then codePathFrom (Path.join path segment) rest else none

/-- The path that a dotted name maps to, whether or not it exists: one directory for each segment
but the last, which names a file with the extension `svc`. -/
def codePath (root name : String) : Option String :=
  (codePathFrom root.toList (Text.splitOn '.' name.toList)).map String.ofList

/-- A path below the root for a relative path that only goes down. -/
def innerPath (root name : String) : Option String :=
  if Path.isInner name.toList then some (String.ofList (Path.join root.toList name.toList))
  else none

def libraryName (name : String) : String := "lib" ++ name ++ ".so"

end ServiceHost.Resolver
