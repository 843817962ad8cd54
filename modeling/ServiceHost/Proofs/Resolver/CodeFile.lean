import ServiceHost.Proofs.Resolver.Containment

/-! The code file of a name, as the tree below a root holds it.

A lookup forms the text of a path and reads it from the start. That is the same as going down
from the root's own place, by a directory for each segment of the name but the last. -/

set_option autoImplicit false

namespace ServiceHost

/-- The character that no path may hold. -/
def Path.nul : Char := Char.ofNat 0

/-- What the tree holds below a path, if it is a file. -/
def Files.contentBelow (files : Files) (root : String) (names : List String) : Option Blob :=
  match (files.node? root).bind (FileNode.at? names) with
  | some (.file content) => some content
  | _ => none

namespace Resolver

open ServiceHost.Path

/-- The file under a root for a dotted name. Segments that are no plain file names have none. -/
def codeFile (files : Files) (root name : String) : Option Blob :=
  let segments := Text.splitOn '.' name.toList
  if segments.all isSegment && !name.toList.contains nul then
    files.contentBelow root ((segmentNames segments).map String.ofList)
  else none

section Text

variable {c : Char} {base tail : List Char}

theorem mem_join (relative : tail.head? ≠ some '/') (apart : c ≠ '/') :
    c ∈ join base tail ↔ c ∈ base ∨ c ∈ tail := by
  rw [join_of_relative base relative]
  split <;> simp [apart]

theorem suffix_join (relative : tail.head? ≠ some '/') : tail <:+ join base tail := by
  rw [join_of_relative base relative]
  split
  · exact List.suffix_append ..
  · exact (List.suffix_cons ..).trans (List.suffix_append ..)

theorem not_mem_extension : nul ∉ ".svc".toList := by decide

theorem head?_ne_slash {segment : List Char} (plain : segment ≠ [] ∧ '/' ∉ segment) :
    segment.head? ≠ some '/' :=
  fun slash => plain.2 (List.mem_of_mem_head? slash)

/-- What matters of the text of a path for the segments of a name: it is a file's, and holds the
forbidden character only if the root or the name does. -/
theorem codePathFrom_text {segments : List (List Char)} (nonempty : segments ≠ [])
    {start path : List Char} (h : codePathFrom start segments = some path) :
    (nul ∈ path ↔ nul ∈ start ∨ ∃ segment ∈ segments, nul ∈ segment) ∧
      ".svc".toList <:+ path := by
  induction segments generalizing start with
  | nil => exact absurd rfl nonempty
  | cons segment rest ih =>
    cases rest with
    | nil =>
      simp only [codePathFrom, Option.ite_none_right_eq_some, isSegment_iff, Option.some.injEq] at h
      obtain ⟨plain, rfl⟩ := h
      have relative : (segment ++ ".svc".toList).head? ≠ some '/' :=
        head?_ne_slash ⟨by simp, by simpa using plain.2⟩
      constructor
      · rw [mem_join relative (by decide)]
        simp only [List.mem_append, not_mem_extension, or_false, List.mem_singleton,
          exists_eq_left]
      · exact (List.suffix_append ..).trans (suffix_join relative)
    | cons next others =>
      simp only [codePathFrom, Option.ite_none_right_eq_some, isSegment_iff] at h
      obtain ⟨plain, h⟩ := h
      obtain ⟨held, ending⟩ := ih (by simp) h
      refine ⟨?_, ending⟩
      rw [held, mem_join (head?_ne_slash plain) (by decide)]
      simp [or_assoc]

theorem mustBeDirectory_of_extension {path : List Char} (ending : ".svc".toList <:+ path) :
    Files.mustBeDirectory path = false := by
  obtain ⟨front, rfl⟩ := ending
  simp [Files.mustBeDirectory]

end Text

theorem codePath_eq_none_iff (root name : String) :
    codePath root name = none ↔ (Text.splitOn '.' name.toList).all isSegment = false := by
  have plain : (Text.splitOn '.' name.toList).all isSegment = true ↔
      ∀ segment ∈ Text.splitOn '.' name.toList, segment ≠ [] ∧ '/' ∉ segment := by
    simp only [List.all_eq_true, isSegment_iff]
  rw [(codePath_guarded root name).refused, ← Bool.not_eq_true, plain]
  simp [Dotted]

/-- The path that a lookup consults leads to the code file of the name. -/
theorem read_codePath (files : Files) {root : String} (given : root ≠ "") (name : String) :
    ((codePath root name).bind fun path => (files.read path).toOption) =
      codeFile files root name := by
  cases made : codePath root name with
  | none => simp [codeFile, (codePath_eq_none_iff root name).mp made]
  | some path =>
    have plain : (Text.splitOn '.' name.toList).all isSegment = true := by
      rw [← Bool.not_eq_false, ← codePath_eq_none_iff root, made]
      simp
    obtain ⟨text, formed, rfl⟩ := Option.map_eq_some_iff.mp made
    obtain ⟨names, ⟨-, rfl⟩, below⟩ := below_of_codePath made
    obtain ⟨held, ending⟩ := codePathFrom_text (Text.splitOn_ne_nil _ _) formed
    rw [Text.exists_mem_splitOn (by decide)] at held
    have fits : ∀ node, Files.misfits text (some node) = false := by
      intro node
      cases node
      · exact mustBeDirectory_of_extension ending
      · rfl
    rw [Option.bind_some, Files.read_toOption, Files.node?_eq, Files.resolve_below files below given]
    simp only [codeFile, plain, Bool.true_and, Files.contentBelow, Files.node?_eq, fits,
      Bool.or_false, String.toList_ofList]
    cases led : (files.resolve root).toOption with
    | none => simp
    | some home =>
      have clean : nul ∉ root.toList := by
        intro inside
        rw [Files.resolve_toOption] at led
        simp [show Char.ofNat 0 ∈ root.toList from inside] at led
      have same : text.contains (Char.ofNat 0) = name.toList.contains nul := by
        rw [Bool.eq_iff_iff, List.contains_iff_mem, List.contains_iff_mem]
        exact held.trans (by simp [clean])
      rw [same, Option.bind_some, Option.bind_some]
      cases found : (files.root.at? home).bind
          (FileNode.at? ((segmentNames (Text.splitOn '.' name.toList)).map String.ofList)) with
      | none => simp
      | some node =>
        cases name.toList.contains nul with
        | true => rfl
        | false => cases node <;> simp [FileNode.at?_append, found]

end Resolver

end ServiceHost
