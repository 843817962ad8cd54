import ServiceHost.Files.Tree
import ServiceHost.Proofs.Text.Splitting

/-! Paths that go down from a directory: the steps that they make, and what they lead to. -/

set_option autoImplicit false

namespace ServiceHost

namespace Path

/-- One name of a path: it stays where it is led to and goes neither up nor further down. -/
structure IsName (name : List Char) : Prop where
  ne_nil : name ≠ []
  ne_here : name ≠ ['.']
  ne_up : name ≠ ['.', '.']
  slash : '/' ∉ name

def pieces (text : List Char) : List Step := (Text.splitOn '/' text).filterMap step?

theorem pieces_append (front tail : List Char) :
    pieces (front ++ '/' :: tail) = pieces front ++ pieces tail := by
  simp [pieces, Text.splitOn_append]

theorem IsName.step? {name : List Char} (h : IsName name) : step? name = some (.name name) := by
  simp [Path.step?, h.ne_nil, h.ne_here, h.ne_up]

/-- The steps of a path that does not start with a slash, from its pieces. -/
def lead : List (List Char) → List Step
  | ['.'] :: rest => .here :: rest.filterMap step?
  | all => all.filterMap step?

theorem lead_append {front : List (List Char)} (h : front ≠ []) (tail : List (List Char)) :
    lead (front ++ tail) = lead front ++ tail.filterMap step? := by
  cases front with
  | nil => exact absurd rfl h
  | cons first rest =>
    by_cases here : first = ['.']
    · simp [lead, here]
    · simp [lead, here, List.filterMap_append, List.filterMap_cons]
      split <;> simp

theorem steps_absolute (rest : List Char) : steps ('/' :: rest) = .root :: pieces rest := rfl

theorem steps_relative {path : List Char} (h : path.head? ≠ some '/') :
    steps path = lead (Text.splitOn '/' path) := by
  unfold steps
  split
  · rfl
  · simp at h
  · unfold lead
    rfl

/-- What stands before a slash makes the same steps as without it, save that nothing before the slash
is the root. -/
theorem steps_append {front : List Char} (h : front ≠ []) (tail : List Char) :
    steps (front ++ '/' :: tail) = steps front ++ pieces tail := by
  obtain ⟨c, rest, rfl⟩ := List.exists_cons_of_ne_nil h
  by_cases slash : c = '/'
  · subst slash
    simp [steps_absolute, pieces_append]
  · rw [steps_relative (by simpa using slash), steps_relative (by simpa using slash),
      Text.splitOn_append, lead_append (Text.splitOn_ne_nil _ _)]
    rfl

theorem head?_ne_of_names {tail : List Char} {names : List (List Char)}
    (h : steps tail = names.map .name) : tail.head? ≠ some '/' := by
  intro slash
  obtain ⟨rest, rfl⟩ := List.head?_eq_some_iff.mp slash
  cases names <;> simp [steps_absolute] at h

/-- A path that makes no step but names makes them also behind another path. -/
theorem pieces_of_names {tail : List Char} {names : List (List Char)}
    (h : steps tail = names.map .name) : pieces tail = names.map .name := by
  rw [steps_relative (head?_ne_of_names h)] at h
  unfold lead at h
  split at h
  · cases names <;> simp at h
  · exact h

theorem join_of_relative {tail : List Char} (base : List Char) (h : tail.head? ≠ some '/') :
    join base tail =
      if base = [] || base.getLast? = some '/' then base ++ tail else base ++ '/' :: tail := by
  unfold join
  split
  · simp at h
  · rfl

theorem steps_join (base : List Char) {tail : List Char} {names : List (List Char)}
    (h : steps tail = names.map .name) :
    steps (join base tail) = steps base ++ names.map .name := by
  rw [join_of_relative base (head?_ne_of_names h)]
  by_cases empty : base = []
  · subst empty
    exact h
  by_cases slash : base.getLast? = some '/'
  · obtain ⟨front, rfl⟩ := List.getLast?_eq_some_iff.mp slash
    have bare : pieces [] = [] := rfl
    by_cases alone : front = []
    · simp [alone, steps_absolute, pieces_of_names h, bare]
    · simp [steps_append alone, pieces_of_names h, bare]
  · simp [empty, slash, steps_append empty, pieces_of_names h]

theorem prefix_join (base : List Char) {tail : List Char} {names : List (List Char)}
    (h : steps tail = names.map .name) : base <+: join base tail := by
  rw [join_of_relative base (head?_ne_of_names h)]
  split <;> simp

theorem isName_of_mem_steps {path name : List Char} (h : Step.name name ∈ steps path) :
    IsName name := by
  have ofPieces : ∀ text : List Char, Step.name name ∈ pieces text → IsName name := by
    intro text member
    obtain ⟨piece, held, made⟩ := List.mem_filterMap.mp member
    have plain := Text.ne_of_mem_splitOn '/' text piece held
    unfold step? at made
    split at made
    · simp at made
    · split at made
      · simp at made
      · cases made
        case _ apart up =>
          simp only [Bool.or_eq_true, decide_eq_true_eq, not_or] at apart
          exact ⟨apart.1, apart.2, up, fun inside => plain _ inside rfl⟩
  by_cases slash : path.head? = some '/'
  · obtain ⟨rest, rfl⟩ := List.head?_eq_some_iff.mp slash
    exact ofPieces rest (by simpa [steps_absolute] using h)
  · rw [steps_relative slash] at h
    unfold lead at h
    split at h
    case _ rest split =>
      apply ofPieces path
      simp only [List.mem_cons, reduceCtorEq, false_or] at h
      obtain ⟨piece, held, made⟩ := List.mem_filterMap.mp h
      exact List.mem_filterMap.mpr ⟨piece, by simp [split, held], made⟩
    · exact ofPieces path h

theorem exists_names {own : Step → Bool} (h : ∀ step, own step = true ↔ ∃ name, step = .name name)
    (found : List Step) :
    found.all own = true ↔ ∃ names : List (List Char), found = names.map .name := by
  induction found with
  | nil => simp
  | cons step rest ih =>
    simp only [List.all_cons, Bool.and_eq_true, ih, h]
    constructor
    · rintro ⟨⟨name, rfl⟩, names, rfl⟩
      exact ⟨name :: names, rfl⟩
    · rintro ⟨_ | ⟨name, names⟩, same⟩
      · simp at same
      · cases same
        exact ⟨⟨name, rfl⟩, names, rfl⟩

theorem isInner_iff (path : List Char) :
    isInner path = true ↔ ∃ names : List (List Char), names ≠ [] ∧ steps path = names.map .name := by
  unfold isInner
  split
  case _ still => simp [still, eq_comm]
  case _ moves =>
    rw [exists_names (by intro step; cases step <;> simp)]
    constructor
    · rintro ⟨names, same⟩
      refine ⟨names, ?_, same⟩
      rintro rfl
      exact moves same
    · rintro ⟨names, -, same⟩
      exact ⟨names, same⟩

/-- A path that leads down from the root of a search, by names only and at least one. -/
structure Below (root path : List Char) (names : List (List Char)) : Prop where
  down : names ≠ []
  named : ∀ name ∈ names, IsName name
  steps : steps path = Path.steps root ++ names.map .name
  text : root <+: path

theorem Below.join (root : List Char) {tail : List Char} {names : List (List Char)}
    (down : names ≠ []) (h : Path.steps tail = names.map .name) :
    Below root (Path.join root tail) names where
  down := down
  named := fun name member =>
    @isName_of_mem_steps tail name (by simpa [h] using member)
  steps := steps_join root h
  text := prefix_join root h

theorem Below.trans {root middle path : List Char} {front back : List (List Char)}
    (first : Below root middle front) (second : Below middle path back) :
    Below root path (front ++ back) where
  down := by simp [first.down]
  named := fun name member =>
    (List.mem_append.mp member).elim (first.named name) (second.named name)
  steps := by rw [second.steps, first.steps, List.map_append, List.append_assoc]
  text := first.text.trans second.text

end Path

namespace FileNode

theorem at?_append (front back : List String) (node : FileNode) :
    at? (front ++ back) node = (at? front node).bind (at? back) := by
  induction front generalizing node with
  | nil => simp [at?]
  | cons name rest ih =>
    cases node with
    | file content => simp [at?]
    | directory entries => cases found : child? name entries <;> simp [at?, found, ih]

end FileNode

namespace Files

open ServiceHost.Path

/-- Names lead from a place that there is to what the tree holds below it. -/
theorem go_names (files : Files) {home : List String} {names : List (List Char)}
    (there : (files.root.at? home).isSome) :
    ((names.map Step.name).foldlM files.go home).toOption =
      (files.root.at? (home ++ names.map String.ofList)).map
        fun _ => home ++ names.map String.ofList := by
  induction names generalizing home with
  | nil =>
    obtain ⟨node, found⟩ := Option.isSome_iff_exists.mp there
    simp [found]
    rfl
  | cons name rest ih =>
    obtain ⟨node, found⟩ := Option.isSome_iff_exists.mp there
    cases node with
    | file content => simp [go, found, FileNode.at?_append, FileNode.at?, bind, Except.bind]; rfl
    | directory entries =>
      cases child : FileNode.child? (String.ofList name) entries with
      | none =>
        simp [go, found, child, FileNode.at?_append, FileNode.at?, bind, Except.bind]; rfl
      | some node =>
        have step : files.go home (.name name) = .ok (home ++ [String.ofList name]) := by
          simp [go, found, child]
        have next : (files.root.at? (home ++ [String.ofList name])).isSome := by
          simp [FileNode.at?_append, found, FileNode.at?, child]
        simp only [List.map_cons, List.foldlM_cons, step, bind, Except.bind]
        rw [ih next]
        simp

/-- The same from any place, if there is a name at all: where nothing is, nothing is below. -/
theorem go_down (files : Files) (home : List String) {names : List (List Char)}
    (down : names ≠ []) :
    ((names.map Step.name).foldlM files.go home).toOption =
      (files.root.at? (home ++ names.map String.ofList)).map
        fun _ => home ++ names.map String.ofList := by
  cases there : files.root.at? home with
  | some node => exact go_names files (by simp [there])
  | none =>
    obtain ⟨name, rest, rfl⟩ := List.exists_cons_of_ne_nil down
    simp [go, there, FileNode.at?_append, bind, Except.bind]
    rfl

/-- Whether what a path leads to is a file though a slash at the path's end asks for a directory. -/
def misfits (path : List Char) : Option FileNode → Bool
  | some (.file _) => mustBeDirectory path
  | _ => false

theorem resolve_toOption (files : Files) (path : String) :
    (files.resolve path).toOption =
      if path.toList.contains (Char.ofNat 0) || path.toList.isEmpty then none
      else ((steps path.toList).foldlM files.go files.working).toOption.filter fun names =>
        !(misfits path.toList (files.root.at? names)) := by
  unfold resolve
  dsimp only
  cases nul : path.toList.contains (Char.ofNat 0) with
  | true => rfl
  | false =>
    cases empty : path.toList.isEmpty with
    | true => rfl
    | false =>
      cases (steps path.toList).foldlM files.go files.working with
      | error cause => rfl
      | ok names =>
        have led : ((Except.ok names : Except FileError (List String))).toOption = some names := rfl
        simp only [Bool.or_self, Bool.false_eq_true, if_false, led, Option.filter_some, bind,
          Except.bind]
        cases slash : mustBeDirectory path.toList
        all_goals
          cases files.root.at? names with
          | none => simp [misfits]; rfl
          | some node => cases node <;> simp [slash, misfits] <;> rfl

/-- A path below a directory leads to what the tree holds under the names, and nowhere else. -/
theorem resolve_below (files : Files) {root path : String} {names : List (List Char)}
    (below : Below root.toList path.toList names) (given : root ≠ "") :
    (files.resolve path).toOption = (files.resolve root).toOption.bind fun home =>
      ((files.root.at? home).bind (FileNode.at? (names.map String.ofList))).bind fun node =>
        if path.toList.contains (Char.ofNat 0) || misfits path.toList (some node) then none
        else some (home ++ names.map String.ofList) := by
  have rootGiven : root.toList.isEmpty = false := by simpa using given
  have pathGiven : path.toList.isEmpty = false := by
    rw [List.isEmpty_eq_false_iff] at rootGiven ⊢
    exact fun empty => rootGiven (List.prefix_nil.mp (empty ▸ below.text))
  rw [resolve_toOption, resolve_toOption, rootGiven, pathGiven]
  cases nulPath : path.toList.contains (Char.ofNat 0) with
  | true => simp
  | false =>
    -- A text that starts with the root has its characters.
    have nulRoot : root.toList.contains (Char.ofNat 0) = false := by
      simp only [List.contains_eq_mem, decide_eq_false_iff_not] at nulPath ⊢
      exact fun member => nulPath (below.text.subset member)
    simp only [nulRoot, Bool.or_self, Bool.false_eq_true, if_false, below.steps,
      List.foldlM_append, Bool.false_or]
    cases (Path.steps root.toList).foldlM files.go files.working with
    | error cause => rfl
    | ok home =>
      have start : (Except.ok home : Except FileError (List String)).toOption = some home := rfl
      have onward : ((Except.ok home : Except FileError (List String)) >>= fun home =>
          (names.map Step.name).foldlM files.go home) =
          (names.map Step.name).foldlM files.go home := rfl
      rw [onward, go_down files home below.down, FileNode.at?_append, start, Option.filter_some]
      cases found : files.root.at? home with
      | none => split <;> simp [found]
      | some node =>
        obtain ⟨name, rest, rfl⟩ := List.exists_cons_of_ne_nil below.down
        cases node with
        | file content => split <;> simp [found, FileNode.at?]
        | directory entries =>
          have fits : misfits root.toList (some (.directory entries)) = false := rfl
          simp only [fits, Bool.not_false, if_true, Option.bind_some, found]
          cases lower : FileNode.at? ((name :: rest).map String.ofList) (.directory entries) with
          | none => rfl
          | some node =>
            simp only [Option.map_some, Option.filter_some, FileNode.at?_append, found,
              Option.bind_some, lower]
            cases misfits path.toList (some node) <;> rfl

theorem resolve_eq_of_toOption {files : Files} {path : String} {place : List String}
    (h : (files.resolve path).toOption = some place) : files.resolve path = .ok place := by
  cases resolved : files.resolve path with
  | error cause => simp [resolved, Except.toOption] at h
  | ok names => simpa [resolved, Except.toOption] using h

theorem node?_eq (files : Files) (path : String) :
    files.node? path = (files.resolve path).toOption.bind fun names => files.root.at? names := by
  unfold node?
  cases files.resolve path <;> rfl

theorem exists_of_node? {files : Files} {path : String} {node : FileNode}
    (h : files.node? path = some node) :
    ∃ place, files.resolve path = .ok place ∧ files.root.at? place = some node := by
  rw [node?_eq] at h
  obtain ⟨place, resolved, found⟩ := Option.bind_eq_some_iff.mp h
  exact ⟨place, resolve_eq_of_toOption resolved, found⟩

/-- A directory has a path that is not empty. -/
theorem ne_empty_of_isDirectory {files : Files} {root : String}
    (h : files.isDirectory root = true) : root ≠ "" := by
  rintro rfl
  have nowhere : files.node? "" = none := rfl
  simp [isDirectory, nowhere] at h

theorem read_toOption (files : Files) (path : String) :
    (files.read path).toOption = (files.node? path).bind fun node =>
      match node with
      | .file content => some content
      | .directory _ => none := by
  rw [node?_eq]
  unfold read
  cases files.resolve path with
  | error cause => rfl
  | ok names =>
    simp only [bind, Except.bind, Except.toOption, Option.bind_some]
    cases files.root.at? names with
    | none => rfl
    | some node => cases node <;> rfl

/-- What a path below a root leads to lies under the root's own place, by the names of the path. -/
theorem exists_of_resolve {files : Files} {root path : String} {names : List (List Char)}
    {position : List String} (below : Below root.toList path.toList names) (given : root ≠ "")
    (h : (files.resolve path).toOption = some position) :
    ∃ home node, files.resolve root = .ok home ∧ position = home ++ names.map String.ofList ∧
      files.root.at? position = some node := by
  rw [resolve_below files below given] at h
  obtain ⟨home, led, h⟩ := Option.bind_eq_some_iff.mp h
  obtain ⟨node, found, h⟩ := Option.bind_eq_some_iff.mp h
  split at h
  · simp at h
  · cases h
    exact ⟨home, node, resolve_eq_of_toOption led, rfl, by rw [FileNode.at?_append, found]⟩

/-- Two trees that hold the same under a root, at the same place. -/
structure SameUnder (root : String) (files other : Files) : Prop where
  place : (files.resolve root).toOption = (other.resolve root).toOption
  held : files.node? root = other.node? root

variable {files other : Files} {root path : String} {names : List (List Char)}

theorem SameUnder.resolve (same : SameUnder root files other)
    (below : Below root.toList path.toList names) (given : root ≠ "") :
    (files.resolve path).toOption = (other.resolve path).toOption := by
  rw [resolve_below files below given, resolve_below other below given, ← same.place]
  have held := same.held
  rw [node?_eq, node?_eq, ← same.place] at held
  cases led : (files.resolve root).toOption with
  | none => rfl
  | some home =>
    simp only [led, Option.bind_some] at held ⊢
    rw [held]

theorem SameUnder.node? (same : SameUnder root files other)
    (below : Below root.toList path.toList names) (given : root ≠ "") :
    files.node? path = other.node? path := by
  have held := same.held
  rw [node?_eq, node?_eq, ← same.place] at held
  rw [node?_eq, node?_eq, ← same.resolve below given]
  cases led : (files.resolve path).toOption with
  | none => rfl
  | some position =>
    obtain ⟨home, _, resolved, rfl, -⟩ := exists_of_resolve below given led
    simp only [resolved, Except.toOption, Option.bind_some] at held
    simp only [Option.bind_some, FileNode.at?_append, held]

theorem SameUnder.read (same : SameUnder root files other)
    (below : Below root.toList path.toList names) (given : root ≠ "") :
    (files.read path).toOption = (other.read path).toOption := by
  rw [read_toOption, read_toOption, same.node? below given]

theorem SameUnder.present (same : SameUnder root files other)
    (below : Below root.toList path.toList names) (given : root ≠ "") :
    files.present path = other.present path := by
  rw [Files.present, Files.present, same.node? below given]

end Files

end ServiceHost
