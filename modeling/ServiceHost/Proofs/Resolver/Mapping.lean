import ServiceHost.Proofs.Resolver.Containment

/-! Which dotted names have a path, which path that is, and that no other name has it.

The path is told twice: by its text, and by its steps. Two texts with the same steps are
one path, so it is the steps from which a name can be read back. -/

set_option autoImplicit false

namespace ServiceHost

namespace Path

/-- The text of a path with all that has to stand before a name behind it. -/
def ground (base : List Char) : List Char :=
  if base = [] || base.getLast? = some '/' then base else base ++ ['/']

theorem join_eq (base : List Char) {tail : List Char} (relative : tail.head? ≠ some '/') :
    join base tail = ground base ++ tail := by
  rw [join_of_relative base relative, ground]
  split <;> simp

/-- A name that stands behind a path needs a slash for what comes next. -/
theorem ground_append (base : List Char) {name : List Char} (nonempty : name ≠ [])
    (plain : '/' ∉ name) : ground (base ++ name) = base ++ name ++ ['/'] := by
  have last : name.getLast? ≠ some '/' := fun slash => plain (List.mem_of_getLast? slash)
  simp [ground, nonempty, List.getLast?_append_of_ne_nil base nonempty, last]

end Path

namespace Resolver

open ServiceHost.Path

/-- The text of the path that leads from a root down by names. -/
def textBelow (root : List Char) (names : List (List Char)) : List Char :=
  ground root ++ ['/'].intercalate names

theorem segmentNames_ne_nil {segments : List (List Char)} (nonempty : segments ≠ []) :
    segmentNames segments ≠ [] := by
  fun_cases segmentNames segments <;> simp at nonempty ⊢

theorem segmentNames_cons (segment : List Char) {rest : List (List Char)} (nonempty : rest ≠ []) :
    segmentNames (segment :: rest) = segment :: segmentNames rest := by
  cases rest with
  | nil => exact absurd rfl nonempty
  | cons next others => rfl

theorem segmentNames_inj {segments others : List (List Char)}
    (same : segmentNames segments = segmentNames others) : segments = others := by
  fun_induction segmentNames segments generalizing others with
  | case1 =>
    by_contra apart
    exact segmentNames_ne_nil (Ne.symm apart) same.symm
  | case2 last =>
    match others with
    | [] => simp [segmentNames] at same
    | [other] => simpa [segmentNames] using same
    | other :: next :: more =>
      have empty := (List.cons.inj same).2
      exact absurd empty.symm (segmentNames_ne_nil (by simp))
  | case3 segment rest several ih =>
    match others with
    | [] => simp [segmentNames] at same
    | [other] =>
      have empty := (List.cons.inj same).2
      exact absurd empty (segmentNames_ne_nil several)
    | other :: next :: more =>
      obtain ⟨head, tail⟩ := List.cons.inj same
      rw [head, ih tail]

/-- The path of segments: there is one if each of them is plain, and it goes down by their names. -/
theorem codePathFrom_eq_some_iff {segments : List (List Char)} (nonempty : segments ≠ [])
    (start path : List Char) :
    codePathFrom start segments = some path ↔
      (∀ segment ∈ segments, segment ≠ [] ∧ '/' ∉ segment) ∧
        path = textBelow start (segmentNames segments) := by
  induction segments generalizing start with
  | nil => exact absurd rfl nonempty
  | cons segment rest ih =>
    have relative : ∀ tail, segment ≠ [] ∧ '/' ∉ segment → (segment ++ tail).head? ≠ some '/' := by
      rintro tail ⟨solid, plain⟩ slash
      rw [List.head?_append_of_ne_nil _ solid] at slash
      exact plain (List.mem_of_mem_head? slash)
    cases rest with
    | nil =>
      simp only [codePathFrom, Option.ite_none_right_eq_some, isSegment_iff, Option.some.injEq,
        List.forall_mem_singleton]
      refine and_congr_right fun plain => ?_
      rw [join_eq start (relative _ plain), eq_comm]
      simp [textBelow, segmentNames]
    | cons next others =>
      simp only [codePathFrom, Option.ite_none_right_eq_some, isSegment_iff]
      rw [ih (by simp), List.forall_mem_cons (l := next :: others), and_assoc (a := _ ∧ _)]
      refine and_congr_right fun plain => and_congr_right fun _ => ?_
      -- The slash behind this segment is what the text of the others starts after.
      have first : ground (join start segment) = ground start ++ segment ++ ['/'] := by
        rw [join_eq start (by simpa using relative [] plain), ground_append _ plain.1 plain.2]
      obtain ⟨name, more, names⟩ :=
        List.exists_cons_of_ne_nil (segmentNames_ne_nil (List.cons_ne_nil next others))
      rw [segmentNames_cons segment (by simp), textBelow, textBelow, first, names,
        List.intercalate_cons_cons]
      simp only [List.append_assoc]

/-- A segment without dots is plain if, read as a path, it makes one step: the name that it is. -/
theorem steps_segment_iff {segment : List Char} (dotless : '.' ∉ segment) :
    steps segment = [.name segment] ↔ segment ≠ [] ∧ '/' ∉ segment := by
  constructor
  · intro one
    have name : IsName segment := @isName_of_mem_steps segment segment (by simp [one])
    exact ⟨name.ne_nil, name.slash⟩
  · exact fun plain => steps_of_isName (isName_of_segment plain dotless)

theorem dotless_of_mem {name segment : List Char} (member : segment ∈ Text.splitOn '.' name) :
    '.' ∉ segment :=
  fun inside => Text.ne_of_mem_splitOn '.' name segment member _ inside rfl

theorem codePath_eq_some_iff (root name path : String) :
    codePath root name = some path ↔
      ∃ names, Dotted name names ∧ path.toList = textBelow root.toList names := by
  simp only [codePath, Option.map_eq_some_iff, Dotted,
    codePathFrom_eq_some_iff (Text.splitOn_ne_nil _ _)]
  constructor
  · rintro ⟨text, ⟨plain, rfl⟩, rfl⟩
    exact ⟨_, ⟨plain, rfl⟩, String.toList_ofList⟩
  · rintro ⟨names, ⟨plain, rfl⟩, same⟩
    exact ⟨_, ⟨plain, rfl⟩, by rw [← same, String.ofList_toList]⟩

/-- The names of a path tell its name: the segments are read back from them, and the name from the
segments. -/
theorem Dotted.name_eq {name other : String} {names : List (List Char)} (dotted : Dotted name names)
    (also : Dotted other names) : name = other := by
  have same : Text.splitOn '.' name.toList = Text.splitOn '.' other.toList :=
    segmentNames_inj (dotted.2.symm.trans also.2)
  have whole := congrArg (['.'].intercalate ·) same
  simp only [Text.intercalate_splitOn] at whole
  exact String.toList_inj.mp whole

/-- For every root: a name has a path if and only if its segments between the dots are not empty and
have no slash, which is to say that each of them, read as a path, is one name and nothing else; the
path is the root with the segments behind it in their order, the last with the extension, as a text
and step by step; and names with the same path, however it is written, are the same. -/
theorem codePath_exact (root : String) :
    (∀ name, (codePath root name).isSome ↔
      ∀ segment ∈ Text.splitOn '.' name.toList, segment ≠ [] ∧ '/' ∉ segment) ∧
    (∀ name, (codePath root name).isSome ↔
      ∀ segment ∈ Text.splitOn '.' name.toList, steps segment = [.name segment]) ∧
    (∀ name, ∀ path ∈ codePath root name,
      let names := segmentNames (Text.splitOn '.' name.toList)
      path.toList = textBelow root.toList names ∧
        steps path.toList = steps root.toList ++ names.map .name) ∧
    ∀ name other, ∀ path ∈ codePath root name, ∀ twin ∈ codePath root other,
      steps path.toList = steps twin.toList → name = other := by
  have accepted : ∀ name, (codePath root name).isSome ↔
      ∀ segment ∈ Text.splitOn '.' name.toList, segment ≠ [] ∧ '/' ∉ segment := by
    intro name
    rw [Option.isSome_iff_exists]
    constructor
    · rintro ⟨path, made⟩
      obtain ⟨names, dotted, -⟩ := (codePath_eq_some_iff root name path).mp made
      exact dotted.1
    · intro plain
      exact ⟨_, (codePath_eq_some_iff root name _).mpr ⟨_, ⟨plain, rfl⟩, String.toList_ofList⟩⟩
  have leads : ∀ name, ∀ path ∈ codePath root name, ∃ names, Dotted name names ∧
      steps path.toList = steps root.toList ++ names.map .name := by
    intro name path made
    obtain ⟨names, dotted, below⟩ := below_of_codePath made
    exact ⟨names, dotted, below.steps⟩
  refine ⟨accepted, fun name => ?plain, fun name path made => ?path,
    fun name other path made twin also same => ?back⟩
  case plain =>
    rw [accepted]
    exact forall₂_congr fun segment member => (steps_segment_iff (dotless_of_mem member)).symm
  case path =>
    obtain ⟨_, ⟨-, rfl⟩, text⟩ := (codePath_eq_some_iff root name path).mp made
    obtain ⟨_, ⟨-, rfl⟩, led⟩ := leads name path made
    exact ⟨text, led⟩
  case back =>
    obtain ⟨names, dotted, led⟩ := leads name path made
    obtain ⟨others, also, there⟩ := leads other twin also
    rw [led, there, List.append_cancel_left_eq] at same
    have step_inj : Function.Injective Step.name := fun _ _ => Step.name.inj
    exact dotted.name_eq (List.map_injective_iff.mpr step_inj same ▸ also)

/-- A root that ends in a slash is not given another. -/
example : codePath "/srv/" "billing.Ledger" = some "/srv/billing/Ledger.svc" := by decide +kernel

end Resolver

end ServiceHost
