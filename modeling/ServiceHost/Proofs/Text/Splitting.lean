import Mathlib.Data.List.Forall2
import Mathlib.Data.List.TakeWhile
import ServiceHost.Text.Blank

/-! What splitting does to texts that are put together: at a separator, at line ends, and
at blanks; and what trimming leaves. -/

set_option autoImplicit false

namespace ServiceHost.Text

variable {separator c : Char} {text : List Char}

theorem push_append (c : Char) {pieces : List (List Char)} (h : pieces ≠ [])
    (others : List (List Char)) : push c (pieces ++ others) = push c pieces ++ others := by
  cases pieces with
  | nil => exact absurd rfl h
  | cons piece rest => rfl

theorem splitOn_append (separator : Char) (front tail : List Char) :
    splitOn separator (front ++ separator :: tail) =
      splitOn separator front ++ splitOn separator tail := by
  induction front with
  | nil => simp [splitOn]
  | cons c rest ih =>
    by_cases h : c = separator
    · simp [splitOn, h, ih]
    · simp [splitOn, h, ih, push_append c (splitOn_ne_nil separator rest)]

theorem splitOn_of_notMem (h : separator ∉ text) : splitOn separator text = [text] := by
  induction text with
  | nil => rfl
  | cons c rest ih =>
    have other : c ≠ separator := by rintro rfl; simp at h
    simp [splitOn, other, ih (by simp_all), push]

/-- There is one piece more than there are separators. -/
theorem length_splitOn (separator : Char) (text : List Char) :
    (splitOn separator text).length = text.count separator + 1 := by
  induction text with
  | nil => rfl
  | cons c rest ih =>
    by_cases same : c = separator
    · simp [splitOn, same, ih]
    · obtain ⟨first, others, split⟩ := List.exists_cons_of_ne_nil (splitOn_ne_nil separator rest)
      rw [split] at ih
      simpa [splitOn, same, split, push] using ih

/-- The pieces of a text have its characters, save the separator. -/
theorem exists_mem_splitOn (apart : c ≠ separator) (text : List Char) :
    (∃ piece ∈ splitOn separator text, c ∈ piece) ↔ c ∈ text := by
  have pushed : ∀ (d : Char) (pieces : List (List Char)),
      (∃ piece ∈ push d pieces, c ∈ piece) ↔ c = d ∨ ∃ piece ∈ pieces, c ∈ piece := by
    intro d pieces
    cases pieces <;> simp [push, or_assoc]
  induction text with
  | nil => simp [splitOn]
  | cons d rest ih =>
    by_cases same : d = separator
    · simp [splitOn, same, apart, ih]
    · simp [splitOn, same, pushed, ih]

/-! ## Cutting -/

section
variable {class_ : Char → Bool} {before after : List Char}

theorem cut_append (solid : ∀ d ∈ before, class_ d = false) (inClass : class_ c = true)
    (after : List Char) : cut class_ (before ++ c :: after) = some (before, after) := by
  induction before with
  | nil => simp [cut, inClass]
  | cons d rest ih =>
    obtain ⟨own, solid⟩ := List.forall_mem_cons.mp solid
    simp [cut, own, ih solid]

theorem cut_eq_none (solid : ∀ d ∈ text, class_ d = false) : cut class_ text = none := by
  induction text with
  | nil => rfl
  | cons d rest ih =>
    obtain ⟨own, solid⟩ := List.forall_mem_cons.mp solid
    simp [cut, own, ih solid]

theorem cut_separator (absent : separator ∉ before) (after : List Char) :
    cut (· == separator) (before ++ separator :: after) = some (before, after) := by
  refine cut_append (fun d member => ?_) (by simp) after
  have apart : d ≠ separator := fun equal => absent (equal ▸ member)
  simpa using apart

/-- What stands before the first separator can be read back. -/
theorem front_injective {first second rest tail : List Char} (plain : separator ∉ first)
    (solid : separator ∉ second)
    (same : first ++ separator :: rest = second ++ separator :: tail) : first = second := by
  have halves := cut_separator plain rest
  rw [same, cut_separator solid] at halves
  exact (Prod.mk.inj (Option.some.inj halves)).1.symm

/-- A text is cut at the first character of the class. -/
theorem eq_false_of_cut (split : cut class_ text = some (before, after)) :
    ∀ d ∈ before, class_ d = false := by
  induction text generalizing before with
  | nil => cases split
  | cons d rest ih =>
    cases own : class_ d with
    | true =>
      simp only [cut, own, if_true, Option.some.injEq, Prod.mk.injEq] at split
      simp [← split.1]
    | false =>
      simp only [cut, own, Bool.false_eq_true, if_false, Option.map_eq_some_iff, Prod.exists,
        Prod.mk.injEq] at split
      obtain ⟨front, _, found, rfl, rfl⟩ := split
      exact List.forall_mem_cons.mpr ⟨own, ih found⟩

end

/-! ## Words -/

theorem words_of_blank (blank : isBlank c = true) (rest : List Char) :
    words (c :: rest) = words rest := by
  simp [words, blank]

/-- A word goes on up to the next blank. -/
theorem words_of_not_blank (solid : isBlank c = false) (rest : List Char) :
    words (c :: rest) = (c :: rest.takeWhile fun d => !isBlank d) ::
      words (rest.dropWhile fun d => !isBlank d) := by
  induction rest generalizing c with
  | nil => simp [words, solid]
  | cons d more ih =>
    cases blank : isBlank d with
    | true => simp [words, solid, blank]
    | false =>
      rw [words, if_neg (by simp [solid]), if_neg (by simp [blank]), ih blank]
      simp [push, blank]

theorem words_ne_nil (solid : isBlank c = false) (rest : List Char) : words (c :: rest) ≠ [] := by
  simp [words_of_not_blank solid]

/-- No word goes on over a blank. -/
theorem words_append_blank (blank : isBlank c = true) (front tail : List Char) :
    words (front ++ c :: tail) = words front ++ words tail := by
  induction front with
  | nil => rw [List.nil_append, words_of_blank blank, words, List.nil_append]
  | cons d rest ih =>
    have ends : (rest ++ c :: tail).head?.all isBlank = rest.head?.all isBlank := by
      cases rest <;> simp [blank]
    rw [List.cons_append, words, words, ends, ih]
    cases isBlank d with
    | true => rfl
    | false =>
      cases last : rest.head?.all isBlank with
      | true => rfl
      | false =>
        cases rest with
        | nil => cases last
        | cons e more => exact push_append d (words_ne_nil (by simpa using last) more) _

theorem words_append_blanks {front : List Char} (blanks : ∀ d ∈ front, isBlank d = true)
    (tail : List Char) : words (front ++ tail) = words tail := by
  induction front with
  | nil => rfl
  | cons d rest ih =>
    obtain ⟨blank, blanks⟩ := List.forall_mem_cons.mp blanks
    rw [List.cons_append, words_of_blank blank, ih blanks]

theorem mem_of_mem_words {word : List Char} (member : word ∈ words text) {d : Char}
    (inside : d ∈ word) : d ∈ text := by
  have there := List.mem_flatten_of_mem member inside
  rw [flatten_words] at there
  exact (List.mem_filter.mp there).1

theorem words_of_solid {word : List Char} (nonempty : word ≠ [])
    (solid : ∀ d ∈ word, isBlank d = false) : words word = [word] := by
  obtain ⟨d, rest, rfl⟩ := List.exists_cons_of_ne_nil nonempty
  obtain ⟨own, others⟩ := List.forall_mem_cons.mp solid
  have inside : ∀ e ∈ rest, (!isBlank e) = true := fun e member => by simp [others e member]
  rw [words_of_not_blank own, List.takeWhile_eq_self_iff.mpr inside,
    List.dropWhile_eq_nil_iff.mpr inside, words]

/-! ## Lines -/

theorem lines_eq_nil_iff : lines text = [] ↔ text = [] := by
  fun_cases lines text <;> simp [push_ne_nil]

/-- A line starts with a blank, or is at its end, if the rest of the text from there on does. -/
theorem blank_head_of_lines {line : List Char} {others : List (List Char)}
    (split : lines text = line :: others) :
    line.head?.all isBlank = text.head?.all isBlank := by
  fun_cases lines text with
  | case1 => cases split
  | case2 rest =>
    cases split
    rfl
  | case3 rest =>
    cases split
    rfl
  | case4 c rest _ _ =>
    rw [lines.eq_4 _ _ ‹_› ‹_›] at split
    cases found : lines rest with
    | nil | cons =>
      rw [found, push] at split
      cases split
      rfl

/-- The words of the lines are the words of the text. -/
theorem flatMap_words_lines (text : List Char) : (lines text).flatMap words = words text := by
  fun_induction lines text with
  | case1 => rfl
  | case2 rest ih =>
    rw [words_of_blank (by decide), words_of_blank (by decide), List.flatMap_cons, ih]
    rfl
  | case3 rest ih =>
    rw [words_of_blank (by decide), List.flatMap_cons, ih]
    rfl
  | case4 c rest _ _ ih =>
    cases found : lines rest with
    | nil =>
      obtain rfl := lines_eq_nil_iff.mp found
      simp [push]
    | cons line others =>
      rw [found, List.flatMap_cons] at ih
      have ends := blank_head_of_lines found
      rw [push, List.flatMap_cons]
      cases blank : isBlank c with
      | true => rw [words_of_blank blank, words_of_blank blank, ih]
      | false =>
        rw [words, words, ends, ← ih]
        simp only [blank, Bool.false_eq_true, if_false]
        split
        · rfl
        · -- The word goes on in the same line.
          rename_i solid
          cases line with
          | nil => simp [← ends] at solid
          | cons d more =>
            have inner : isBlank d = false := by simpa [← ends] using solid
            rw [push_append c (words_ne_nil inner more)]

/-- The lines are the pieces between the line feeds, but for carriage returns at their ends, and for
the last piece if nothing is in it. -/
theorem exists_pieces_of_lines (text : List Char) :
    ∃ pieces last, splitOn '\n' text = pieces ++ last ∧ (last = [] ∨ last = [[]]) ∧
      List.Forall₂ (fun line piece => piece = line ∨ piece = line ++ ['\r']) (lines text)
        pieces := by
  fun_induction lines text with
  | case1 => exact ⟨[], [[]], rfl, .inr rfl, .nil⟩
  | case2 rest ih =>
    obtain ⟨pieces, last, split, empty, same⟩ := ih
    exact ⟨['\r'] :: pieces, last, by simp [splitOn, split, push], empty, .cons (.inr rfl) same⟩
  | case3 rest ih =>
    obtain ⟨pieces, last, split, empty, same⟩ := ih
    exact ⟨[] :: pieces, last, by simp [splitOn, split], empty, .cons (.inl rfl) same⟩
  | case4 c rest _ other ih =>
    obtain ⟨pieces, last, split, empty, same⟩ := ih
    have other : c ≠ '\n' := other
    cases found : lines rest with
    | nil =>
      obtain rfl := lines_eq_nil_iff.mp found
      exact ⟨[[c]], [], by simp [splitOn, other, push], .inl rfl, .cons (.inl rfl) .nil⟩
    | cons line others =>
      rw [found] at same
      cases same with
      | @cons _ piece _ more first onward =>
        refine ⟨(c :: piece) :: more, last, by simp [splitOn, other, split, push], empty,
          .cons ?_ onward⟩
        rcases first with rfl | rfl
        · exact .inl rfl
        · exact .inr rfl

/-- What is read line by line is read piece by piece, if carriage returns at the ends are passed
over and nothing is read from nothing. -/
theorem filterMap_lines {α : Type} {read : List Char → Option α} (empty : read [] = none)
    (ends : ∀ line, read (line ++ ['\r']) = read line) (text : List Char) :
    (lines text).filterMap read = (splitOn '\n' text).filterMap read := by
  obtain ⟨pieces, last, split, rest, same⟩ := exists_pieces_of_lines text
  have unread : last.filterMap read = [] := by rcases rest with rfl | rfl <;> simp [empty]
  rw [split, List.filterMap_append, unread, List.append_nil]
  clear split
  generalize lines text = lines_ at same
  induction same with
  | nil => rfl
  | @cons line piece _ _ first _ ih =>
    have first : read piece = read line := by
      rcases first with rfl | rfl
      · rfl
      · exact ends line
    rw [List.filterMap_cons, List.filterMap_cons, first, ih]

theorem mem_of_mem_lines (text : List Char) : ∀ line ∈ lines text, ∀ d ∈ line, d ∈ text := by
  fun_induction lines text with
  | case1 => simp
  | case2 rest ih => simpa using fun line member d inside => .inr (.inr (ih line member d inside))
  | case3 rest ih => simpa using fun line member d inside => .inr (ih line member d inside)
  | case4 c rest _ _ ih =>
    exact forall_push List.mem_cons_self fun line member d inside =>
      List.mem_cons_of_mem c (ih line member d inside)

/-! ## Trimming -/

/-- Trimming leaves something if and only if some character is not blank. -/
theorem trim_eq_nil_iff (text : List Char) : trim text = [] ↔ ∀ d ∈ text, isBlank d = true := by
  rw [trim, trimEnd, List.reverse_eq_nil_iff, List.dropWhile_eq_nil_iff]
  simp only [List.mem_reverse]
  constructor
  · intro rest d inside
    have parts : text = text.takeWhile isBlank ++ trimStart text :=
      List.takeWhile_append_dropWhile.symm
    rw [parts] at inside
    rcases List.mem_append.mp inside with front | back
    · exact List.mem_takeWhile_imp front
    · exact rest d back
  · exact fun all d inside => all d ((List.dropWhile_sublist _).subset inside)

theorem dropWhile_isBlank_append {front rest : List Char} (blank : ∀ d ∈ front, isBlank d = true)
    (solid : ∀ d ∈ rest.head?, isBlank d = false) : (front ++ rest).dropWhile isBlank = rest := by
  rw [List.dropWhile_append_of_pos blank]
  cases rest with
  | nil => rfl
  | cons d others => rw [List.dropWhile_cons_of_neg (by simp [solid d rfl])]

/-- Trimming takes the blanks around a text that neither begins nor ends with one. -/
theorem trim_append {front middle back : List Char} (before : ∀ d ∈ front, isBlank d = true)
    (behind : ∀ d ∈ back, isBlank d = true) (first : ∀ d ∈ middle.head?, isBlank d = false)
    (last : ∀ d ∈ middle.getLast?, isBlank d = false) : trim (front ++ middle ++ back) = middle := by
  cases middle with
  | nil =>
    refine (trim_eq_nil_iff _).mpr fun d inside => ?_
    rw [List.append_nil] at inside
    exact (List.mem_append.mp inside).elim (before d) (behind d)
  | cons d others =>
    have start : trimStart (front ++ d :: others ++ back) = d :: others ++ back := by
      rw [List.append_assoc]
      exact dropWhile_isBlank_append before first
    rw [trim, start, trimEnd, List.reverse_append, dropWhile_isBlank_append, List.reverse_reverse]
    · exact fun c inside => behind c (List.mem_reverse.mp inside)
    · rwa [List.head?_reverse]

theorem exists_trim_append (text : List Char) : ∃ front back, text = front ++ trim text ++ back ∧
    (∀ d ∈ front, isBlank d = true) ∧ ∀ d ∈ back, isBlank d = true := by
  refine ⟨text.takeWhile isBlank, ((trimStart text).reverse.takeWhile isBlank).reverse, ?_, ?_, ?_⟩
  · rw [List.append_assoc, trim, trimEnd, ← List.reverse_append,
      List.takeWhile_append_dropWhile, List.reverse_reverse]
    exact List.takeWhile_append_dropWhile.symm
  · exact fun d inside => List.mem_takeWhile_imp inside
  · exact fun d inside => List.mem_takeWhile_imp (List.mem_reverse.mp inside)

theorem exists_trimEnd_append (text : List Char) :
    ∃ back, text = trimEnd text ++ back ∧ ∀ d ∈ back, isBlank d = true := by
  refine ⟨(text.reverse.takeWhile isBlank).reverse, ?_, fun d inside =>
    List.mem_takeWhile_imp (List.mem_reverse.mp inside)⟩
  rw [trimEnd, ← List.reverse_append, List.takeWhile_append_dropWhile, List.reverse_reverse]

theorem getLast?_trimEnd (text : List Char) : ∀ d ∈ (trimEnd text).getLast?, isBlank d = false := by
  intro d last
  rw [trimEnd, List.getLast?_reverse] at last
  have solid := List.head?_dropWhile_not isBlank text.reverse
  rw [Option.mem_def.mp last] at solid
  simpa using solid

theorem getLast?_trim (text : List Char) : ∀ d ∈ (trim text).getLast?, isBlank d = false :=
  getLast?_trimEnd _

theorem head?_trim (text : List Char) : ∀ d ∈ (trim text).head?, isBlank d = false := by
  intro d first
  obtain ⟨back, whole, -⟩ := exists_trimEnd_append (trimStart text)
  have solid := List.head?_dropWhile_not isBlank text
  have same : (trimStart text).head? = some d := by
    rw [whole, List.head?_append, show (trimEnd (trimStart text)).head? = some d from first]
    rfl
  rw [show (text.dropWhile isBlank).head? = some d from same] at solid
  simpa using solid

/-- Blanks around a text do not change what trimming leaves of it. -/
theorem trim_blanks {front back : List Char} (before : ∀ d ∈ front, isBlank d = true)
    (behind : ∀ d ∈ back, isBlank d = true) : trim (front ++ text ++ back) = trim text := by
  obtain ⟨left, right, whole, blankLeft, blankRight⟩ := exists_trim_append text
  have same : front ++ text ++ back = (front ++ left) ++ trim text ++ (right ++ back) := by
    conv_lhs => rw [whole]
    simp only [List.append_assoc]
  rw [same]
  exact trim_append (fun d inside => (List.mem_append.mp inside).elim (before d) (blankLeft d))
    (fun d inside => (List.mem_append.mp inside).elim (blankRight d) (behind d))
    (head?_trim text) (getLast?_trim text)

/-- Trimming at the end stops at a text without blanks. -/
theorem trimEnd_append {front : List Char} (solid : ∀ d ∈ front, isBlank d = false)
    (rest : List Char) : trimEnd (front ++ rest) = front ++ trimEnd rest := by
  obtain ⟨back, whole, blank⟩ := exists_trimEnd_append rest
  have ends : ∀ d ∈ (front ++ trimEnd rest).reverse.head?, isBlank d = false := by
    intro d last
    rw [List.head?_reverse, List.getLast?_append] at last
    cases found : (trimEnd rest).getLast? with
    | none =>
      rw [found] at last
      exact solid d (List.mem_of_getLast? (by simpa using last))
    | some e =>
      rw [found] at last
      obtain rfl : e = d := by simpa using last
      exact getLast?_trimEnd rest e found
  conv_lhs => rw [whole, trimEnd, ← List.append_assoc, List.reverse_append]
  rw [dropWhile_isBlank_append (fun d inside => blank d (List.mem_reverse.mp inside)) ends,
    List.reverse_reverse]

end ServiceHost.Text
