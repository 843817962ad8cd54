/-! White space, trimming and splitting of text held as lists of characters.

The blank characters are those with the Unicode property White_Space. Every
reader of the host (directives, start-up arguments, console lines, settings)
uses this one class. -/

set_option autoImplicit false

namespace ServiceHost.Text

def isBlank (c : Char) : Bool :=
  (0x09 ≤ c.toNat && c.toNat ≤ 0x0D) || c.toNat == 0x20 || c.toNat == 0x85 || c.toNat == 0xA0 ||
  c.toNat == 0x1680 || (0x2000 ≤ c.toNat && c.toNat ≤ 0x200A) || c.toNat == 0x2028 ||
  c.toNat == 0x2029 || c.toNat == 0x202F || c.toNat == 0x205F || c.toNat == 0x3000

theorem isBlank_of_isWhitespace {c : Char} (h : c.isWhitespace = true) : isBlank c = true := by
  simp only [Char.isWhitespace, Bool.or_eq_true, decide_eq_true_eq] at h
  rcases h with ((rfl | rfl) | rfl) | rfl <;> decide

def trimStart (text : List Char) : List Char := text.dropWhile isBlank

def trimEnd (text : List Char) : List Char := (text.reverse.dropWhile isBlank).reverse

def trim (text : List Char) : List Char := trimEnd (trimStart text)

/-- Puts a character in front of the first piece, or makes a piece of it. -/
def push (c : Char) : List (List Char) → List (List Char)
  | [] => [[c]]
  | piece :: pieces => (c :: piece) :: pieces

theorem push_ne_nil (c : Char) (pieces : List (List Char)) : push c pieces ≠ [] := by
  cases pieces <;> simp [push]

theorem flatten_push (c : Char) (pieces : List (List Char)) :
    (push c pieces).flatten = c :: pieces.flatten := by
  cases pieces <;> simp [push]

theorem forall_push {keeps : Char → Prop} {c : Char} {pieces : List (List Char)} (own : keeps c)
    (others : ∀ piece ∈ pieces, ∀ d ∈ piece, keeps d) :
    ∀ piece ∈ push c pieces, ∀ d ∈ piece, keeps d := by
  cases pieces with
  | nil => simp [push, own]
  | cons first rest =>
    intro piece member d inside
    rcases List.mem_cons.mp member with rfl | member
    · rcases List.mem_cons.mp inside with rfl | inside
      · exact own
      · exact others first (by simp) d inside
    · exact others piece (by simp [member]) d inside

/-- The maximal runs of characters that are not blank, in order. -/
def words : List Char → List (List Char)
  | [] => []
  | c :: rest =>
    if isBlank c then words rest
    else if rest.head?.all isBlank then [c] :: words rest
    else push c (words rest)

theorem flatten_words (text : List Char) :
    (words text).flatten = text.filter fun c => !isBlank c := by
  induction text with
  | nil => rfl
  | cons c rest ih =>
    by_cases blank : isBlank c = true
    · simp [words, blank, ih]
    · by_cases last : rest.head?.all isBlank = true
      · simp [words, blank, last, ih]
      · simp [words, blank, last, ih, flatten_push]

theorem ne_nil_of_mem_words (text : List Char) : ∀ word ∈ words text, word ≠ [] := by
  induction text with
  | nil => simp [words]
  | cons c rest ih =>
    by_cases blank : isBlank c = true
    · simpa [words, blank] using ih
    · by_cases last : rest.head?.all isBlank = true
      · simpa [words, blank, last] using ih
      · cases found : words rest with
        | nil => simp [words, blank, last, found, push]
        | cons first others =>
          rw [found] at ih
          simpa [words, blank, last, found, push] using
            fun word member => ih word (by simp [member])

theorem isBlank_of_mem_words (text : List Char) :
    ∀ word ∈ words text, ∀ d ∈ word, isBlank d = false := by
  induction text with
  | nil => simp [words]
  | cons c rest ih =>
    by_cases blank : isBlank c = true
    · simpa [words, blank] using ih
    · have own : isBlank c = false := by simpa using blank
      by_cases last : rest.head?.all isBlank = true
      · simp only [words, own, last, if_true, Bool.false_eq_true, if_false]
        intro word member
        rcases List.mem_cons.mp member with rfl | member
        · simpa using own
        · exact ih word member
      · simpa [words, own, last] using @forall_push (isBlank · = false) c (words rest) own ih

/-- What stands before and after the first character in the class, if there is one. -/
def cut (class_ : Char → Bool) : List Char → Option (List Char × List Char)
  | [] => none
  | c :: rest =>
    if class_ c then some ([], rest)
    else (cut class_ rest).map fun (before, after) => (c :: before, after)

theorem eq_append_of_cut {class_ : Char → Bool} {text before after : List Char}
    (h : cut class_ text = some (before, after)) :
    ∃ c, class_ c = true ∧ text = before ++ c :: after := by
  induction text generalizing before with
  | nil => simp [cut] at h
  | cons c rest ih =>
    by_cases inClass : class_ c = true
    · simp [cut, inClass] at h
      exact ⟨c, inClass, by simp [h]⟩
    · simp only [cut, inClass, Bool.false_eq_true, if_false, Option.map_eq_some_iff, Prod.exists,
        Prod.mk.injEq] at h
      obtain ⟨front, _, found, rfl, rfl⟩ := h
      obtain ⟨d, inside, same⟩ := ih found
      exact ⟨d, inside, by simp [same]⟩

/-- The lines of a text. A line feed ends a line, together with a carriage return right before it;
nothing after the last line feed is no line. -/
def lines : List Char → List (List Char)
  | [] => []
  | '\r' :: '\n' :: rest => [] :: lines rest
  | '\n' :: rest => [] :: lines rest
  | c :: rest => push c (lines rest)

/-- The pieces between the separators; a text without separator is one piece. -/
def splitOn (separator : Char) : List Char → List (List Char)
  | [] => [[]]
  | c :: rest =>
    if c = separator then [] :: splitOn separator rest else push c (splitOn separator rest)

theorem splitOn_ne_nil (separator : Char) (text : List Char) : splitOn separator text ≠ [] := by
  cases text with
  | nil => simp [splitOn]
  | cons c rest =>
    by_cases h : c = separator
    · simp [splitOn, h]
    · simpa [splitOn, h] using push_ne_nil c (splitOn separator rest)

theorem ne_of_mem_splitOn (separator : Char) (text : List Char) :
    ∀ piece ∈ splitOn separator text, ∀ d ∈ piece, d ≠ separator := by
  induction text with
  | nil => simp [splitOn]
  | cons c rest ih =>
    by_cases h : c = separator
    · simpa [splitOn, h] using ih
    · simpa [splitOn, h] using forall_push h ih

theorem intercalate_push (separator c : Char) (pieces : List (List Char)) :
    [separator].intercalate (push c pieces) = c :: [separator].intercalate pieces := by
  match pieces with
  | [] => rfl
  | [_] => simp [push, List.intercalate]
  | _ :: _ :: _ => simp [push, List.intercalate]

theorem intercalate_splitOn (separator : Char) (text : List Char) :
    [separator].intercalate (splitOn separator text) = text := by
  induction text with
  | nil => rfl
  | cons c rest ih =>
    by_cases h : c = separator
    · subst h
      obtain ⟨first, others, split⟩ := List.exists_cons_of_ne_nil (splitOn_ne_nil c rest)
      rw [split] at ih
      simp [splitOn, split, List.intercalate] at ih ⊢
      exact ih
    · simp [splitOn, h, intercalate_push, ih]

/-- The letters A to Z as small letters, all else unchanged. -/
def lowerAscii (text : List Char) : List Char := text.map Char.toLower

end ServiceHost.Text
