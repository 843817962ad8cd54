import ServiceHost.Directive.Line
import ServiceHost.Proofs.Text.Splitting

/-! What is left of a text once its comments are gone.

A text is read as characters that stay, comments up to the end of a line, and block
comments, the last of which may be left open. There is one such reading, and stripping
leaves what it leaves: nothing that reads as a comment, line by line. -/

set_option autoImplicit false

namespace ServiceHost.Directive

/-! ## Texts without comments -/

/-- Starts as a comment does that opens at the start of a token. -/
def StartsComment (text : List Char) : Prop := ['/', '/'] <+: text ∨ ['/', '*'] <+: text

/-- A text without semicolons in which no token starts as a comment does. -/
def CommentFree (text : List Char) : Prop :=
  ';' ∉ text ∧ ∀ word ∈ Text.words text, ¬ StartsComment word

/-- What keeps a text free of comments from character to character, read from a place where a token
may start or not. -/
def Clean : Bool → List Char → Prop
  | _, [] => True
  | tokenStart, c :: rest =>
    c ≠ ';' ∧ (tokenStart = true → ¬ StartsComment (c :: rest)) ∧ Clean (Text.isBlank c) rest

theorem startsComment_cons {c : Char} {rest : List Char} :
    StartsComment (c :: rest) ↔ c = '/' ∧ (rest.head? = some '/' ∨ rest.head? = some '*') := by
  cases rest <;> simp [StartsComment, and_or_left, eq_comm]

theorem not_startsComment_of_blank {c : Char} (blank : Text.isBlank c = true) (rest : List Char) :
    ¬ StartsComment (c :: rest) := by
  rw [startsComment_cons]
  rintro ⟨rfl, -⟩
  exact absurd blank (by decide)

theorem startsComment_takeWhile {c : Char} {rest : List Char} :
    StartsComment (c :: rest.takeWhile fun d => !Text.isBlank d) ↔ StartsComment (c :: rest) := by
  have slash : Text.isBlank '/' = false := by decide
  have star : Text.isBlank '*' = false := by decide
  cases rest with
  | nil => simp
  | cons d more => 
    rw [startsComment_cons, startsComment_cons]
    cases blank : Text.isBlank d with
    | true => 
      have : d ≠ '/' := by rintro rfl; simp [slash] at blank
      have : d ≠ '*' := by rintro rfl; simp [star] at blank
      simp [*]
    | false => simp [blank]

/-- From within a token, the next token starts behind the next blank. -/
theorem clean_iff (text : List Char) :
    (Clean true text ↔ CommentFree text) ∧
      (Clean false text ↔ ';' ∉ text ∧
        ∀ word ∈ Text.words (text.dropWhile fun d => !Text.isBlank d), ¬ StartsComment word) := by
  induction text with
  | nil => simp [Clean, CommentFree, Text.words]
  | cons c rest ih =>
    cases blank : Text.isBlank c with
    | true =>
      simp [Clean, CommentFree, ih.1, blank, not_startsComment_of_blank blank,
        Text.words_of_blank blank, eq_comm, and_assoc]
    | false =>
      simp [Clean, CommentFree, ih.2, blank, Text.words_of_not_blank blank, startsComment_takeWhile,
        eq_comm, and_assoc, and_left_comm]

/-! ## What a text is made of -/

inductive Piece where
  | char (c : Char)
  /-- A comment up to the end of its line, from its opening on. -/
  | line (comment : List Char)
  /-- A block comment, by what stands between its opening and its close. -/
  | block (body : List Char)
  /-- A block comment that the end of the text leaves open. -/
  | unclosed (body : List Char)
  deriving DecidableEq, Repr

/-- A comment opens here that goes on to the end of the line. -/
def OpensLine (tokenStart : Bool) (text : List Char) : Prop :=
  [';'] <+: text ∨ tokenStart = true ∧ ['/', '/'] <+: text

/-- A block comment opens here. -/
def OpensBlock (tokenStart : Bool) (text : List Char) : Prop :=
  tokenStart = true ∧ ['/', '*'] <+: text

/-- A line feed comes next, or nothing. -/
def EndsLine (rest : List Char) : Prop := ∀ c ∈ rest.head?, c = '\n'

/-- A text read from a place where a token may start or not. A token may start behind a blank and
behind a block comment. -/
inductive Reads : Bool → List Char → List Piece → Prop where
  | done (tokenStart : Bool) : Reads tokenStart [] []
  | char {tokenStart : Bool} {c : Char} {rest : List Char} {pieces : List Piece} :
      ¬ OpensLine tokenStart (c :: rest) → ¬ OpensBlock tokenStart (c :: rest) →
      Reads (Text.isBlank c) rest pieces → Reads tokenStart (c :: rest) (.char c :: pieces)
  | line {tokenStart : Bool} {comment rest : List Char} {pieces : List Piece} :
      OpensLine tokenStart comment → '\n' ∉ comment → EndsLine rest → Reads false rest pieces →
      Reads tokenStart (comment ++ rest) (.line comment :: pieces)
  | block {body rest : List Char} {pieces : List Piece} :
      ¬ ['*', '/'] <:+: body → Reads true rest pieces →
      Reads true ('/' :: '*' :: (body ++ '*' :: '/' :: rest)) (.block body :: pieces)
  | unclosed {body : List Char} :
      ¬ ['*', '/'] <:+: body → Reads true ('/' :: '*' :: body) [.unclosed body]

/-- What stripping makes of a part of a text. -/
inductive Mark where
  | kept (c : Char)
  | gone (c : Char)
  /-- The close of a block comment, for which a space stands. -/
  | closed
  deriving DecidableEq, Repr

namespace Mark

def source : Mark → List Char
  | kept c | gone c => [c]
  | closed => ['*', '/']

def left : Mark → List Char
  | kept c => [c]
  | gone _ => []
  | closed => [' ']

/-- Of a block comment, the line feeds are kept. -/
def inBlock (c : Char) : Mark := if c = '\n' then kept c else gone c

theorem source_inBlock (c : Char) : (inBlock c).source = [c] := by
  unfold inBlock
  split <;> rfl

theorem flatMap_source_gone (comment : List Char) : (comment.map gone).flatMap source = comment := by
  simp [List.flatMap_map, source]

theorem flatMap_left_gone (comment : List Char) : (comment.map gone).flatMap left = [] := by
  simp [List.flatMap_map, left]

theorem flatMap_source_inBlock (body : List Char) : (body.map inBlock).flatMap source = body := by
  simp [List.flatMap_map, source_inBlock]

end Mark

def Piece.marks : Piece → List Mark
  | char c => [.kept c]
  | line comment => comment.map .gone
  | block body => .gone '/' :: .gone '*' :: (body.map .inBlock ++ [.closed])
  | unclosed body => .gone '/' :: .gone '*' :: body.map .inBlock

/-- What pieces leave of their text. -/
def remains (pieces : List Piece) : List Char := (pieces.flatMap Piece.marks).flatMap Mark.left

@[simp] theorem remains_nil : remains [] = [] := rfl

@[simp] theorem remains_char (c : Char) (rest : List Piece) :
    remains (.char c :: rest) = c :: remains rest := rfl

@[simp] theorem remains_line (comment : List Char) (rest : List Piece) :
    remains (.line comment :: rest) = remains rest := by
  simp [remains, Piece.marks, Mark.flatMap_left_gone]

@[simp] theorem remains_block (body : List Char) (rest : List Piece) :
    remains (.block body :: rest) =
      (body.map Mark.inBlock).flatMap Mark.left ++ ' ' :: remains rest := by
  simp [remains, Piece.marks, Mark.left]

@[simp] theorem remains_unclosed (body : List Char) (rest : List Piece) :
    remains (.unclosed body :: rest) =
      (body.map Mark.inBlock).flatMap Mark.left ++ remains rest := by
  simp [remains, Piece.marks, Mark.left]

/-- The marks of the pieces are marks of the whole text. -/
theorem Reads.source {tokenStart : Bool} {text : List Char} {pieces : List Piece}
    (reads : Reads tokenStart text pieces) :
    (pieces.flatMap Piece.marks).flatMap Mark.source = text := by
  induction reads with
  | done => rfl
  | char _ _ _ ih => simp [Piece.marks, Mark.source, ih]
  | line _ _ _ _ ih => simp [Piece.marks, Mark.flatMap_source_gone, ih]
  | block _ _ ih => simp [Piece.marks, Mark.flatMap_source_inBlock, Mark.source, ih]
  | unclosed => simp [Piece.marks, Mark.flatMap_source_inBlock, Mark.source]

/-! ### Stripping follows a reading -/

/-- What may come of a text that is scanned from inside the given kind of place. -/
inductive Continues : Scan → List Char → List Char → Prop where
  | outside {tokenStart : Bool} {text : List Char} {pieces : List Piece} :
      Reads tokenStart text pieces → Continues (.outside tokenStart) text (remains pieces)
  | line {comment rest : List Char} {pieces : List Piece} :
      '\n' ∉ comment → EndsLine rest → Reads false rest pieces →
      Continues .line (comment ++ rest) (remains pieces)
  | block {body rest : List Char} {pieces : List Piece} :
      ¬ ['*', '/'] <:+: body → Reads true rest pieces →
      Continues .block (body ++ '*' :: '/' :: rest)
        ((body.map Mark.inBlock).flatMap Mark.left ++ ' ' :: remains pieces)
  | unclosed {body : List Char} :
      ¬ ['*', '/'] <:+: body →
      Continues .block body ((body.map Mark.inBlock).flatMap Mark.left)

theorem OpensLine.append {tokenStart : Bool} {opening : List Char}
    (opens : OpensLine tokenStart opening) (rest : List Char) :
    OpensLine tokenStart (opening ++ rest) :=
  opens.imp (·.trans (List.prefix_append ..)) fun two => ⟨two.1, two.2.trans (List.prefix_append ..)⟩

namespace Continues

variable {c : Char} {rest left opening : List Char} {tokenStart : Bool}

/-- A comment up to the end of the line starts with its opening. -/
theorem opensLine (opens : OpensLine tokenStart opening) (own : '\n' ∉ opening)
    (continues : Continues .line rest left) :
    Continues (.outside tokenStart) (opening ++ rest) left := by
  cases continues with
  | @line comment rest pieces inLine ends reads =>
    rw [← List.append_assoc, ← remains_line (opening ++ comment)]
    exact .outside (.line (opens.append comment) (by simp [own, inLine]) ends reads)

theorem opensBlock (continues : Continues .block rest left) :
    Continues (.outside true) ('/' :: '*' :: rest) left := by
  cases continues with
  | block still reads =>
    rw [← remains_block]
    exact .outside (.block still reads)
  | unclosed still =>
    have same := remains_unclosed rest []
    rw [remains_nil, List.append_nil] at same
    rw [← same]
    exact .outside (.unclosed still)

/-- A character of a block comment, that does not start its close. -/
theorem inBlock (apart : ∀ more, c = '*' → rest = '/' :: more → False)
    (continues : Continues .block rest left) :
    Continues .block (c :: rest) ((Mark.inBlock c).left ++ left) := by
  have still : ∀ body more, rest = body ++ more → ¬ ['*', '/'] <:+: body →
      ¬ ['*', '/'] <:+: c :: body := by
    rintro body more same still closes
    rcases List.infix_cons_iff.mp closes with ⟨tail, here⟩ | inside
    · obtain ⟨rfl, rfl⟩ := List.cons_eq_cons.mp here
      exact apart _ rfl same
    · exact still inside
  cases continues with
  | @block body rest pieces inside reads =>
    have longer := Continues.block (still body _ rfl inside) reads
    simpa using longer
  | unclosed inside =>
    have longer := Continues.unclosed (still rest [] (List.append_nil _).symm inside)
    simpa using longer

end Continues

theorem continues_stripFrom (scan : Scan) (text : List Char) :
    Continues scan text (stripFrom scan text) := by
  fun_induction stripFrom scan text with
  | case1 scan =>
    cases scan with
    | outside tokenStart => exact .outside (.done tokenStart)
    | line => exact @Continues.line [] _ _ (by simp) (by simp [EndsLine]) (.done false)
    | block => exact .unclosed (by simp)
  | case2 rest ih =>
    generalize stripFrom (.outside true) rest = left at ih
    cases ih with | outside reads =>
    exact @Continues.block [] _ _ (by simp) reads
  | case3 rest apart ih => exact ih.inBlock apart
  | case4 c rest apart other ih => simpa [Mark.inBlock, other, Mark.left] using ih.inBlock apart
  | case5 rest ih =>
    generalize stripFrom (.outside true) rest = left at ih
    cases ih with | outside reads =>
    -- The line feed is the first thing that is kept again.
    have feed : Reads false ('\n' :: rest) (.char '\n' :: _) :=
      .char (by simp [OpensLine]) (by simp [OpensBlock]) reads
    exact @Continues.line [] _ _ (by simp) (by simp [EndsLine]) feed
  | case6 c rest other ih =>
    generalize stripFrom .line rest = left at ih
    cases ih with | @line comment rest pieces inLine ends reads =>
    exact @Continues.line (c :: comment) _ _ (by simp [inLine, Ne.symm other]) ends reads
  | case7 rest ih =>
    have opens : OpensLine true ['/', '/'] := .inr ⟨rfl, List.prefix_rfl⟩
    exact ih.opensLine opens (by decide)
  | case8 rest ih => exact ih.opensBlock
  | case9 tokenStart rest _ _ ih =>
    have opens : OpensLine tokenStart [';'] := .inl List.prefix_rfl
    exact ih.opensLine opens (by decide)
  | case10 tokenStart c rest notLine notBlock other ih =>
    generalize stripFrom (.outside (Text.isBlank c)) rest = left at ih
    cases ih with | outside reads =>
    refine .outside (.char ?_ ?_ reads)
    · rintro (⟨_, same⟩ | ⟨starts, more, same⟩)
      · exact other (List.cons_eq_cons.mp same).1.symm
      · obtain ⟨rfl, rfl⟩ := List.cons_eq_cons.mp same
        exact notLine more starts rfl rfl
    · rintro ⟨starts, more, same⟩
      obtain ⟨rfl, rfl⟩ := List.cons_eq_cons.mp same
      exact notBlock more starts rfl rfl

/-- A text has a reading, and stripping leaves what that leaves. -/
theorem exists_reads (text : List Char) :
    ∃ pieces, Reads true text pieces ∧ stripComments text = remains pieces := by
  have continues := continues_stripFrom (.outside true) text
  unfold stripComments
  generalize stripFrom (.outside true) text = left at continues
  cases continues with | outside reads => exact ⟨_, reads, rfl⟩

/-! ### There is only one reading -/

section
variable {tokenStart : Bool} {text comment other rest more body inner : List Char}
  {pieces others : List Piece}

theorem OpensLine.ne_nil (opens : OpensLine tokenStart comment) : comment ≠ [] := by
  rintro rfl
  simp [OpensLine] at opens

theorem OpensBlock.not_opensLine (opens : OpensBlock tokenStart text) :
    ¬ OpensLine tokenStart text := by
  obtain ⟨-, rest, rfl⟩ := opens
  simp [OpensLine]

/-- A line ends at the first line feed. -/
theorem eq_of_endsLine (same : comment ++ rest = other ++ more) (own : '\n' ∉ comment)
    (also : '\n' ∉ other) (ends : EndsLine rest) (stops : EndsLine more) :
    comment = other ∧ rest = more := by
  rcases List.append_eq_append_iff.mp same with ⟨between, rfl, rfl⟩ | ⟨between, rfl, rfl⟩
  · cases between with
    | nil => simp
    | cons c between => exact absurd (ends c rfl) (by rintro rfl; simp at also)
  · cases between with
    | nil => simp
    | cons c between => exact absurd (stops c rfl) (by rintro rfl; simp at own)

/-- A block comment does not go on past a close. -/
theorem eq_nil_of_open {between : List Char}
    (same : '*' :: '/' :: rest = between ++ '*' :: '/' :: more)
    (still : ¬ ['*', '/'] <:+: body ++ between) : between = [] := by
  match between with
  | [] => rfl
  | [c] => simp at same
  | c :: d :: between =>
    simp only [List.cons_append, List.cons.injEq] at same
    obtain ⟨rfl, rfl, -⟩ := same
    exact absurd ⟨body, between, by simp⟩ still

theorem eq_of_close (same : body ++ '*' :: '/' :: rest = inner ++ '*' :: '/' :: more)
    (still : ¬ ['*', '/'] <:+: body) (also : ¬ ['*', '/'] <:+: inner) :
    body = inner ∧ rest = more := by
  rcases List.append_eq_append_iff.mp same with ⟨between, rfl, split⟩ | ⟨between, rfl, split⟩
  · obtain rfl := eq_nil_of_open split also
    simpa using split
  · obtain rfl := eq_nil_of_open split still
    simpa [eq_comm] using split

/-- What comes first in a text decides on the first piece. -/
theorem Reads.first (reads : Reads tokenStart text pieces) :
    (text = [] ∧ pieces = []) ∨
    (¬ OpensLine tokenStart text ∧ ¬ OpensBlock tokenStart text ∧ ∃ c rest others,
      text = c :: rest ∧ pieces = .char c :: others ∧ Reads (Text.isBlank c) rest others) ∨
    (OpensLine tokenStart text ∧ ∃ comment rest others, text = comment ++ rest ∧
      pieces = .line comment :: others ∧ '\n' ∉ comment ∧ EndsLine rest ∧ Reads false rest others) ∨
    (OpensBlock tokenStart text ∧
      ((∃ body rest others, text = '/' :: '*' :: (body ++ '*' :: '/' :: rest) ∧
        pieces = .block body :: others ∧ ¬ ['*', '/'] <:+: body ∧ Reads true rest others) ∨
      ∃ body, text = '/' :: '*' :: body ∧ pieces = [.unclosed body] ∧ ¬ ['*', '/'] <:+: body)) := by
  cases reads with
  | done => exact .inl ⟨rfl, rfl⟩
  | char notLine notBlock reads =>
    exact .inr (.inl ⟨notLine, notBlock, _, _, _, rfl, rfl, reads⟩)
  | line opens own ends reads =>
    exact .inr (.inr (.inl ⟨opens.append _, _, _, _, rfl, rfl, own, ends, reads⟩))
  | block still reads =>
    exact .inr (.inr (.inr ⟨⟨rfl, _, rfl⟩, .inl ⟨_, _, _, rfl, rfl, still, reads⟩⟩))
  | unclosed still =>
    exact .inr (.inr (.inr ⟨⟨rfl, _, rfl⟩, .inr ⟨_, rfl, rfl, still⟩⟩))

theorem Reads.unique (reads : Reads tokenStart text pieces)
    (also : Reads tokenStart text others) : pieces = others := by
  induction reads generalizing others with
  | done =>
    rcases also.first with ⟨-, rfl⟩ | ⟨-, -, _, _, _, ⟨⟩, -⟩ | ⟨opens, -⟩ | ⟨⟨-, opens⟩, -⟩
    · rfl
    · exact absurd rfl opens.ne_nil
    · simp at opens
  | char notLine notBlock _ ih =>
    rcases also.first with ⟨⟨⟩, -⟩ | ⟨-, -, _, _, _, ⟨⟩, rfl, onward⟩ | ⟨opens, -⟩ | ⟨opens, -⟩
    · rw [ih onward]
    · exact absurd opens notLine
    · exact absurd opens notBlock
  | @line _ _ rest _ starts own ends _ ih =>
    have opens := starts.append rest
    rcases also.first with ⟨none, -⟩ | ⟨notLine, -⟩ | ⟨-, _, _, _, same, rfl, other, stops, onward⟩ |
      ⟨block, -⟩
    · exact absurd none opens.ne_nil
    · exact absurd opens notLine
    · obtain ⟨rfl, rfl⟩ := eq_of_endsLine same own other ends stops
      rw [ih onward]
    · exact absurd opens block.not_opensLine
  | @block body rest _ still _ ih =>
    have opens : OpensBlock true ('/' :: '*' :: (body ++ '*' :: '/' :: rest)) := ⟨rfl, _, rfl⟩
    rcases also.first with ⟨⟨⟩, -⟩ | ⟨-, notBlock, -⟩ | ⟨line, -⟩ |
      ⟨-, ⟨inner, more, _, same, rfl, open_, onward⟩ | ⟨inner, same, rfl, open_⟩⟩
    · exact absurd opens notBlock
    · exact absurd line opens.not_opensLine
    · obtain ⟨rfl, rfl⟩ := eq_of_close (by simpa using same) still open_
      rw [ih onward]
    · obtain rfl : body ++ '*' :: '/' :: rest = inner := by simpa using same
      exact absurd ⟨body, rest, by simp⟩ open_
  | @unclosed body still =>
    have opens : OpensBlock true ('/' :: '*' :: body) := ⟨rfl, _, rfl⟩
    rcases also.first with ⟨⟨⟩, -⟩ | ⟨-, notBlock, -⟩ | ⟨line, -⟩ |
      ⟨-, ⟨inner, more, _, same, rfl, open_, onward⟩ | ⟨inner, same, rfl, open_⟩⟩
    · exact absurd opens notBlock
    · exact absurd line opens.not_opensLine
    · obtain rfl : body = inner ++ '*' :: '/' :: more := by simpa using same
      exact absurd ⟨inner, more, by simp⟩ still
    · obtain rfl : body = inner := by simpa using same
      rfl

end

/-! ## What stripping leaves -/

section
variable {tokenStart : Bool} {text rest front : List Char} {pieces : List Piece} {c : Char}

/-- Within a token, what remains starts as the text does, or with a line feed. -/
theorem Reads.head_remains (reads : Reads false rest pieces) (head : (remains pieces).head? = some c) :
    c = '\n' ∨ rest.head? = some c := by
  generalize within : false = tokenStart at reads
  induction reads with
  | done => cases head
  | char => exact .inr head
  | line _ _ ends _ ih =>
    rw [remains_line] at head
    exact .inl ((ih head rfl).elim id fun first => ends c first)
  | block | unclosed => cases within

theorem clean_append_blanks (blanks : ∀ c ∈ front, Text.isBlank c = true) (clean : Clean true rest) :
    Clean true (front ++ rest) := by
  induction front with
  | nil => exact clean
  | cons c front ih =>
    obtain ⟨blank, blanks⟩ := List.forall_mem_cons.mp blanks
    refine ⟨?_, fun _ => not_startsComment_of_blank blank _, ?_⟩
    · rintro rfl
      exact absurd blank (by decide)
    rw [blank]
    exact ih blanks

theorem isBlank_of_mem_inBlock {body : List Char}
    (member : c ∈ (body.map Mark.inBlock).flatMap Mark.left) : Text.isBlank c = true := by
  obtain ⟨mark, there, inside⟩ := List.mem_flatMap.mp member
  obtain ⟨d, -, rfl⟩ := List.mem_map.mp there
  unfold Mark.inBlock at inside
  split at inside
  · obtain rfl := List.mem_singleton.mp inside
    subst_vars
    decide
  · cases inside

/-- Nothing that remains reads as a comment. A slash that opened none opens none behind what was
removed. -/
theorem Reads.clean (reads : Reads tokenStart text pieces) : Clean tokenStart (remains pieces) := by
  induction reads with
  | done => trivial
  | @char tokenStart c rest pieces notLine notBlock reads ih =>
    refine ⟨by rintro rfl; exact notLine (.inl ⟨rest, rfl⟩), fun starts comment => ?_, ih⟩
    obtain ⟨rfl, head⟩ := startsComment_cons.mp comment
    have first : ∀ d ≠ '\n', (remains pieces).head? = some d → rest.head? = some d :=
      fun d other head => (reads.head_remains head).resolve_left other
    rcases head with head | head
    · obtain ⟨more, rfl⟩ := List.head?_eq_some_iff.mp (first _ (by decide) head)
      exact notLine (.inr ⟨starts, more, rfl⟩)
    · obtain ⟨more, rfl⟩ := List.head?_eq_some_iff.mp (first _ (by decide) head)
      exact notBlock ⟨starts, more, rfl⟩
  | @line tokenStart comment rest pieces _ _ ends reads ih =>
    rw [remains_line]
    cases left : remains pieces with
    | nil => trivial
    | cons c more =>
      obtain rfl : c = '\n' := by
        rcases reads.head_remains (congrArg List.head? left) with feed | first
        · exact feed
        · exact ends c first
      rw [left] at ih
      exact ⟨ih.1, fun _ => not_startsComment_of_blank (by decide) _, ih.2.2⟩
  | block _ _ ih =>
    rw [remains_block]
    have space : ∀ c ∈ [' '], Text.isBlank c = true := fun c member => by
      rw [List.mem_singleton.mp member]
      rfl
    have spaced : Clean true ([' '] ++ remains _) := clean_append_blanks space ih
    exact clean_append_blanks (fun c => isBlank_of_mem_inBlock) spaced
  | unclosed =>
    rw [remains_unclosed]
    exact clean_append_blanks (fun c => isBlank_of_mem_inBlock) trivial

/-- A clean text reads as characters. -/
theorem Clean.reads (clean : Clean tokenStart text) : Reads tokenStart text (text.map .char) := by
  induction text generalizing tokenStart with
  | nil => exact .done tokenStart
  | cons c rest ih =>
    obtain ⟨solid, starts, clean⟩ := clean
    refine .char ?_ ?_ (ih clean)
    · rintro (⟨_, same⟩ | ⟨token, opens⟩)
      · exact solid (List.cons_eq_cons.mp same).1.symm
      · exact starts token (.inl opens)
    · rintro ⟨token, opens⟩
      exact starts token (.inr opens)

theorem remains_map_char (text : List Char) : remains (text.map .char) = text := by
  induction text with
  | nil => rfl
  | cons c rest ih => simp [ih]

end

theorem commentFree_stripComments (text : List Char) : CommentFree (stripComments text) := by
  obtain ⟨pieces, reads, same⟩ := exists_reads text
  rw [same]
  exact (clean_iff _).1.mp reads.clean

theorem stripComments_eq_self_iff (text : List Char) :
    stripComments text = text ↔ CommentFree text := by
  constructor
  · intro same
    rw [← same]
    exact commentFree_stripComments text
  · intro free
    obtain ⟨pieces, reads, same⟩ := exists_reads text
    rw [same, reads.unique ((clean_iff text).1.mpr free).reads, remains_map_char]

/-- The lines of a text without comments have none. -/
theorem CommentFree.of_mem_lines {text line : List Char} (free : CommentFree text)
    (member : line ∈ Text.lines text) : CommentFree line := by
  constructor
  · exact fun inside => free.1 (Text.mem_of_mem_lines text line member _ inside)
  · intro word inside
    apply free.2 word
    rw [← Text.flatMap_words_lines]
    exact List.mem_flatMap.mpr ⟨line, member, inside⟩

theorem map_stripComments_lines (text : List Char) :
    (Text.lines (stripComments text)).map stripComments = Text.lines (stripComments text) := by
  calc (Text.lines (stripComments text)).map stripComments
      _ = (Text.lines (stripComments text)).map id := List.map_congr_left fun line member =>
        (stripComments_eq_self_iff line).mpr
          ((commentFree_stripComments text).of_mem_lines member)
      _ = Text.lines (stripComments text) := List.map_id _

/-! ## Line by line -/

theorem intercalate_cons_nil {α : Type} (separator : α) {lines : List (List α)}
    (nonempty : lines ≠ []) :
    [separator].intercalate ([] :: lines) = separator :: [separator].intercalate lines := by
  cases lines with
  | nil => exact absurd rfl nonempty
  | cons line others => simp [List.intercalate]

theorem intercalate_cons_cons {α : Type} (separator item : α) (line : List α)
    (others : List (List α)) :
    [separator].intercalate ((item :: line) :: others) =
      item :: [separator].intercalate (line :: others) := by
  cases others <;> simp [List.intercalate]

/-- Marks that lose no line feed, cut into lines at those that they keep. -/
theorem exists_lines (marks : List Mark) (keeps : .gone '\n' ∉ marks) :
    ∃ lines, lines ≠ [] ∧ [Mark.kept '\n'].intercalate lines = marks ∧
      Text.splitOn '\n' (marks.flatMap Mark.source) = lines.map (·.flatMap Mark.source) ∧
      Text.splitOn '\n' (marks.flatMap Mark.left) = lines.map (·.flatMap Mark.left) := by
  induction marks with
  | nil => exact ⟨[[]], by simp [Text.splitOn]⟩
  | cons mark rest ih =>
    simp only [List.mem_cons, not_or] at keeps
    obtain ⟨own, keeps⟩ := keeps
    obtain ⟨lines, nonempty, whole, source, left⟩ := ih keeps
    by_cases feed : mark = .kept '\n'
    · subst feed
      refine ⟨[] :: lines, by simp, ?_, ?_, ?_⟩
      · rw [intercalate_cons_nil _ nonempty, whole]
      · simp [Mark.source, Text.splitOn, source]
      · simp [Mark.left, Text.splitOn, left]
    · -- Any other mark goes on with the line that comes next.
      obtain ⟨line, others, rfl⟩ := List.exists_cons_of_ne_nil nonempty
      refine ⟨(mark :: line) :: others, by simp, ?_, ?_, ?_⟩
      · rw [intercalate_cons_cons, whole]
      · cases mark with
        | kept c | gone c =>
          have other : c ≠ '\n' := by rintro rfl; simp at feed own
          simp [Mark.source, Text.splitOn, other, source, Text.push]
        | closed => simp [Mark.source, Text.splitOn, source, Text.push]
      · cases mark with
        | kept c =>
          have other : c ≠ '\n' := by rintro rfl; simp at feed
          simp [Mark.left, Text.splitOn, other, left, Text.push]
        | gone c => simpa [Mark.left] using left
        | closed => simp [Mark.left, Text.splitOn, left, Text.push]

theorem Reads.keeps_feeds {tokenStart : Bool} {text : List Char} {pieces : List Piece}
    (reads : Reads tokenStart text pieces) : .gone '\n' ∉ pieces.flatMap Piece.marks := by
  have inBlock : ∀ body : List Char, Mark.gone '\n' ∉ body.map Mark.inBlock := by
    intro body member
    obtain ⟨c, -, same⟩ := List.mem_map.mp member
    unfold Mark.inBlock at same
    split at same
    · cases same
    · cases same
      contradiction
  induction reads with
  | done => simp
  | char _ _ _ ih => simpa [Piece.marks] using ih
  | line _ own _ _ ih => simpa [Piece.marks, own] using ih
  | @block body _ _ _ _ ih => simpa [Piece.marks, inBlock body] using ih
  | @unclosed body => simpa [Piece.marks] using inBlock body

/-- Stripping leaves a text without comments, with its lines in their places: what stands in a line
afterwards is what stood in it before, less some characters, and with one space for each block
comment that ended in it. A text is left as it is just if it has no comments, so that stripping once
more, as a whole or line by line, changes nothing. -/
theorem stripComments_leaves (text : List Char) :
    CommentFree (stripComments text) ∧
      (stripComments text).count '\n' = text.count '\n' ∧
      (∃ pieces lines, Reads true text pieces ∧ (∀ others, Reads true text others → pieces = others) ∧
        [Mark.kept '\n'].intercalate lines = pieces.flatMap Piece.marks ∧
        Text.splitOn '\n' text = lines.map (·.flatMap Mark.source) ∧
        Text.splitOn '\n' (stripComments text) = lines.map (·.flatMap Mark.left)) ∧
      (stripComments text = text ↔ CommentFree text) ∧
      stripComments (stripComments text) = stripComments text ∧
      (Text.lines (stripComments text)).map stripComments = Text.lines (stripComments text) ∧
      ofScript text =
        (Text.lines (stripComments text)).filterMap fun line => ofWords (Text.words line) := by
  obtain ⟨pieces, reads, same⟩ := exists_reads text
  obtain ⟨lines, -, whole, source, left⟩ := exists_lines _ reads.keeps_feeds
  rw [reads.source] at source
  change Text.splitOn '\n' (remains pieces) = _ at left
  rw [← same] at left
  have free := commentFree_stripComments text
  have again := map_stripComments_lines text
  refine ⟨free, ?_, ⟨pieces, lines, reads, fun _ => reads.unique, whole, source, left⟩,
    stripComments_eq_self_iff text, (stripComments_eq_self_iff _).mpr free, again, ?_⟩
  · have before := Text.length_splitOn '\n' text
    have after := Text.length_splitOn '\n' (stripComments text)
    rw [source, List.length_map] at before
    rw [left, List.length_map] at after
    omega
  · calc ofScript text
        _ = ((Text.lines (stripComments text)).map stripComments).filterMap
            fun line => ofWords (Text.words line) := by rw [List.filterMap_map]; rfl
        _ = _ := by rw [again]

/-- Of the block comment, the second line shows a space where it ends. -/
theorem stripComments_leaves_block :
    ∃ lines, [Mark.kept '\n'].intercalate lines =
        [Piece.char 'A', .char ' ', .block ['/', '\n'], .char '/', .char ' ',
          .line ['/', '/', '*']].flatMap Piece.marks ∧
      [['A', ' ', '/', '*', '/'], ['*', '/', '/', ' ', '/', '/', '*']] =
        lines.map (·.flatMap Mark.source) ∧
      [['A', ' '], [' ', '/', ' ']] = lines.map (·.flatMap Mark.left) := by
  have reads : Reads true ['A', ' ', '/', '*', '/', '\n', '*', '/', '/', ' ', '/', '/', '*'] _ :=
    .char (by simp [OpensLine]) (by simp [OpensBlock]) <|
    .char (by simp [OpensLine]) (by simp [OpensBlock]) <|
    @Reads.block ['/', '\n'] _ _ (by decide) <|
    .char (by simp [OpensLine]) (by simp [OpensBlock]) <|
    .char (by simp [OpensLine]) (by simp [OpensBlock]) <|
    @Reads.line _ ['/', '/', '*'] [] _ (by simp [OpensLine, Text.isBlank]) (by decide)
      (by simp [EndsLine]) (.done false)
  obtain ⟨-, -, ⟨pieces, lines, -, sole, whole, source, left⟩, -⟩ := stripComments_leaves
    ['A', ' ', '/', '*', '/', '\n', '*', '/', '/', ' ', '/', '/', '*']
  rw [sole _ reads] at whole
  exact ⟨lines, whole, source, left⟩

end ServiceHost.Directive
