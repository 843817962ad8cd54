import ServiceHost.Proofs.Directive.Comment
import ServiceHost.Settings

/-! A script is read as its lines are.

The comments of a script are removed from the whole text, those of a line from the line
alone. The two agree at every line feed that no block comment goes on over: whatever came
before it, the reading starts anew behind it.
-/

set_option autoImplicit false

namespace ServiceHost.Directive

/-- A block comment goes on over the end of the text. -/
def LeavesOpen (text : List Char) : Prop :=
  ∃ pieces body, Reads true text pieces ∧ .unclosed body ∈ pieces

variable {tokenStart : Bool} {text rest opening : List Char} {pieces others : List Piece}

theorem not_leavesOpen (reads : Reads true text pieces) (closed : ∀ body, .unclosed body ∉ pieces) :
    ¬ LeavesOpen text := by
  rintro ⟨others, body, also, member⟩
  rw [← reads.unique also] at member
  exact closed body member

theorem stripComments_of_reads (reads : Reads true text pieces) :
    stripComments text = remains pieces := by
  obtain ⟨others, also, same⟩ := exists_reads text
  rw [same, reads.unique also]

theorem remains_append (front back : List Piece) :
    remains (front ++ back) = remains front ++ remains back := by
  simp [remains]

/-! ## At a line feed -/

/-- No comment opens with a line feed in its opening. -/
theorem prefix_before_feed (own : '\n' ∉ opening) (starts : opening <+: text ++ '\n' :: rest) :
    opening <+: text := by
  obtain ⟨tail, same⟩ := starts
  rcases List.append_eq_append_iff.mp same with ⟨between, rfl, -⟩ | ⟨between, rfl, split⟩
  · exact List.prefix_append ..
  · cases between with
    | nil => simp
    | cons c between =>
      obtain ⟨rfl, -⟩ := List.cons_eq_cons.mp split
      simp at own

theorem OpensLine.before_feed (opens : OpensLine tokenStart (text ++ '\n' :: rest)) :
    OpensLine tokenStart text :=
  opens.imp (prefix_before_feed (by decide)) fun two =>
    ⟨two.1, prefix_before_feed (by decide) two.2⟩

theorem OpensBlock.before_feed (opens : OpensBlock tokenStart (text ++ '\n' :: rest)) :
    OpensBlock tokenStart text :=
  ⟨opens.1, prefix_before_feed (by decide) opens.2⟩

/-- Behind a line feed outside of block comments a text is read as if nothing had come before. -/
theorem Reads.append_feed (reads : Reads tokenStart text pieces)
    (closed : ∀ body, .unclosed body ∉ pieces) (onward : Reads true rest others) :
    Reads tokenStart (text ++ '\n' :: rest) (pieces ++ .char '\n' :: others) := by
  induction reads with
  | done tokenStart => exact .char (by simp [OpensLine]) (by simp [OpensBlock]) onward
  | char notLine notBlock _ ih =>
    exact .char (fun opens => notLine opens.before_feed) (fun opens => notBlock opens.before_feed)
      (ih fun body member => closed body (List.mem_cons_of_mem _ member))
  | @line _ comment more _ opens own ends _ ih =>
    rw [List.append_assoc]
    refine .line opens own ?_ (ih fun body member => closed body (List.mem_cons_of_mem _ member))
    cases more with
    | nil => simp [EndsLine]
    | cons => exact ends
  | block still _ ih =>
    have onward := ih fun body member => closed body (List.mem_cons_of_mem _ member)
    simpa using Reads.block still onward
  | unclosed => exact absurd (List.mem_singleton_self _) (closed _)

theorem stripComments_append_feed (closed : ¬ LeavesOpen text) (rest : List Char) :
    stripComments (text ++ '\n' :: rest) = stripComments text ++ '\n' :: stripComments rest := by
  obtain ⟨pieces, reads, left⟩ := exists_reads text
  obtain ⟨others, onward, leaves⟩ := exists_reads rest
  have whole := reads.append_feed (fun body member => closed ⟨pieces, body, reads, member⟩) onward
  rw [stripComments_of_reads whole, remains_append, remains_char, ← left, ← leaves]

/-- Stripping brings no characters into a text but spaces. -/
theorem mem_of_mem_stripFrom (scan : Scan) (text : List Char) :
    ∀ c ∈ stripFrom scan text, c = ' ' ∨ c ∈ text := by
  fun_induction stripFrom scan text <;> simp_all <;> grind

/-! ## Line by line -/

theorem ofWords_carriage_return (line : List Char) :
    ofWords (Text.words (line ++ ['\r'])) = ofWords (Text.words line) := by
  rw [Text.words_append_blank (by decide), Text.words, List.append_nil]

/-- Of what is left of a script, the pieces between the line feeds are read one by one. -/
theorem ofScript_eq (text : List Char) :
    ofScript text = (Text.splitOn '\n' (stripComments text)).filterMap (ofWords ∘ Text.words) := by
  calc ofScript text
      _ = ((Text.lines (stripComments text)).map stripComments).filterMap
          (ofWords ∘ Text.words) := by
        rw [List.filterMap_map]; rfl
      _ = (Text.lines (stripComments text)).filterMap (ofWords ∘ Text.words) := by
        rw [map_stripComments_lines]
      _ = _ := Text.filterMap_lines rfl ofWords_carriage_return _

theorem ofScript_append_feed (closed : ¬ LeavesOpen text) (rest : List Char) :
    ofScript (text ++ '\n' :: rest) = ofScript text ++ ofScript rest := by
  simp only [ofScript_eq, stripComments_append_feed closed, Text.splitOn_append,
    List.filterMap_append]

theorem ofScript_of_notMem (line : '\n' ∉ text) : ofScript text = (ofLine text).toList := by
  have single : '\n' ∉ stripComments text := fun member =>
    line ((mem_of_mem_stripFrom _ text _ member).resolve_left (by decide))
  rw [ofScript_eq, Text.splitOn_of_notMem single, ofLine, List.filterMap_cons, Function.comp_apply]
  cases ofWords (Text.words (stripComments text)) <;> rfl

theorem ofScript_intercalate (lines : List (List Char))
    (each : ∀ line ∈ lines, '\n' ∉ line ∧ ¬ LeavesOpen line) :
    ofScript (['\n'].intercalate lines) = lines.filterMap ofLine := by
  induction lines with
  | nil => rfl
  | cons line others ih =>
    obtain ⟨⟨single, closed⟩, each⟩ := List.forall_mem_cons.mp each
    have first : [line].filterMap ofLine = (ofLine line).toList := by
      cases read : ofLine line <;> simp [read]
    cases others with
    | nil => rw [List.intercalate_singleton, ofScript_of_notMem single, first]
    | cons next others =>
      rw [List.intercalate_cons_cons, List.append_assoc, List.singleton_append,
        ofScript_append_feed closed, ih each, ofScript_of_notMem single, ← first,
        ← List.filterMap_append, List.singleton_append]

/-- A line feed outside of block comments divides a script into two that are read apart. A script
whose lines leave no block comment open is read line by line, as the directives of the settings
are. -/
theorem ofScript_by_lines :
    (∀ front rest, ¬ LeavesOpen front →
      ofScript (front ++ '\n' :: rest) = ofScript front ++ ofScript rest) ∧
    (∀ lines : List (List Char), (∀ line ∈ lines, '\n' ∉ line ∧ ¬ LeavesOpen line) →
      ofScript (['\n'].intercalate lines) = lines.filterMap ofLine) ∧
    ∀ settings : Settings,
      (∀ line ∈ settings.directives, '\n' ∉ line.toList ∧ ¬ LeavesOpen line.toList) →
      ofScript (['\n'].intercalate (settings.directives.map String.toList)) =
        settings.parsedDirectives := by
  refine ⟨fun front rest closed => ofScript_append_feed closed rest, ofScript_intercalate,
    fun settings each => ?_⟩
  rw [ofScript_intercalate _ (List.forall_mem_map.mpr each), List.filterMap_map]
  rfl

/-- A block comment that closes, a comment of a whole line with a carriage return, and the opening
of a block comment within another comment. -/
def mixed : Settings := { Settings.default with directives := ["/**/A -k:v", "//\r", "B;/*"] }

theorem ofScript_by_lines_mixed :
    (∀ line ∈ mixed.directives, '\n' ∉ line.toList ∧ ¬ LeavesOpen line.toList) ∧
    ofScript "B;/*\n//\r".toList = ofScript "B;/*".toList ++ ofScript "//\r".toList ∧
    ofScript "/**/A -k:v\n//\r\nB;/*".toList = mixed.parsedDirectives ∧
    mixed.parsedDirectives = [⟨"A", .ofList [("k", "v")]⟩, ⟨"B", .empty⟩] := by
  have plain : Clean true ['A', ' ', '-', 'k', ':', 'v'] := by
    simp [Clean, startsComment_cons, Text.isBlank]
  have block : ¬ LeavesOpen "/**/A -k:v".toList :=
    not_leavesOpen (@Reads.block [] _ _ (by decide) plain.reads) (by simp)
  have slashes : ¬ LeavesOpen "//\r".toList :=
    not_leavesOpen (@Reads.line true ['/', '/', '\r'] [] [] (by simp [OpensLine]) (by decide)
      (by simp [EndsLine]) (.done false)) (by simp)
  have semicolon : ¬ LeavesOpen "B;/*".toList :=
    not_leavesOpen (@Reads.char true 'B' [';', '/', '*'] _ (by simp [OpensLine])
      (by simp [OpensBlock]) (@Reads.line _ [';', '/', '*'] [] [] (by simp [OpensLine]) (by decide)
        (by simp [EndsLine]) (.done _))) (by simp)
  have each : ∀ line ∈ mixed.directives, '\n' ∉ line.toList ∧ ¬ LeavesOpen line.toList :=
    List.forall_mem_cons.mpr ⟨⟨by decide, block⟩, List.forall_mem_cons.mpr
      ⟨⟨by decide, slashes⟩, List.forall_mem_singleton.mpr ⟨by decide, semicolon⟩⟩⟩
  refine ⟨each, ofScript_by_lines.1 _ _ semicolon, ofScript_by_lines.2.2 mixed each, ?_⟩
  decide

end ServiceHost.Directive
