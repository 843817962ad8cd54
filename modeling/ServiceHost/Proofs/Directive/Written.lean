import ServiceHost.Proofs.Directive.Comment

/-! Directives as they are written.

A directive is written as its service and its options, with blanks between. What reading
gives is exactly what can be written so, and is read back from any such line: no word of
it is taken for a comment, and none is cut in another place than where it was put
together.
-/

set_option autoImplicit false

namespace ServiceHost.Directive

/-- A character that a directive can have within a word. -/
def IsSolid (c : Char) : Prop := Text.isBlank c = false ∧ c ≠ ';'

/-- A word that is no comment, nor the start of one. -/
structure IsService (service : String) : Prop where
  nonempty : service.toList ≠ []
  solid : ∀ c ∈ service.toList, IsSolid c
  plain : ¬ StartsComment service.toList

structure IsOption (option : String × String) : Prop where
  nonempty : option.1.toList ≠ []
  key : ∀ c ∈ option.1.toList, IsSolid c ∧ c ≠ ':'
  value : ∀ c ∈ option.2.toList, IsSolid c

structure WellFormed (directive : Directive) : Prop where
  service : IsService directive.service
  options : ∀ option ∈ directive.options.entries, IsOption option
  distinct : directive.options.keys.Nodup

/-- An option as it is written. -/
def written (option : String × String) : List Char :=
  '-' :: (option.1.toList ++ ':' :: option.2.toList)

/-- Words one after another, with blanks between any two. -/
inductive Spaced : List (List Char) → List Char → Prop where
  | last (word : List Char) : Spaced [word] word
  | next {gap text : List Char} {words : List (List Char)} (word : List Char) :
      gap ≠ [] → (∀ c ∈ gap, Text.isBlank c = true) → Spaced words text →
      Spaced (word :: words) (word ++ gap ++ text)

/-- A line that a directive is written in. -/
def Shows (directive : Directive) (line : List Char) : Prop :=
  Spaced (directive.service.toList :: directive.options.entries.map written) line

/-! ## Words on a line -/

section
variable {words : List (List Char)} {text : List Char}

theorem words_of_spaced (spaced : Spaced words text)
    (solid : ∀ word ∈ words, word ≠ [] ∧ ∀ c ∈ word, Text.isBlank c = false) :
    Text.words text = words := by
  induction spaced with
  | last word =>
    obtain ⟨nonempty, inside⟩ := solid word (List.mem_singleton_self word)
    exact Text.words_of_solid nonempty inside
  | @next gap text words word nonempty blanks _ ih =>
    obtain ⟨⟨own, inside⟩, others⟩ := List.forall_mem_cons.mp solid
    obtain ⟨c, gap, rfl⟩ := List.exists_cons_of_ne_nil nonempty
    obtain ⟨blank, blanks⟩ := List.forall_mem_cons.mp blanks
    rw [List.append_assoc, List.cons_append, Text.words_append_blank blank,
      Text.words_append_blanks blanks, Text.words_of_solid own inside, ih others,
      List.singleton_append]

theorem exists_spaced (word : List Char) (words : List (List Char)) :
    ∃ text, Spaced (word :: words) text := by
  induction words generalizing word with
  | nil => exact ⟨word, .last word⟩
  | cons next _ ih =>
    obtain ⟨text, spaced⟩ := ih next
    have blank : ∀ c ∈ [' '], Text.isBlank c = true := List.forall_mem_singleton.mpr (by decide)
    exact ⟨_, .next word (List.cons_ne_nil _ _) blank spaced⟩

theorem notMem_of_spaced {c : Char} (spaced : Spaced words text) (solid : Text.isBlank c = false)
    (absent : ∀ word ∈ words, c ∉ word) : c ∉ text := by
  induction spaced with
  | last word => exact absent word (List.mem_singleton_self word)
  | @next gap _ _ _ _ blanks _ ih =>
    obtain ⟨own, others⟩ := List.forall_mem_cons.mp absent
    have apart : c ∉ gap := fun member => by simp [blanks c member] at solid
    simp [own, apart, ih others]

end

/-! ## Options -/

section
variable {option : String × String} {pairs : List (String × String)} {token : List Char}

theorem IsOption.solid (own : IsOption option) : ∀ c ∈ written option, IsSolid c := by
  intro c member
  rcases List.mem_cons.mp member with rfl | member
  · exact ⟨by decide, by decide⟩
  rcases List.mem_append.mp member with inKey | member
  · exact (own.key c inKey).1
  rcases List.mem_cons.mp member with rfl | inValue
  · exact ⟨by decide, by decide⟩
  · exact own.value c inValue

theorem not_startsComment_written : ¬ StartsComment (written option) := by
  simp [written, startsComment_cons]

theorem cut_of_option? (read : option? token = some option) :
    option.1.toList ≠ [] ∧ ∃ sign body, token = sign :: body ∧
      Text.cut (· == ':') body = some (option.1.toList, option.2.toList) := by
  unfold option? at read
  split at read
  case h_3 => cases read
  all_goals
    split at read
    · rename_i found
      split at read
      · cases read
      · rename_i nonempty
        cases read
        exact ⟨by simpa using nonempty, _, _, rfl, by simpa using found⟩
    · cases read

theorem isOption_of_option? (read : option? token = some option) (solid : ∀ c ∈ token, IsSolid c) :
    IsOption option := by
  obtain ⟨nonempty, sign, body, rfl, found⟩ := cut_of_option? read
  have free := Text.eq_false_of_cut found
  obtain ⟨colon, -, rfl⟩ := Text.eq_append_of_cut found
  exact {
    nonempty
    key := fun c member => ⟨solid c (by simp [member]), by simpa using free c member⟩
    value := fun c member => solid c (by simp [member]) }

/-- An option is cut at its first colon, wherever else there are colons. -/
theorem IsOption.read (own : IsOption option) : option? (written option) = some option := by
  have found : Text.cut (· == ':') (option.1.toList ++ ':' :: option.2.toList) =
      some (option.1.toList, option.2.toList) :=
    Text.cut_separator (fun member => (own.key ':' member).2 rfl) _
  have nonempty := own.nonempty
  simp [written, option?, found, nonempty]

theorem filterMap_written (each : ∀ option ∈ pairs, IsOption option) :
    (pairs.map written).filterMap option? = pairs := by
  calc (pairs.map written).filterMap option?
      _ = pairs.filterMap (option? ∘ written) := List.filterMap_map ..
      _ = pairs.filterMap some :=
        List.filterMap_congr fun option member => (each option member).read
      _ = pairs := List.filterMap_some

end

/-! ## Lines -/

section
variable {directive : Directive} {line : List Char}

/-- Every line of blanks and of words that no comment starts in is read word by word. -/
theorem ofLine_of_spaced {service : String} {pairs : List (String × String)}
    (first : IsService service) (each : ∀ option ∈ pairs, IsOption option)
    (spaced : Spaced (service.toList :: pairs.map written) line) :
    ofLine line = some ⟨service, .ofList pairs⟩ := by
  have solid : ∀ word ∈ service.toList :: pairs.map written,
      word ≠ [] ∧ (∀ c ∈ word, IsSolid c) ∧ ¬ StartsComment word :=
    List.forall_mem_cons.mpr ⟨⟨first.nonempty, first.solid, first.plain⟩,
      List.forall_mem_map.mpr fun option member =>
        ⟨List.cons_ne_nil _ _, (each option member).solid, not_startsComment_written⟩⟩
  have words : Text.words line = service.toList :: pairs.map written :=
    words_of_spaced spaced fun word member =>
      ⟨(solid word member).1, fun c inside => ((solid word member).2.1 c inside).1⟩
  have free : CommentFree line := by
    constructor
    · exact notMem_of_spaced spaced (by decide) fun word member inside =>
        ((solid word member).2.1 _ inside).2 rfl
    · rw [words]
      exact fun word member => (solid word member).2.2
  rw [ofLine, (stripComments_eq_self_iff line).mpr free, words, ofWords, filterMap_written each,
    String.ofList_toList]

theorem WellFormed.read_back (well : directive.WellFormed) (shows : directive.Shows line) :
    ofLine line = some directive := by
  rw [ofLine_of_spaced well.service well.options shows, Table.ofList_entries]

/-- What a line holds, word by word. -/
theorem ofLine_eq_some (read : ofLine line = some directive) :
    ∃ word tokens, Text.words (stripComments line) = word :: tokens ∧
      directive = ⟨String.ofList word, .ofList (tokens.filterMap option?)⟩ := by
  unfold ofLine ofWords at read
  split at read
  · cases read
  · exact ⟨_, _, by assumption, (Option.some.inj read).symm⟩

theorem wellFormed_of_read (read : ofLine line = some directive) : directive.WellFormed := by
  obtain ⟨word, tokens, words, rfl⟩ := ofLine_eq_some read
  obtain ⟨free, plain⟩ := commentFree_stripComments line
  have solid : ∀ other ∈ word :: tokens, ∀ c ∈ other, IsSolid c := by
    rw [← words]
    intro other member c inside
    refine ⟨Text.isBlank_of_mem_words _ other member c inside, ?_⟩
    rintro rfl
    exact free (Text.mem_of_mem_words member inside)
  have own : word ∈ Text.words (stripComments line) := words ▸ List.mem_cons_self
  refine ⟨⟨?_, ?_, ?_⟩, fun option member => ?_, Table.nodup _⟩
  · simpa using Text.ne_nil_of_mem_words _ word own
  · simpa using solid word List.mem_cons_self
  · simpa using plain word own
  · obtain ⟨token, there, read⟩ := List.mem_filterMap.mp (Table.mem_of_mem_ofList member)
    exact isOption_of_option? read (solid token (List.mem_cons_of_mem _ there))

end

/-- A line holds a well-formed directive, and every line that shows a well-formed directive holds
this one: what was read is read again, however it is written. Of options with the same key, the
directive holds the last value in the place of the first. -/
theorem written_read_back :
    (∀ line directive, ofLine line = some directive → directive.WellFormed) ∧
    (∀ directive line, directive.WellFormed → directive.Shows line →
      ofLine line = some directive) ∧
    (∀ service (pairs : List (String × String)) line,
      IsService service → (∀ option ∈ pairs, IsOption option) →
      Spaced (service.toList :: pairs.map written) line →
      ∃ options, ofLine line = some ⟨service, options⟩ ∧
        options.keys = (pairs.map Prod.fst).eraseDups ∧
        ∀ key, options.get? key = pairs.reverse.lookup key) ∧
    (∀ line directive, ofLine line = some directive →
      ∃ word tokens, Text.words (stripComments line) = word :: tokens ∧
        directive.service.toList = word ∧
        directive.options.keys = ((tokens.filterMap option?).map Prod.fst).eraseDups ∧
        ∀ key, directive.options.get? key = (tokens.filterMap option?).reverse.lookup key) ∧
    ∀ line directive, ofLine line = some directive →
      (∃ again, directive.Shows again) ∧
      ∀ again, directive.Shows again → ofLine again = some directive := by
  refine ⟨fun _ _ => wellFormed_of_read, fun _ _ well shows => well.read_back shows, ?_, ?_,
    fun _ _ read => ⟨exists_spaced _ _, fun _ shows => (wellFormed_of_read read).read_back shows⟩⟩
  · intro service pairs line first each spaced
    exact ⟨_, ofLine_of_spaced first each spaced, Table.keys_ofList pairs, Table.get?_ofList pairs⟩
  · intro line directive read
    obtain ⟨word, tokens, words, rfl⟩ := ofLine_eq_some read
    exact ⟨word, tokens, words, String.toList_ofList, Table.keys_ofList _, Table.get?_ofList _⟩

/-- Slashes and colons that neither open a comment nor cut an option, and a key that comes twice. -/
theorem written_read_back_slashes :
    let line := "/ -a:1\t/b://* -a::2".toList
    let pairs := [("a", "1"), ("b", "//*"), ("a", ":2")]
    let directive : Directive := ⟨"/", .ofList [("a", ":2"), ("b", "//*")]⟩
    ofLine line = some directive ∧ directive.WellFormed ∧
      ofLine "/ -a::2\n\t-b://*".toList = some directive ∧
      IsService "/" ∧ (∀ option ∈ pairs, IsOption option) ∧
      ∃ options, ofLine "/ -a:1 -b://* -a::2".toList = some ⟨"/", options⟩ ∧
        options.keys = ["a", "b"] := by
  intro line pairs directive
  have read : ofLine line = some directive := by decide
  have service : IsService "/" := ⟨by decide, by simp [IsSolid]; decide, by simp [StartsComment]⟩
  have options : ∀ option ∈ pairs, IsOption option := by
    intro option member
    simp only [pairs, List.mem_cons, List.not_mem_nil, or_false] at member
    rcases member with rfl | rfl | rfl <;> constructor <;> simp [IsSolid] <;> decide
  have blank : ∀ c ∈ [' '], Text.isBlank c = true := List.forall_mem_singleton.mpr (by decide)
  have blanks : ∀ c ∈ ['\n', '\t'], Text.isBlank c = true :=
    List.forall_mem_cons.mpr ⟨by decide, List.forall_mem_singleton.mpr (by decide)⟩
  have again : directive.Shows "/ -a::2\n\t-b://*".toList := by
    have words : directive.service.toList :: directive.options.entries.map written =
        [['/'], ['-', 'a', ':', ':', '2'], ['-', 'b', ':', '/', '/', '*']] := by decide
    rw [Shows, words]
    exact @Spaced.next [' '] _ _ ['/'] (by simp) blank
      (@Spaced.next ['\n', '\t'] _ _ ['-', 'a', ':', ':', '2'] (by simp) blanks (.last _))
  have spaced : Spaced ("/".toList :: pairs.map written) "/ -a:1 -b://* -a::2".toList :=
    @Spaced.next [' '] _ _ ['/'] (by simp) blank
      (@Spaced.next [' '] _ _ ['-', 'a', ':', '1'] (by simp) blank
        (@Spaced.next [' '] _ _ ['-', 'b', ':', '/', '/', '*'] (by simp) blank (.last _)))
  obtain ⟨well, -, repeated, -, stable⟩ := written_read_back
  obtain ⟨kept, same, keys, -⟩ := repeated "/" pairs _ service options spaced
  exact ⟨read, well _ _ read, (stable _ _ read).2 _ again, service, options, kept, same, keys⟩

end ServiceHost.Directive
