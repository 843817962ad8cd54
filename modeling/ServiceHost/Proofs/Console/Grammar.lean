import ServiceHost.Console.Command
import ServiceHost.Proofs.Text.Splitting

/-! The grammar of console lines: which lines are commands, which command a line is, and that a
command is read back from every way of writing it.
-/

set_option autoImplicit false

namespace ServiceHost.Console

/-! ## Lines and their parts -/

/-- The words a command goes by, in small letters. -/
def Command.words : Command → List String
  | list => ["list", "ls"]
  | state _ => ["state"]
  | add _ => ["add"]
  | pause _ => ["pause"]
  | resume _ => ["resume"]
  | remove _ => ["remove", "rm"]
  | kill _ => ["kill"]
  | shutdown => ["shutdown"]
  | help => ["help", "?"]
  | quit => ["quit", "exit"]

/-- The word is the verb, each ASCII letter in either case. -/
def Spells (word : List Char) (verb : String) : Prop :=
  List.Forall₂ (fun written letter => written = letter ∨ written = letter.toUpper) word verb.toList

/-- The first word of a line, and what follows it. -/
structure Opens (line word rest : List Char) : Prop where
  whole : ∃ front, line = front ++ (word ++ rest) ∧ ∀ c ∈ front, Text.isBlank c = true
  nonempty : word ≠ []
  solid : ∀ c ∈ word, Text.isBlank c = false
  ends : ∀ c ∈ rest.head?, Text.isBlank c = true

/-- A text with something in it and no blanks around it. -/
structure Bare (text : List Char) : Prop where
  nonempty : text ≠ []
  first : ∀ c ∈ text.head?, Text.isBlank c = false
  last : ∀ c ∈ text.getLast?, Text.isBlank c = false

/-- The argument is all of the text but for the blanks around it. -/
structure Encloses (text argument : List Char) : Prop where
  whole : ∃ front back, text = front ++ argument ++ back ∧
    (∀ c ∈ front, Text.isBlank c = true) ∧ ∀ c ∈ back, Text.isBlank c = true
  bare : Bare argument

/-- The line is this command: its first word is one the command goes by and, if the command takes
an argument, what follows holds it. -/
def Phrases (command : Command) (line : List Char) : Prop :=
  ∃ word rest, Opens line word rest ∧ (∃ verb ∈ command.words, Spells word verb) ∧
    ∀ argument, command.argument? = some argument → Encloses rest argument.toList

/-- What is wrong with a line: its first word is a verb with nothing behind it where an argument is
needed, or no verb at all. -/
inductive Faults : CommandError → List Char → Prop where
  | missing {line word rest : List Char} {command : Command} {verb : String} :
      Opens line word rest → verb ∈ command.words → Spells word verb →
      command.argument? ≠ none → (∀ c ∈ rest, Text.isBlank c = true) →
      Faults (.missingArgument (String.ofList word)) line
  | unknown {line word rest : List Char} :
      Opens line word rest → (∀ command : Command, ∀ verb ∈ command.words, ¬ Spells word verb) →
      Faults (.unknown (String.ofList (Text.lowerAscii word))) line

variable {line word rest gap : List Char} {command : Command} {verb argument : String}

theorem exists_opens (written : ¬ ∀ c ∈ line, Text.isBlank c = true) :
    ∃ word rest, Opens line word rest := by
  have whole : line.takeWhile Text.isBlank ++ line.dropWhile Text.isBlank = line :=
    List.takeWhile_append_dropWhile
  have front : ∀ c ∈ line.takeWhile Text.isBlank, Text.isBlank c = true :=
    fun c inside => List.mem_takeWhile_imp inside
  have solid := List.head?_dropWhile_not Text.isBlank line
  cases found : line.dropWhile Text.isBlank with
  | nil => exact absurd (List.dropWhile_eq_nil_iff.mp found) written
  | cons first tail =>
    rw [found] at whole solid
    have own : Text.isBlank first = false := by simpa using solid
    refine ⟨first :: tail.takeWhile fun c => !Text.isBlank c,
      tail.dropWhile fun c => !Text.isBlank c, ⟨_, ?_, front⟩, by simp, ?_, fun c next => ?_⟩
    · rw [List.cons_append, List.takeWhile_append_dropWhile, whole]
    · refine List.forall_mem_cons.mpr ⟨own, fun c inside => ?_⟩
      simpa using List.mem_takeWhile_imp inside
    · have stop := List.head?_dropWhile_not (fun c => !Text.isBlank c) tail
      rw [Option.mem_def.mp next] at stop
      simpa using stop

theorem Opens.written (opens : Opens line word rest) : ¬ ∀ c ∈ line, Text.isBlank c = true := by
  intro blank
  obtain ⟨front, rfl, -⟩ := opens.whole
  obtain ⟨first, tail, rfl⟩ := List.exists_cons_of_ne_nil opens.nonempty
  have solid := opens.solid first List.mem_cons_self
  rw [blank first (by simp)] at solid
  cases solid

theorem Opens.trim_eq (opens : Opens line word rest) :
    Text.trim line = word ++ Text.trimEnd rest := by
  obtain ⟨front, rfl, blank⟩ := opens.whole
  have first : ∀ c ∈ (word ++ rest).head?, Text.isBlank c = false := by
    obtain ⟨c, tail, rfl⟩ := List.exists_cons_of_ne_nil opens.nonempty
    simpa using opens.solid c List.mem_cons_self
  rw [Text.trim, Text.trimStart, Text.dropWhile_isBlank_append blank first,
    Text.trimEnd_append opens.solid]

/-- Cut at its first blank, a trimmed line falls into its first word and what follows it. -/
theorem Opens.cut_trim (opens : Opens line word rest) :
    ∃ tail, (Text.cut Text.isBlank (Text.trim line)).getD (Text.trim line, []) = (word, tail) ∧
      Text.trim tail = Text.trim rest := by
  obtain ⟨back, whole, blank⟩ := Text.exists_trimEnd_append rest
  rw [opens.trim_eq]
  cases found : Text.trimEnd rest with
  | nil =>
    rw [found, List.nil_append] at whole
    subst whole
    refine ⟨[], ?_, ((Text.trim_eq_nil_iff rest).mpr blank).symm⟩
    rw [List.append_nil, Text.cut_eq_none opens.solid, Option.getD_none]
  | cons c tail =>
    rw [found] at whole
    have stop : Text.isBlank c = true := opens.ends c (by rw [whole]; rfl)
    refine ⟨tail, ?_, ?_⟩
    · rw [Text.cut_append opens.solid stop, Option.getD_some]
    · have first : ∀ d ∈ [c], Text.isBlank d = true := by simpa using stop
      have around : Text.trim ([c] ++ tail ++ back) = Text.trim tail := Text.trim_blanks first blank
      rw [← around, whole]
      rfl

theorem encloses_iff {inner : List Char} :
    Encloses rest inner ↔ Text.trim rest = inner ∧ inner ≠ [] := by
  constructor
  · rintro ⟨⟨front, back, rfl, before, behind⟩, nonempty, first, last⟩
    exact ⟨Text.trim_append before behind first last, nonempty⟩
  · rintro ⟨rfl, nonempty⟩
    exact ⟨Text.exists_trim_append rest, nonempty, Text.head?_trim rest, Text.getLast?_trim rest⟩

/-! ## Verbs -/

theorem toNat_toLower (c : Char) :
    c.toLower.toNat = if 65 ≤ c.toNat ∧ c.toNat ≤ 90 then c.toNat + 32 else c.toNat := by
  have capital : (c.val ≥ 'A'.val ∧ c.val ≤ 'Z'.val) ↔ 65 ≤ c.toNat ∧ c.toNat ≤ 90 := by
    rw [ge_iff_le, UInt32.le_iff_toNat_le, UInt32.le_iff_toNat_le]
    rfl
  unfold Char.toLower
  split
  · rename_i letter
    have bound : c.val.toNat ≤ 90 := (capital.mp letter).2
    rw [if_pos (capital.mp letter), Char.toNat, UInt32.toNat_add, Char.toNat,
      show ('a'.val - 'A'.val).toNat = 32 from rfl]
    omega
  · rename_i other
    rw [if_neg fun letter => other (capital.mpr letter)]

theorem toNat_toUpper (c : Char) :
    c.toUpper.toNat = if 97 ≤ c.toNat ∧ c.toNat ≤ 122 then c.toNat - 32 else c.toNat := by
  have small : ('a'.val ≤ c.val ∧ c.val ≤ 'z'.val) ↔ 97 ≤ c.toNat ∧ c.toNat ≤ 122 := by
    rw [UInt32.le_iff_toNat_le, UInt32.le_iff_toNat_le]
    rfl
  unfold Char.toUpper
  split
  · rename_i letter
    have bounds : 97 ≤ c.val.toNat ∧ c.val.toNat ≤ 122 := small.mp letter
    rw [if_pos (small.mp letter), Char.toNat, UInt32.toNat_add, Char.toNat,
      show ('A'.val - 'a'.val).toNat = 4294967264 from rfl]
    omega
  · rename_i other
    rw [if_neg fun letter => other (small.mpr letter)]

theorem toLower_eq_iff {c letter : Char} (small : letter.toLower = letter) :
    c.toLower = letter ↔ c = letter ∨ c = letter.toUpper := by
  rw [← Char.toNat_inj, toNat_toLower] at small
  rw [← Char.toNat_inj, ← Char.toNat_inj, ← Char.toNat_inj, toNat_toLower, toNat_toUpper]
  split_ifs at small ⊢ <;> omega

/-- No verb has a capital letter. -/
theorem toLower_of_mem_words (known : verb ∈ command.words) :
    ∀ letter ∈ verb.toList, letter.toLower = letter := by
  have small : ∀ verb ∈ command.words,
      verb.toList.all (fun letter => letter.toLower == letter) := by
    cases command <;> simp only [Command.words] <;> decide
  simpa using small verb known

/-- The spellings of a verb are what becomes the verb in small letters. -/
theorem spells_iff (known : verb ∈ command.words) :
    Spells word verb ↔ String.ofList (Text.lowerAscii word) = verb := by
  have small := toLower_of_mem_words known
  rw [← String.toList_inj, String.toList_ofList, Spells, Text.lowerAscii]
  generalize verb.toList = letters at small
  induction letters generalizing word with
  | nil => simp
  | cons letter rest ih =>
    obtain ⟨own, small⟩ := List.forall_mem_cons.mp small
    cases word with
    | nil => simp
    | cons c tail =>
      have onward : _ ↔ tail.map Char.toLower = rest := ih small
      rw [List.forall₂_cons, List.map_cons, List.cons.injEq, toLower_eq_iff own, onward]

theorem Command.ofVerb_of_complete (known : verb ∈ command.words)
    (complete : command.argument? = none) : ofVerb verb = some (.inl command) := by
  cases command with
  | list | help | quit =>
    obtain rfl | rfl : verb = _ ∨ verb = _ := by simpa [words] using known
    all_goals rfl
  | shutdown =>
    obtain rfl : verb = _ := by simpa [words] using known
    rfl
  | state | add | pause | resume | remove | kill => cases complete

theorem Command.ofVerb_of_waiting (known : verb ∈ command.words)
    (takes : command.argument? = some argument) :
    ∃ make, ofVerb verb = some (.inr make) ∧ make argument = command := by
  cases command with
  | list | help | quit | shutdown => cases takes
  | remove id =>
    cases takes
    obtain rfl | rfl : verb = _ ∨ verb = _ := by simpa [words] using known
    all_goals exact ⟨remove, rfl, rfl⟩
  | state | add | pause | resume | kill =>
    cases takes
    obtain rfl : verb = _ := by simpa [words] using known
    exact ⟨_, rfl, rfl⟩

theorem Command.of_ofVerb_inl (found : ofVerb verb = some (.inl command)) :
    verb ∈ command.words ∧ command.argument? = none := by
  revert found
  fun_cases ofVerb verb <;> rintro ⟨⟩ <;> simp [words, argument?]

theorem Command.of_ofVerb_inr {make : String → Command} (found : ofVerb verb = some (.inr make))
    (argument : String) :
    verb ∈ (make argument).words ∧ (make argument).argument? = some argument := by
  revert found
  fun_cases ofVerb verb <;> rintro ⟨⟩ <;> simp [words, argument?]

/-! ## Reading -/

/-- What is read from a first word and what follows it. -/
def readParts (word rest : List Char) : Except CommandError (Option Command) :=
  match Command.ofVerb (String.ofList (Text.lowerAscii word)) with
  | some (.inl command) => .ok (some command)
  | some (.inr make) =>
    if (Text.trim rest).isEmpty then .error (.missingArgument (String.ofList word))
    else .ok (some (make (String.ofList (Text.trim rest))))
  | none => .error (.unknown (String.ofList (Text.lowerAscii word)))

theorem Command.read_of_blank {text : String} (blank : ∀ c ∈ text.toList, Text.isBlank c = true) :
    read text = .ok none := by
  rw [read, (Text.trim_eq_nil_iff _).mpr blank]

theorem Command.read_of_opens {text : String} (opens : Opens text.toList word rest) :
    read text = readParts word rest := by
  obtain ⟨tail, parts, same⟩ := opens.cut_trim
  cases trimmed : Text.trim text.toList with
  | nil => exact absurd ((Text.trim_eq_nil_iff _).mp trimmed) opens.written
  | cons c others =>
    rw [trimmed] at parts
    rw [read, trimmed]
    dsimp only
    rw [parts]
    dsimp only
    rw [same]
    rfl

theorem readParts_eq_some_iff : readParts word rest = .ok (some command) ↔
    (∃ verb ∈ command.words, Spells word verb) ∧
      ∀ argument, command.argument? = some argument → Encloses rest argument.toList := by
  constructor
  · intro answer
    revert answer
    fun_cases readParts word rest with
    | case1 found verb =>
      rintro ⟨⟩
      obtain ⟨known, complete⟩ := Command.of_ofVerb_inl verb
      exact ⟨⟨_, known, (spells_iff known).mpr rfl⟩, by simp [complete]⟩
    | case2 => rintro ⟨⟩
    | case3 make verb written =>
      rintro ⟨⟩
      obtain ⟨known, takes⟩ := Command.of_ofVerb_inr verb (String.ofList (Text.trim rest))
      refine ⟨⟨_, known, (spells_iff known).mpr rfl⟩, fun argument taken => ?_⟩
      obtain rfl := Option.some.inj (takes.symm.trans taken)
      rw [String.toList_ofList]
      exact encloses_iff.mpr ⟨rfl, by simpa using written⟩
    | case4 => rintro ⟨⟩
  · rintro ⟨⟨verb, known, spelt⟩, holds⟩
    obtain rfl := (spells_iff known).mp spelt
    cases taken : command.argument? with
    | none => rw [readParts, Command.ofVerb_of_complete known taken]
    | some argument =>
      obtain ⟨make, found, rfl⟩ := Command.ofVerb_of_waiting known taken
      obtain ⟨same, nonempty⟩ := encloses_iff.mp (holds argument taken)
      rw [readParts, found]
      simp [same, nonempty]

theorem readParts_ne_none : readParts word rest ≠ .ok none := by
  fun_cases readParts word rest <;> rintro ⟨⟩

theorem faults_of_readParts {problem : CommandError} (opens : Opens line word rest)
    (answer : readParts word rest = .error problem) : Faults problem line := by
  revert answer
  fun_cases readParts word rest with
  | case1 => rintro ⟨⟩
  | case2 make found empty =>
    rintro ⟨⟩
    obtain ⟨known, takes⟩ := Command.of_ofVerb_inr found ""
    have blank := (Text.trim_eq_nil_iff rest).mp (by simpa using empty)
    exact .missing opens known ((spells_iff known).mpr rfl) (by simp [takes]) blank
  | case3 => rintro ⟨⟩
  | case4 found =>
    rintro ⟨⟩
    refine .unknown opens fun command verb known spelt => ?_
    obtain rfl := (spells_iff known).mp spelt
    cases taken : command.argument? with
    | none => cases found.symm.trans (Command.ofVerb_of_complete known taken)
    | some argument =>
      obtain ⟨make, there, -⟩ := Command.ofVerb_of_waiting known taken
      cases found.symm.trans there

theorem Faults.read {problem : CommandError} {text : String} (faults : Faults problem text.toList) :
    Command.read text = .error problem := by
  generalize same : text.toList = line at faults
  cases faults with
  | @missing _ word rest command verb opens known spelt takes blank =>
    obtain rfl := (spells_iff known).mp spelt
    obtain ⟨argument, taken⟩ := Option.ne_none_iff_exists'.mp takes
    obtain ⟨make, found, -⟩ := Command.ofVerb_of_waiting known taken
    rw [Command.read_of_opens (same ▸ opens), readParts, found,
      (Text.trim_eq_nil_iff rest).mpr blank]
    rfl
  | @unknown _ word rest opens strange =>
    rw [Command.read_of_opens (same ▸ opens), readParts]
    split
    · rename_i command found
      have known := (Command.of_ofVerb_inl found).1
      exact absurd ((spells_iff known).mpr rfl) (strange _ _ known)
    · rename_i make found
      have known := (Command.of_ofVerb_inr found "").1
      exact absurd ((spells_iff known).mpr rfl) (strange _ _ known)
    · rfl

theorem Command.read_eq_none_iff {text : String} :
    read text = .ok none ↔ ∀ c ∈ text.toList, Text.isBlank c = true := by
  refine ⟨fun answer => ?_, read_of_blank⟩
  by_contra written
  obtain ⟨word, rest, opens⟩ := exists_opens written
  exact readParts_ne_none ((read_of_opens opens).symm.trans answer)

theorem Command.read_eq_some_iff {text : String} :
    read text = .ok (some command) ↔ Phrases command text.toList := by
  constructor
  · intro answer
    by_cases blank : ∀ c ∈ text.toList, Text.isBlank c = true
    · cases (read_of_blank blank).symm.trans answer
    · obtain ⟨word, rest, opens⟩ := exists_opens blank
      rw [read_of_opens opens] at answer
      exact ⟨word, rest, opens, readParts_eq_some_iff.mp answer⟩
  · rintro ⟨word, rest, opens, phrased⟩
    rw [read_of_opens opens]
    exact readParts_eq_some_iff.mpr phrased

theorem Command.read_eq_error_iff {text : String} {problem : CommandError} :
    read text = .error problem ↔ Faults problem text.toList := by
  refine ⟨fun answer => ?_, Faults.read⟩
  by_cases blank : ∀ c ∈ text.toList, Text.isBlank c = true
  · cases (read_of_blank blank).symm.trans answer
  · obtain ⟨word, rest, opens⟩ := exists_opens blank
    exact faults_of_readParts opens ((read_of_opens opens).symm.trans answer)

/-! ## Writing -/

/-- A command written with this word for its verb and, if it takes an argument, this gap before
the argument. -/
def Command.written (command : Command) (word gap : List Char) : List Char :=
  match command.argument? with
  | none => word
  | some argument => word ++ gap ++ argument.toList

theorem solid_of_mem_words (known : verb ∈ command.words) : verb.toList ≠ [] ∧
    ∀ letter ∈ verb.toList,
      Text.isBlank letter = false ∧ Text.isBlank letter.toUpper = false := by
  have solid : ∀ verb ∈ command.words, verb.toList ≠ [] ∧
      verb.toList.all (fun letter => !Text.isBlank letter && !Text.isBlank letter.toUpper) := by
    cases command <;> simp only [Command.words] <;> decide
  simpa using solid verb known

theorem Spells.solid (known : verb ∈ command.words) (spelt : Spells word verb) :
    word ≠ [] ∧ ∀ c ∈ word, Text.isBlank c = false := by
  obtain ⟨nonempty, solid⟩ := solid_of_mem_words known
  have lowered : word.map Char.toLower = verb.toList := by
    rw [← (spells_iff known).mp spelt, String.toList_ofList, Text.lowerAscii]
  refine ⟨fun empty => nonempty (by rw [← lowered, empty, List.map_nil]), fun c inside => ?_⟩
  have there : c.toLower ∈ verb.toList := lowered ▸ List.mem_map_of_mem inside
  obtain ⟨asSmall, asCapital⟩ := solid _ there
  rcases (toLower_eq_iff (toLower_of_mem_words known _ there)).mp rfl with same | same
  · rwa [same]
  · rwa [same]

theorem phrases_written {front back : List Char} (known : verb ∈ command.words)
    (spelt : Spells word verb) (gapped : gap ≠ []) (blankGap : ∀ c ∈ gap, Text.isBlank c = true)
    (before : ∀ c ∈ front, Text.isBlank c = true) (behind : ∀ c ∈ back, Text.isBlank c = true)
    (bare : ∀ argument, command.argument? = some argument → Bare argument.toList) :
    Phrases command (front ++ command.written word gap ++ back) := by
  obtain ⟨nonempty, solid⟩ := spelt.solid known
  obtain ⟨first, more, rfl⟩ := List.exists_cons_of_ne_nil gapped
  have leading : Text.isBlank first = true := blankGap first List.mem_cons_self
  cases taken : command.argument? with
  | none =>
    have whole :
        front ++ command.written word (first :: more) ++ back = front ++ (word ++ back) := by
      simp [Command.written, taken]
    exact ⟨word, back, ⟨⟨front, whole, before⟩, nonempty, solid,
      fun c next => behind c (List.mem_of_head? next)⟩, ⟨verb, known, spelt⟩, by simp [taken]⟩
  | some argument =>
    have whole : front ++ command.written word (first :: more) ++ back =
        front ++ (word ++ (first :: more ++ argument.toList ++ back)) := by
      simp [Command.written, taken]
    have ends : ∀ c ∈ (first :: more ++ argument.toList ++ back).head?, Text.isBlank c = true := by
      simpa using leading
    refine ⟨word, _, ⟨⟨front, whole, before⟩, nonempty, solid, ends⟩,
      ⟨verb, known, spelt⟩, fun other same => ?_⟩
    obtain rfl : argument = other := Option.some.inj (taken.symm.trans same)
    exact ⟨⟨first :: more, back, rfl, blankGap, behind⟩, bare argument taken⟩

/-- Reading a console line follows its grammar exactly. Blank lines are no command, the lines of
the grammar are the commands they phrase, and every other line is refused for what is wrong with
it; and a command is read back from every way of writing it. -/
theorem read_follows_grammar :
    (∀ text, (Command.read text = .ok none ↔ ∀ c ∈ text.toList, Text.isBlank c = true) ∧
      (∀ command, Command.read text = .ok (some command) ↔ Phrases command text.toList) ∧
      (∀ problem, Command.read text = .error problem ↔ Faults problem text.toList) ∧
      ((∃ problem, Command.read text = .error problem) ↔
        (¬ ∀ c ∈ text.toList, Text.isBlank c = true) ∧
          ∀ command, ¬ Phrases command text.toList)) ∧
    ∀ (command : Command) (verb : String) (word gap front back : List Char),
      verb ∈ command.words → Spells word verb →
      gap ≠ [] → (∀ c ∈ gap, Text.isBlank c = true) →
      (∀ c ∈ front, Text.isBlank c = true) → (∀ c ∈ back, Text.isBlank c = true) →
      (∀ argument, command.argument? = some argument → Bare argument.toList) →
      Command.read (String.ofList (front ++ command.written word gap ++ back)) =
        .ok (some command) := by
  constructor
  · intro text
    refine ⟨Command.read_eq_none_iff, fun command => Command.read_eq_some_iff,
      fun problem => Command.read_eq_error_iff, ?_⟩
    simp_rw [← Command.read_eq_none_iff, ← Command.read_eq_some_iff]
    rcases Command.read text with problem | _ | command <;> simp
  · intro command verb word gap front back known spelt gapped blankGap before behind bare
    rw [Command.read_eq_some_iff, String.toList_ofList]
    exact phrases_written known spelt gapped blankGap before behind bare

theorem read_follows_grammar_padded :
    Command.read "\t AdD\u00a0 Heartbeat  -x:1 \n" = .ok (some (.add "Heartbeat  -x:1")) :=
  have known : "add" ∈ (Command.add "Heartbeat  -x:1").words := by decide
  read_follows_grammar.2 _ "add" "AdD".toList ['\u00a0', ' '] ['\t', ' '] [' ', '\n']
    known ((spells_iff known).mpr (by decide)) (by decide) (List.all_eq_true.mp (by decide))
    (List.all_eq_true.mp (by decide)) (List.all_eq_true.mp (by decide))
    (by rintro _ ⟨⟩; exact ⟨by decide, by rintro _ ⟨⟩; decide, by rintro _ ⟨⟩; decide⟩)

end ServiceHost.Console
