import Mathlib.Data.List.Induction
import Mathlib.Data.Nat.Digits.Defs
import ServiceHost.Proofs.Text.Splitting
import ServiceHost.Service.Builtin

/-! Which settings of a heartbeat are numbers, and what the interval is if there is none. -/

set_option autoImplicit false

namespace ServiceHost.Builtin

/-- The number that decimal digits stand for, the first one the most significant. -/
def valueOf (digits : List Char) : Nat :=
  Nat.ofDigits 10 (digits.reverse.map fun digit => digit.toNat - '0'.toNat)

/-- A number of 64 bits in decimal digits, with or without a plus sign before them. -/
structure Spells (text : List Char) (value : Nat) : Prop where
  digits : ∃ sign digits, text = sign ++ digits ∧ (sign = [] ∨ sign = ['+']) ∧ digits ≠ [] ∧
    (∀ digit ∈ digits, digit.isDigit = true) ∧ value = valueOf digits
  fits : value < 2 ^ 64

/-- A setting that is such a number above zero, between blanks. -/
structure Denotes (raw : String) (millis : Nat) : Prop where
  blanks : ∃ front text back, raw.toList = front ++ text ++ back ∧ Spells text millis ∧
    (∀ c ∈ front, Text.isBlank c = true) ∧ ∀ c ∈ back, Text.isBlank c = true
  positive : 0 < millis

/-- The interval that a configuration asks for: the one that it sets, or else a second. -/
inductive Asks (config : Properties) : Nat → Prop where
  | written {raw : String} {millis : Nat} :
      config.get? "interval-ms" = some raw → Denotes raw millis → Asks config millis
  | unread :
      (∀ raw, config.get? "interval-ms" = some raw → ∀ millis, ¬ Denotes raw millis) →
      Asks config 1000

variable {text digits : List Char} {raw : String} {config : Properties} {value millis : Nat}

theorem foldl_digits (digits : List Char) :
    digits.foldl (fun value digit => 10 * value + (digit.toNat - '0'.toNat)) 0 =
      valueOf digits := by
  induction digits using List.reverseRecOn with
  | nil => rfl
  | append_singleton front last ih =>
    rw [List.foldl_append, ih, valueOf, valueOf, List.reverse_append, List.reverse_singleton,
      List.singleton_append, List.map_cons, Nat.ofDigits_cons, Nat.add_comm]
    rfl

theorem isBlank_eq_false_of_isDigit {c : Char} (digit : c.isDigit = true) :
    Text.isBlank c = false := by
  simp only [Char.isDigit, Bool.and_eq_true, decide_eq_true_eq, UInt32.le_iff_toNat_le] at digit
  have low : 48 ≤ c.toNat := digit.1
  have high : c.toNat ≤ 57 := digit.2
  simp only [Text.isBlank, Bool.or_eq_false_iff, Bool.and_eq_false_iff, decide_eq_false_iff_not,
    beq_eq_false_iff_ne]
  omega

/-- What the reader makes of digits. -/
def ofDigits? (digits : List Char) : Option Nat :=
  if digits.isEmpty || !digits.all Char.isDigit then none
  else if valueOf digits < 2 ^ 64 then some (valueOf digits) else none

theorem natural64?_plus (digits : List Char) : natural64? ('+' :: digits) = ofDigits? digits := by
  simp only [natural64?, foldl_digits, ofDigits?]
  rfl

theorem natural64?_plain (unsigned : text.head? ≠ some '+') : natural64? text = ofDigits? text := by
  rw [← natural64?_plus]
  cases text with
  | nil => rfl
  | cons first rest =>
    have plain : first ≠ '+' := fun same => unsigned (congrArg some same)
    simp [natural64?, plain]

theorem ofDigits?_eq_some_iff : ofDigits? digits = some value ↔
    digits ≠ [] ∧ (∀ digit ∈ digits, digit.isDigit = true) ∧ value = valueOf digits ∧
      value < 2 ^ 64 := by
  have right : (digits.isEmpty || !digits.all Char.isDigit) = false ↔
      digits ≠ [] ∧ ∀ digit ∈ digits, digit.isDigit = true := by
    simp
  rw [← and_assoc, ← right, ofDigits?]
  cases digits.isEmpty || !digits.all Char.isDigit with
  | true => simp
  | false =>
    simp only [Bool.false_eq_true, if_false, Option.ite_none_right_eq_some, Option.some.injEq,
      true_and]
    exact ⟨fun ⟨fits, same⟩ => ⟨same.symm, same ▸ fits⟩,
      fun ⟨same, fits⟩ => ⟨same ▸ fits, same.symm⟩⟩

theorem natural64?_eq_some_iff : natural64? text = some value ↔ Spells text value := by
  constructor
  · intro read
    by_cases signed : text.head? = some '+'
    · obtain ⟨rest, rfl⟩ := List.head?_eq_some_iff.mp signed
      rw [natural64?_plus] at read
      obtain ⟨nonempty, all, same, fits⟩ := ofDigits?_eq_some_iff.mp read
      exact ⟨⟨['+'], rest, rfl, .inr rfl, nonempty, all, same⟩, fits⟩
    · rw [natural64?_plain signed] at read
      obtain ⟨nonempty, all, same, fits⟩ := ofDigits?_eq_some_iff.mp read
      exact ⟨⟨[], text, rfl, .inl rfl, nonempty, all, same⟩, fits⟩
  · rintro ⟨⟨sign, digits, rfl, rfl | rfl, nonempty, all, same⟩, fits⟩
    · have unsigned : digits.head? ≠ some '+' := by
        intro plus
        exact absurd (all '+' (List.mem_of_mem_head? plus)) (by decide)
      rw [List.nil_append, natural64?_plain unsigned]
      exact ofDigits?_eq_some_iff.mpr ⟨nonempty, all, same, fits⟩
    · rw [List.singleton_append, natural64?_plus]
      exact ofDigits?_eq_some_iff.mpr ⟨nonempty, all, same, fits⟩

/-- A text that spells a number neither begins nor ends with a blank. -/
theorem Spells.solid (spells : Spells text value) :
    (∀ c ∈ text.head?, Text.isBlank c = false) ∧ ∀ c ∈ text.getLast?, Text.isBlank c = false := by
  obtain ⟨⟨sign, digits, rfl, signed, -, all, -⟩, -⟩ := spells
  have every : ∀ c ∈ sign ++ digits, Text.isBlank c = false := by
    intro c inside
    rcases List.mem_append.mp inside with plus | digit
    · rcases signed with rfl | rfl
      · cases plus
      · rw [List.mem_singleton.mp plus]
        decide
    · exact isBlank_eq_false_of_isDigit (all c digit)
  exact ⟨fun c first => every c (List.mem_of_mem_head? first),
    fun c last => every c (List.mem_of_mem_getLast? last)⟩

theorem denotes_iff :
    Denotes raw millis ↔ natural64? (Text.trim raw.toList) = some millis ∧ 0 < millis := by
  rw [natural64?_eq_some_iff]
  constructor
  · rintro ⟨⟨front, text, back, whole, spells, before, behind⟩, positive⟩
    rw [whole, Text.trim_append before behind spells.solid.1 spells.solid.2]
    exact ⟨spells, positive⟩
  · rintro ⟨spells, positive⟩
    obtain ⟨front, back, whole, before, behind⟩ := Text.exists_trim_append raw.toList
    exact ⟨⟨front, _, back, whole, spells, before, behind⟩, positive⟩

theorem interval_of_denotes (set_ : config.get? "interval-ms" = some raw)
    (denotes : Denotes raw millis) : interval config = millis := by
  obtain ⟨read, positive⟩ := denotes_iff.mp denotes
  rw [interval, set_, Option.bind_some, read]
  exact if_neg (Nat.ne_of_gt positive)

theorem interval_of_unread
    (unread : ∀ raw, config.get? "interval-ms" = some raw → ∀ millis, ¬ Denotes raw millis) :
    interval config = 1000 := by
  unfold interval
  split
  · rename_i millis read
    obtain ⟨raw, set_, number⟩ := Option.bind_eq_some_iff.mp read
    split
    · rfl
    · rename_i positive
      exact absurd (denotes_iff.mpr ⟨number, Nat.pos_of_ne_zero positive⟩) (unread raw set_ millis)
  · rfl

/-- The interval is the one that is asked for, and there is always exactly one. -/
theorem asks_iff : Asks config millis ↔ interval config = millis := by
  constructor
  · intro asks
    cases asks with
    | written set_ denotes => exact interval_of_denotes set_ denotes
    | unread unread => exact interval_of_unread unread
  · rintro rfl
    by_cases read : ∃ raw, config.get? "interval-ms" = some raw ∧ ∃ millis, Denotes raw millis
    · obtain ⟨raw, set_, millis, denotes⟩ := read
      rw [interval_of_denotes set_ denotes]
      exact .written set_ denotes
    · have unread : ∀ raw, config.get? "interval-ms" = some raw → ∀ millis, ¬ Denotes raw millis :=
        fun raw set_ millis denotes => read ⟨raw, set_, millis, denotes⟩
      rw [interval_of_unread unread]
      exact .unread unread

theorem interval_pos (config : Properties) : 0 < interval config := by
  have asks : Asks config (interval config) := asks_iff.mpr rfl
  generalize interval config = millis at asks
  cases asks with
  | written _ denotes => exact denotes.positive
  | unread => decide

end ServiceHost.Builtin
