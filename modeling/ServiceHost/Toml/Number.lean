import ServiceHost.Toml.Quoted

/-! TOML numbers and moments, read from the run of characters that holds them. -/

set_option autoImplicit false

namespace ServiceHost.Toml

def isDigit (c : Char) : Bool := '0' ≤ c && c ≤ '9'

/-- Digits with single underscores between them, without the underscores. -/
def digitsWith (isOne : Char → Bool) : List Char → Option (List Char)
  | [] => none
  | [c] => if isOne c then some [c] else none
  | c :: '_' :: rest => if isOne c then (digitsWith isOne rest).map (c :: ·) else none
  | c :: rest => if isOne c then (digitsWith isOne rest).map (c :: ·) else none

def natOf (base : Nat) (digits : List Char) : Nat :=
  digits.foldl (fun sum c => base * sum + (hexValue? c).getD 0) 0

/-- Decimal digits; a zero stands in front of no other digit. -/
def decimalDigits? (text : List Char) : Option (List Char) := do
  let digits ← digitsWith isDigit text
  if text.length > 1 && text.head? == some '0' then none else some digits

def unsigned : List Char → Bool × List Char
  | '+' :: rest => (false, rest)
  | '-' :: rest => (true, rest)
  | rest => (false, rest)

/-- Integers of 128 bits: decimal with a sign or none, or hexadecimal, octal and binary without. -/
def integer? (text : List Char) : Option Int := do
  let value ← match text with
    | '0' :: 'x' :: rest =>
      (digitsWith (fun c => (hexValue? c).isSome) rest).map fun ds => Int.ofNat (natOf 16 ds)
    | '0' :: 'o' :: rest =>
      (digitsWith (fun c => '0' ≤ c && c ≤ '7') rest).map fun ds => Int.ofNat (natOf 8 ds)
    | '0' :: 'b' :: rest =>
      (digitsWith (fun c => c = '0' || c = '1') rest).map fun ds => Int.ofNat (natOf 2 ds)
    | _ =>
      let (negative, rest) := unsigned text
      (decimalDigits? rest).map fun ds => if negative then -Int.ofNat (natOf 10 ds) else natOf 10 ds
  if -0x80000000000000000000000000000000 ≤ value ∧ value < 0x100000000000000000000000000000000
  then some value else none

def exponent? (text : List Char) : Option Int :=
  let (negative, rest) := unsigned text
  (digitsWith isDigit rest).map fun ds => if negative then -Int.ofNat (natOf 10 ds) else natOf 10 ds

def splitWhere (class_ : Char → Bool) (text : List Char) : List Char × Option (List Char) :=
  match text.dropWhile (fun c => !class_ c) with
  | [] => (text, none)
  | _ :: rest => (text.takeWhile (fun c => !class_ c), some rest)

/-- The least decimal that no double is near enough to: halfway between the greatest double and
the next power of two. -/
def floatBound : Nat := Nat.pow 2 1024 - Nat.pow 2 970

/-- Whether the digits, times ten to the power, stay below the bound. -/
def isFinite (digits : List Char) (power : Int) : Bool :=
  let value := natOf 10 digits
  match power with
  -- Beyond the power 400 no digit but zero is small enough, and the product would be large.
  | .ofNat up => value = 0 || (up ≤ 400 && value * Nat.pow 10 up < floatBound)
  | .negSucc down => digits.length ≤ down || value < floatBound * Nat.pow 10 (down + 1)

/-- A number with a fraction, an exponent or both, or one of the words inf and nan. The number must
be near enough to some double. -/
def isFloat (text : List Char) : Bool :=
  let body := (unsigned text).2
  if body = ['i', 'n', 'f'] || body = ['n', 'a', 'n'] then true
  else
    let (mantissa, power) := splitWhere (fun c => c = 'e' || c = 'E') body
    let (whole, places) := splitWhere (· = '.') mantissa
    let finite := do
      let wholeDigits ← decimalDigits? whole
      let placeDigits ← (places.map (digitsWith isDigit)).getD (some [])
      let exponent ← (power.map exponent?).getD (some 0)
      some (isFinite (wholeDigits ++ placeDigits) (exponent - placeDigits.length))
    (power.isSome || places.isSome) && finite == some true

/-- The number that a run of exactly that many digits writes. -/
def field? (width : Nat) (text : List Char) : Option (Nat × List Char) :=
  let digits := text.take width
  if digits.length = width && digits.all isDigit then some (natOf 10 digits, text.drop width)
  else none

def isLeap (year : Nat) : Bool := year % 4 = 0 && (year % 100 ≠ 0 || year % 400 = 0)

def daysIn (year month : Nat) : Nat :=
  if month = 2 then (if isLeap year then 29 else 28)
  else if month = 4 || month = 6 || month = 9 || month = 11 then 30 else 31

def date? (text : List Char) : Option (List Char) := do
  let (year, rest) ← field? 4 text
  let '-' :: rest := rest | none
  let (month, rest) ← field? 2 rest
  let '-' :: rest := rest | none
  let (day, rest) ← field? 2 rest
  if 1 ≤ month && month ≤ 12 && 1 ≤ day && day ≤ daysIn year month then some rest else none

/-- A time of day, and what follows it; seconds and their fraction may be missing. -/
def time? (text : List Char) : Option (List Char) := do
  let (hour, rest) ← field? 2 text
  let ':' :: rest := rest | none
  let (minute, rest) ← field? 2 rest
  if 23 < hour || 59 < minute then none
  match rest with
  | ':' :: rest =>
    let (second, rest) ← field? 2 rest
    if 60 < second then none
    match rest with
    | '.' :: rest =>
      if (rest.takeWhile isDigit).isEmpty then none else some (rest.dropWhile isDigit)
    | _ => some rest
  | _ => some rest

def isOffset (text : List Char) : Bool :=
  match text with
  | ['Z'] | ['z'] => true
  | sign :: rest =>
    (sign = '+' || sign = '-') &&
      match field? 2 rest with
      | some (hour, ':' :: rest) =>
        match field? 2 rest with
        | some (minute, []) => hour ≤ 23 && minute ≤ 59
        | _ => false
      | _ => false
  | [] => false

/-- A date, a time, or both with an offset or without. -/
def isMoment (text : List Char) : Bool :=
  match date? text with
  | some [] => true
  | some (mark :: rest) =>
    (mark = 'T' || mark = 't' || mark = ' ') &&
      match time? rest with
      | some [] => true
      | some offset => isOffset offset
      | none => false
  | none => time? text == some []

/-- The value that a run of characters without quotes writes. -/
def bare? (text : List Char) : Option Value :=
  if text = "true".toList then some (.boolean true)
  else if text = "false".toList then some (.boolean false)
  else match integer? text with
    | some value => some (.integer value)
    | none =>
      if isFloat text then some (.float (String.ofList text))
      else if isMoment text then some (.moment (String.ofList text))
      else none

end ServiceHost.Toml
