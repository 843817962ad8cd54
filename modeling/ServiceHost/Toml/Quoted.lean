import ServiceHost.Toml.Value

/-! The four kinds of quoted TOML text.

Control characters other than the tab stand in no text; a text in three quotes may
hold line ends, which read as one line feed. A run of quotes that closes a text in
three quotes may put up to two of its quotes into the text. -/

set_option autoImplicit false

namespace ServiceHost.Toml

/-- Characters that may stand in comments and texts as they are. -/
def isPlain (c : Char) : Bool := c = '\t' || (0x20 ≤ c.toNat && c.toNat ≠ 0x7F)

def isGap (c : Char) : Bool := c = ' ' || c = '\t'

def hexValue? (c : Char) : Option Nat :=
  if '0' ≤ c ∧ c ≤ '9' then some (c.toNat - 0x30)
  else if 'a' ≤ c ∧ c ≤ 'f' then some (c.toNat - 0x57)
  else if 'A' ≤ c ∧ c ≤ 'F' then some (c.toNat - 0x37)
  else none

/-- The character with the code point that the hexadecimal digits write, surrogates excluded. -/
def codePoint? (digits : List Char) : Option Char := do
  let values ← digits.mapM hexValue?
  let code := values.foldl (fun sum digit => 16 * sum + digit) 0
  if h : code.isValidChar then some (Char.ofNatAux code h) else none

def shortEscape? : Char → Option Char
  | 'b' => some '\x08'
  | 't' => some '\t'
  | 'n' => some '\n'
  | 'f' => some '\x0c'
  | 'r' => some '\r'
  | 'e' => some '\x1b'
  | '"' => some '"'
  | '\\' => some '\\'
  | _ => none

def andThen (c : Char) (tail : Option (List Char × List Char)) : Option (List Char × List Char) :=
  tail.map fun (text, rest) => (c :: text, rest)

/-- A text in double quotes, behind the opening quote. -/
def basic : Reader (List Char)
  | [] => none
  | '"' :: rest => some ([], rest)
  | '\\' :: 'x' :: a :: b :: rest => do andThen (← codePoint? [a, b]) (basic rest)
  | '\\' :: 'u' :: a :: b :: c :: d :: rest => do andThen (← codePoint? [a, b, c, d]) (basic rest)
  | '\\' :: 'U' :: a :: b :: c :: d :: e :: f :: g :: h :: rest => do
    andThen (← codePoint? [a, b, c, d, e, f, g, h]) (basic rest)
  | '\\' :: c :: rest => do andThen (← shortEscape? c) (basic rest)
  | c :: rest => if isPlain c then andThen c (basic rest) else none

/-- A text in single quotes, behind the opening quote. -/
def literal : Reader (List Char)
  | [] => none
  | '\'' :: rest => some ([], rest)
  | c :: rest => if isPlain c then andThen c (literal rest) else none

def endsLine (text : List Char) : Bool :=
  match text.dropWhile isGap with
  | '\n' :: _ => true
  | '\r' :: '\n' :: _ => true
  | _ => false

/-- A text in three double quotes, behind its opening. While `skipping`, blanks and line ends are
dropped: a backslash at the end of a line joins it with the next one that is not blank. -/
def longBasic : Bool → Reader (List Char)
  | _, [] => none
  | true, ' ' :: rest => longBasic true rest
  | true, '\t' :: rest => longBasic true rest
  | true, '\n' :: rest => longBasic true rest
  | true, '\r' :: '\n' :: rest => longBasic true rest
  | _, '"' :: '"' :: '"' :: '"' :: '"' :: rest => some (['"', '"'], rest)
  | _, '"' :: '"' :: '"' :: '"' :: rest => some (['"'], rest)
  | _, '"' :: '"' :: '"' :: rest => some ([], rest)
  | _, '\\' :: 'x' :: a :: b :: rest => do andThen (← codePoint? [a, b]) (longBasic false rest)
  | _, '\\' :: 'u' :: a :: b :: c :: d :: rest => do
    andThen (← codePoint? [a, b, c, d]) (longBasic false rest)
  | _, '\\' :: 'U' :: a :: b :: c :: d :: e :: f :: g :: h :: rest => do
    andThen (← codePoint? [a, b, c, d, e, f, g, h]) (longBasic false rest)
  | _, '\\' :: c :: rest =>
    if endsLine (c :: rest) then
      if c = '\r' || c = '\n' || isGap c then longBasic true rest else none
    else do andThen (← shortEscape? c) (longBasic false rest)
  | _, '\r' :: '\n' :: rest => andThen '\n' (longBasic false rest)
  | _, c :: rest => if c = '\n' || isPlain c then andThen c (longBasic false rest) else none

/-- A text in three single quotes, behind its opening. -/
def longLiteral : Reader (List Char)
  | [] => none
  | '\'' :: '\'' :: '\'' :: '\'' :: '\'' :: rest => some (['\'', '\''], rest)
  | '\'' :: '\'' :: '\'' :: '\'' :: rest => some (['\''], rest)
  | '\'' :: '\'' :: '\'' :: rest => some ([], rest)
  | '\r' :: '\n' :: rest => andThen '\n' (longLiteral rest)
  | c :: rest => if c = '\n' || isPlain c then andThen c (longLiteral rest) else none

/-- A line end right behind the opening of a text in three quotes is no part of the text. -/
def dropLineEnd : List Char → List Char
  | '\n' :: rest => rest
  | '\r' :: '\n' :: rest => rest
  | rest => rest

def quoted : Reader (List Char)
  | '"' :: '"' :: '"' :: rest => longBasic false (dropLineEnd rest)
  | '"' :: rest => basic rest
  | '\'' :: '\'' :: '\'' :: rest => longLiteral (dropLineEnd rest)
  | '\'' :: rest => literal rest
  | _ => none

end ServiceHost.Toml
