import ServiceHost.Text.Hidden

/-! Text in double quotes: as JSON writes it, and as reports show it. -/

set_option autoImplicit false

namespace ServiceHost.Text

/-- Quotes, backslashes and control characters are escaped, with the short forms where there is
one; all else stands for itself. -/
def jsonEscape (c : Char) : List Char :=
  if c = '"' then ['\\', '"']
  else if c = '\\' then ['\\', '\\']
  else if c = '\n' then ['\\', 'n']
  else if c = '\r' then ['\\', 'r']
  else if c = '\t' then ['\\', 't']
  else if c.toNat = 0x08 then ['\\', 'b']
  else if c.toNat = 0x0C then ['\\', 'f']
  else if c.toNat < 0x20 then
    ['\\', 'u', '0', '0', Nat.digitChar (c.toNat / 16), Nat.digitChar (c.toNat % 16)]
  else [c]

def jsonString (text : String) : String :=
  String.ofList ('"' :: text.toList.flatMap jsonEscape ++ ['"'])

/-- A character inside the quotes of a report: what cannot be seen is written by its code point. -/
def reportEscape (c : Char) : List Char :=
  if c = '"' then ['\\', '"']
  else if c = '\\' then ['\\', '\\']
  else if c = '\n' then ['\\', 'n']
  else if c = '\r' then ['\\', 'r']
  else if c = '\t' then ['\\', 't']
  else if c.toNat = 0 then ['\\', '0']
  else if c.toNat < 0x20 || isHidden c then
    ['\\', 'u', '\x7b'] ++ Nat.toDigits 16 c.toNat ++ ['\x7d']
  else [c]

def report (text : String) : String :=
  String.ofList ('"' :: text.toList.flatMap reportEscape ++ ['"'])

def reportList (texts : List String) : String :=
  "[" ++ String.intercalate ", " (texts.map report) ++ "]"

end ServiceHost.Text
