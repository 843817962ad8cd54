/-! UTF-8: bytes of a text, and texts in bytes.

Bytes that are no UTF-8 fall into broken pieces: a piece is the longest start of a
character that the next byte does not continue, or a single byte that starts none. -/

set_option autoImplicit false

namespace ServiceHost

/-- Raw bytes, such as the code of a service. -/
abbrev Blob := List UInt8

namespace Text

def toBytes (text : String) : Blob := text.toUTF8.toList

def isTrail (b : UInt8) : Bool := 0x80 ≤ b && b ≤ 0xBF

/-- Bytes that may follow the first byte of a character of three bytes. -/
def secondOfThree (a b : UInt8) : Bool :=
  if a = 0xE0 then 0xA0 ≤ b && b ≤ 0xBF
  else if a = 0xED then 0x80 ≤ b && b ≤ 0x9F
  else isTrail b

/-- Bytes that may follow the first byte of a character of four bytes. -/
def secondOfFour (a b : UInt8) : Bool :=
  if a = 0xF0 then 0x90 ≤ b && b ≤ 0xBF
  else if a = 0xF4 then 0x80 ≤ b && b ≤ 0x8F
  else isTrail b

/-- The six bits that a trailing byte carries. -/
def low (b : UInt8) : Nat := b.toNat % 64

/-- The characters in order, none for each broken piece. -/
def decode : Blob → List (Option Char)
  | [] => []
  | a :: rest =>
    if a < 0x80 then some (Char.ofNat a.toNat) :: decode rest
    else if 0xC2 ≤ a && a ≤ 0xDF then
      match rest with
      | b :: tail =>
        if isTrail b then some (Char.ofNat (a.toNat % 32 * 64 + low b)) :: decode tail
        else none :: decode (b :: tail)
      | [] => [none]
    else if 0xE0 ≤ a && a ≤ 0xEF then
      match rest with
      | b :: c :: tail =>
        if secondOfThree a b then
          if isTrail c then
            some (Char.ofNat ((a.toNat % 16 * 64 + low b) * 64 + low c)) :: decode tail
          else none :: decode (c :: tail)
        else none :: decode (b :: c :: tail)
      | [b] => if secondOfThree a b then [none] else none :: decode [b]
      | [] => [none]
    else if 0xF0 ≤ a && a ≤ 0xF4 then
      match rest with
      | b :: c :: d :: tail =>
        if secondOfFour a b then
          if isTrail c then
            if isTrail d then
              some (Char.ofNat (((a.toNat % 8 * 64 + low b) * 64 + low c) * 64 + low d)) ::
                decode tail
            else none :: decode (d :: tail)
          else none :: decode (c :: d :: tail)
        else none :: decode (b :: c :: d :: tail)
      | [b, c] =>
        if secondOfFour a b then if isTrail c then [none] else none :: decode [c]
        else none :: decode [b, c]
      | [b] => if secondOfFour a b then [none] else none :: decode [b]
      | [] => [none]
    else none :: decode rest

/-- The text that the bytes write, if all of them are UTF-8. -/
def ofBytes? (bytes : Blob) : Option String := ((decode bytes).mapM id).map String.ofList

/-- The text with the replacement character for each broken piece. -/
def ofBytesLossy (bytes : Blob) : String :=
  String.ofList ((decode bytes).map fun c => c.getD (Char.ofNat 0xFFFD))

end Text

end ServiceHost
