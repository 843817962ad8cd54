/-! Spans of time and their text.

A span is written in the largest unit of s, ms, µs and ns of which it holds at
least one, with the digits of the remainder behind a point and no zero at the
end: 15s, 1.5s, 50ms, 1.5µs, 0ns. -/

set_option autoImplicit false

namespace ServiceHost

structure Duration where
  nanos : Nat
  deriving DecidableEq, Repr, Inhabited

namespace Duration

def ofMillis (millis : Nat) : Duration := ⟨millis * 1000000⟩

def ofSeconds (seconds : Nat) : Duration := ⟨seconds * 1000000000⟩

/-- The decimal digits of `rest / scale`, where `scale` is a power of ten: none if nothing is
left. -/
def fraction (scale : Nat) (rest : Nat) : List Char :=
  if rest = 0 then [] else
    let digits := Nat.toDigits 10 (scale + rest)
    '.' :: ((digits.drop 1).reverse.dropWhile (· = '0')).reverse

def inUnit (nanos : Nat) (unit : Nat) (label : String) : String :=
  toString (nanos / unit) ++ String.ofList (fraction unit (nanos % unit)) ++ label

def text (span : Duration) : String :=
  if 1000000000 ≤ span.nanos then inUnit span.nanos 1000000000 "s"
  else if 1000000 ≤ span.nanos then inUnit span.nanos 1000000 "ms"
  else if 1000 ≤ span.nanos then inUnit span.nanos 1000 "µs"
  else inUnit span.nanos 1 "ns"

end Duration

end ServiceHost
