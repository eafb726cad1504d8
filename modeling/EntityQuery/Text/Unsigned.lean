/-!
# Unsigned numbers of bounded size

Lengths, precisions and counts are read from decimal digits, with at most one
plus sign before them. A number that does not fit its width is no number.
-/

namespace EntityQuery.Text

/-- The value of decimal digits, the most significant first. -/
def digitsValue (digits : List Char) : Nat :=
  digits.foldl (fun value c => 10 * value + (c.toNat - '0'.toNat)) 0

/-- Read a number below a bound from ASCII digits after an optional plus sign. -/
def unsignedChars? (bound : Nat) (chars : List Char) : Option Nat :=
  let digits := match chars with
    | '+' :: rest => rest
    | _ => chars
  if digits ≠ [] ∧ digits.all Char.isDigit ∧ digitsValue digits < bound then
    some (digitsValue digits)
  else
    none

/-- Read an 8-bit number. -/
def uint8? (text : String) : Option UInt8 :=
  (unsignedChars? UInt8.size text.toList).map UInt8.ofNat

/-- Read a 32-bit number. -/
def uint32? (text : String) : Option UInt32 :=
  (unsignedChars? UInt32.size text.toList).map UInt32.ofNat

/-- Read a 64-bit number. -/
def uint64? (text : String) : Option UInt64 :=
  (unsignedChars? UInt64.size text.toList).map UInt64.ofNat

end EntityQuery.Text
