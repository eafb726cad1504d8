import EntityQuery.Text.Pieces
import EntityQuery.Text.Unsigned

/-!
# Numbers

Underscores may stand between digits. Integers of at most 128 bits and floats
up to the largest double can be represented. Others are well formed too, and so
is the mark of a base without digits after it, but there is no value for them.
-/

namespace EntityQuery.Toml

/-- A well-formed number. -/
inductive Number where
  | integer (value : Int)
  /-- A float in its spelling. -/
  | float (spelling : String)
  /-- A number without a value. -/
  | unrepresentable

namespace Number

/-- Whether a number has a value. -/
def isRepresentable : Number → Bool
  | unrepresentable => false
  | integer _ | float _ => true

/-- The number of an integer, which has a value if it fits 128 bits with or
without a sign. -/
def ofInt (value : Int) : Number :=
  if -Int.pow 2 127 ≤ value ∧ value < Int.pow 2 128 then integer value else unrepresentable

/-- The digits of a number without the underscores between them. -/
def digits? (isDigit : Char → Bool) (chars : List Char) : Option (List Char) :=
  let groups := Text.pieces '_' chars
  if groups.all fun group => !group.isEmpty && group.all isDigit then some groups.flatten else none

/-- Decimal digits without a zero before another digit. -/
def whole? (chars : List Char) : Option (List Char) :=
  match digits? Char.isDigit chars with
  | some ('0' :: _ :: _) => none
  | digits => digits

/-- The value of a hexadecimal digit. -/
def hexDigit? (c : Char) : Option Nat :=
  if c.isDigit then some (c.toNat - '0'.toNat)
  else if 'a' ≤ c ∧ c ≤ 'f' then some (c.toNat - 'a'.toNat + 10)
  else if 'A' ≤ c ∧ c ≤ 'F' then some (c.toNat - 'A'.toNat + 10)
  else none

/-- The value of digits in a base of at most sixteen, the most significant first. -/
def valueIn (base : Nat) (digits : List Char) : Nat :=
  digits.foldl (fun value c => base * value + (hexDigit? c).getD 0) 0

/-- Whether a character is a digit in a base of at most sixteen. -/
def isDigitIn (base : Nat) (c : Char) : Bool := (hexDigit? c).any fun value => value < base

/-- An unsigned integer in a base other than ten, after the mark of the base. -/
def based? (base : Nat) (chars : List Char) : Option Number :=
  if chars.isEmpty then some unrepresentable
  else (digits? (isDigitIn base) chars).map fun digits => ofInt (valueIn base digits)

/-- The value of a decimal integer after its sign. -/
def decimal? (chars : List Char) : Option Int :=
  (whole? chars).map fun digits => (valueIn 10 digits : Int)

/-- The integer that characters spell. -/
def integer? : List Char → Option Number
  | '0' :: 'x' :: rest => based? 16 rest
  | '0' :: 'o' :: rest => based? 8 rest
  | '0' :: 'b' :: rest => based? 2 rest
  | '+' :: rest => (decimal? rest).map ofInt
  | '-' :: rest => (decimal? rest).map fun value => ofInt (-value)
  | chars => (decimal? chars).map ofInt

/-- A decimal number: digits, and the power of ten that they are counted in. -/
structure Scientific where
  digits : List Char
  exponent : Int

/-- Whether a number rounds to no double, because it is half a step or more
above the largest. -/
def Scientific.isTooLarge (s : Scientific) : Bool :=
  let digits := s.digits.dropWhile (· == '0')
  let places := digits.length + s.exponent
  let value := valueIn 10 digits
  if value = 0 ∨ places < 309 then false
  else if 309 < places then true
  else value * Nat.pow 10 s.exponent.toNat ≥
    (Nat.pow 2 1024 - Nat.pow 2 970) * Nat.pow 10 (-s.exponent).toNat

/-- The exponent after its letter. -/
def exponent? : List Char → Option Int
  | '+' :: rest => (digits? Char.isDigit rest).map fun digits => (valueIn 10 digits : Int)
  | '-' :: rest => (digits? Char.isDigit rest).map fun digits => -(valueIn 10 digits : Int)
  | chars => (digits? Char.isDigit chars).map fun digits => (valueIn 10 digits : Int)

/-- Whether a character begins an exponent. -/
def isExponentMark (c : Char) : Bool := c == 'e' || c == 'E'

/-- A number after its sign, with a fraction, an exponent or both. -/
def scientific? (chars : List Char) : Option Scientific := do
  let mantissa := chars.takeWhile (!isExponentMark ·)
  let exponent ← match chars.dropWhile (!isExponentMark ·) with
    | [] => pure 0
    | _ :: rest => exponent? rest
  match Text.pieces '.' mantissa with
  | [whole] =>
      if mantissa.length = chars.length then failure
      else return ⟨← whole? whole, exponent⟩
  | [whole, fraction] =>
      let fraction ← digits? Char.isDigit fraction
      return ⟨(← whole? whole) ++ fraction, exponent - fraction.length⟩
  | _ => failure

/-- Characters without a sign before them. -/
def dropSign : List Char → List Char
  | '+' :: rest => rest
  | '-' :: rest => rest
  | chars => chars

/-- The float that characters spell. -/
def float? (chars : List Char) : Option Number :=
  let unsigned := dropSign chars
  if unsigned = ['i', 'n', 'f'] ∨ unsigned = ['n', 'a', 'n'] then
    some (float (String.ofList chars))
  else
    (scientific? unsigned).map fun value =>
      if value.isTooLarge then unrepresentable else float (String.ofList chars)

/-- The number that characters spell. -/
def ofChars? (chars : List Char) : Option Number := (float? chars).or (integer? chars)

end Number

end EntityQuery.Toml
