import EntityQuery.Unicode.Classes

/-!
# Trimming and letter case

Names of types and dialects are read without the white space around them and
without regard to letter case.
-/

namespace EntityQuery.Text

/-- Drop the white space at both ends. -/
def trimChars (chars : List Char) : List Char :=
  ((chars.dropWhile Unicode.isSpace).reverse.dropWhile Unicode.isSpace).reverse

/-- Drop the white space at both ends. -/
def trim (text : String) : String := String.ofList (trimChars text.toList)

/-- The lower case of a letter, as far as it is an ASCII letter: the capitals
A to Z, and the Kelvin sign, whose lower case is the letter k. -/
def lowerChar (c : Char) : Char := if c = '\u212a' then 'k' else c.toLower

/-- The text in lower case, for comparison with names in ASCII. -/
def lower (text : String) : String := String.ofList (text.toList.map lowerChar)

/-- Whether two texts differ at most in the case of ASCII letters. -/
def sameIgnoringCase (a b : String) : Bool :=
  a.toList.map Char.toLower == b.toList.map Char.toLower

end EntityQuery.Text
