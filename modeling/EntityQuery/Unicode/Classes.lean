import EntityQuery.Unicode.WhiteSpace
import EntityQuery.Unicode.DecimalDigit
import EntityQuery.Unicode.OtherNumber
import EntityQuery.Unicode.Alphabetic
import EntityQuery.Unicode.Mark
import EntityQuery.Unicode.Recent
import EntityQuery.Unicode.GraphemeExtend
import EntityQuery.Unicode.Unprintable

/-!
# Character classes

The classes that names, numbers and messages are made of, each put together
from the property tables. Words and numbers leave recent characters out.
-/

namespace EntityQuery.Unicode

/-- White space, as it may stand around words. -/
def isSpace (c : Char) : Bool := whiteSpace.contains c

/-- A decimal digit of any script, recent ones apart. -/
def isDigit (c : Char) : Bool := decimalDigit.contains c && !recent.contains c

/-- Punctuation that connects words (category Pc), the underscore first. -/
def isConnector (c : Char) : Bool :=
  (CodePoints.mk [(0x5f, 0x5f), (0x203f, 0x2040), (0x2054, 0x2054), (0xfe33, 0xfe34),
    (0xfe4d, 0xfe4f), (0xff3f, 0xff3f)]).contains c

/-- The two joiners that take part in a word without being seen. -/
def isJoiner (c : Char) : Bool := c == '\u200c' || c == '\u200d'

/-- A word character: what aliases and placeholders are made of. Recent
characters do not count. -/
def isWord (c : Char) : Bool :=
  (alphabetic.contains c || mark.contains c || decimalDigit.contains c || isConnector c ||
    isJoiner c) && !recent.contains c

/-- A letter or a number of any kind: what the names of references are made of. -/
def isAlphanumeric (c : Char) : Bool :=
  alphabetic.contains c || decimalDigit.contains c || otherNumber.contains c

/-- The two halfwidth voiced marks. They extend the character before them, but
are drawn after it. -/
def isHalfwidthMark (c : Char) : Bool := c == '\uff9e' || c == '\uff9f'

/-- The four Hangul fillers: letters that are not drawn. -/
def isFiller (c : Char) : Bool :=
  c == '\u115f' || c == '\u1160' || c == '\u3164' || c == '\uffa0'

/-- A character that a message cannot show by itself: it has no glyph, or it
would be drawn on the character before it. -/
def needsEscape (c : Char) : Bool :=
  unprintable.contains c || isFiller c || (graphemeExtend.contains c && !isHalfwidthMark c)

end EntityQuery.Unicode
