import EntityQuery.Unicode.Classes

/-!
# Names in messages

Messages show names and pieces of source in double quotes. The quote and the
backslash get a backslash before them, the four controls with a short form
are written in it, and any other character that a reader could not see is
written by its code point.
-/

namespace EntityQuery.Text

/-- One character as it stands between the quotes of a message. -/
def escapedChar (c : Char) : List Char :=
  if c = '"' then ['\\', '"']
  else if c = '\\' then ['\\', '\\']
  else if c = '\t' then ['\\', 't']
  else if c = '\r' then ['\\', 'r']
  else if c = '\n' then ['\\', 'n']
  else if c = '\x00' then ['\\', '0']
  else if Unicode.needsEscape c then ['\\', 'u', '{'] ++ Nat.toDigits 16 c.toNat ++ ['}']
  else [c]

/-- A text in double quotes, with every character visible. -/
def quoted (text : String) : String :=
  String.ofList ('"' :: text.toList.flatMap escapedChar ++ ['"'])

end EntityQuery.Text
