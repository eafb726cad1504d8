import EntityQuery.Unicode.Classes

/-!
# Names made of word characters

Table aliases and placeholder names consist of word characters. Any text
becomes such a name when its other characters are replaced by underscores.
-/

namespace EntityQuery.Text

/-- Whether a text is not empty and consists of word characters. -/
def isName (text : String) : Bool := !text.isEmpty && text.toList.all Unicode.isWord

/-- The text with an underscore for each character that is no word character. -/
def toName (text : String) : String :=
  String.ofList (text.toList.map fun c => if Unicode.isWord c then c else '_')

end EntityQuery.Text
