import EntityQuery.Json.Basic
import EntityQuery.Text.Trim
import EntityQuery.Text.Unsigned

/-!
# Converters

A column may store its values in another form than its property has. A
converter changes a value on its way into the database and on its way out.
-/

namespace EntityQuery

/-- Changes of a value as it is saved and as it is retrieved. -/
structure Converter where
  onSave : Option (Json → Json) := none
  onRetrieve : Option (Json → Json) := none

namespace Converter

/-- The form of a value in the database. -/
def save (converter : Converter) (value : Json) : Json :=
  match converter.onSave with
  | some change => change value
  | none => value

/-- The form of a value in a model. -/
def retrieve (converter : Converter) (value : Json) : Json :=
  match converter.onRetrieve with
  | some change => change value
  | none => value

/-- A truth value of a bit column, which arrives as a number or as a text of
one character. Other values stay as they are. -/
def bitToBool : Json → Json
  | .num spelling =>
      if Text.uint64? spelling = some 1 then .bool true
      else if Text.uint64? spelling = some 0 then .bool false
      else .num spelling
  | .str text =>
      if text = "1" ∨ text = "\x01" then .bool true
      else if text = "0" ∨ text = "\x00" then .bool false
      else .str text
  | value => value

/-- A truth value as a bit. -/
def boolToBit : Json → Json
  | .bool true => .num "1"
  | .bool false => .num "0"
  | value => value

/-- Bits in the database, truth values in the model. -/
def bit : Converter := ⟨some boolToBit, some bitToBool⟩

/-- A truth value of a column that holds the letters Y and N in either case. -/
def letterToBool : Json → Json
  | .str text =>
      if Text.sameIgnoringCase text "y" then .bool true
      else if Text.sameIgnoringCase text "n" then .bool false
      else .str text
  | value => value

/-- A truth value as a letter. -/
def boolToLetter : Json → Json
  | .bool true => .str "Y"
  | .bool false => .str "N"
  | value => value

/-- The letters Y and N in the database, truth values in the model. -/
def yesNo : Converter := ⟨some boolToLetter, some letterToBool⟩

end Converter

end EntityQuery
