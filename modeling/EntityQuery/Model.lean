import EntityQuery.Dict
import EntityQuery.Error
import EntityQuery.Json.Basic

/-!
# Models and rows

A model holds the values of an entity's properties, a row the values of a
query's columns. Both are objects.
-/

namespace EntityQuery

/-- The values of an entity by property. -/
abbrev Model := Dict Json

/-- The values of a result row by column. -/
abbrev Row := Dict Json

namespace Json

/-- Digits at the end of a JSON number, after an optional sign. -/
def isJsonExponent : List Char → Bool
  | '+' :: digits => !digits.isEmpty && digits.all Char.isDigit
  | '-' :: digits => !digits.isEmpty && digits.all Char.isDigit
  | digits => !digits.isEmpty && digits.all Char.isDigit

/-- The end of a JSON number after its whole part and its fraction. -/
def isJsonScale : List Char → Bool
  | [] => true
  | 'e' :: rest => isJsonExponent rest
  | 'E' :: rest => isJsonExponent rest
  | _ => false

/-- The end of a JSON number after its whole part. -/
def isJsonFraction : List Char → Bool
  | '.' :: rest =>
      !(rest.takeWhile Char.isDigit).isEmpty && isJsonScale (rest.dropWhile Char.isDigit)
  | rest => isJsonScale rest

/-- A JSON number without its sign: no zero stands before another digit. -/
def isJsonUnsigned : List Char → Bool
  | '0' :: rest => isJsonFraction rest
  | chars =>
      !(chars.takeWhile Char.isDigit).isEmpty && isJsonFraction (chars.dropWhile Char.isDigit)

/-- Whether a spelling is one that JSON allows for a number. -/
def isJsonNumber (spelling : String) : Bool :=
  match spelling.toList with
  | '-' :: rest => isJsonUnsigned rest
  | chars => isJsonUnsigned chars

/-- The characters of an exponent with an explicit sign. -/
def signedExponent : List Char → List Char
  | '+' :: digits => '+' :: digits
  | '-' :: digits => '-' :: digits
  | digits => '+' :: digits

/-- The characters of a number with the exponent, if it has one, after a small
letter and with a sign. -/
def withSignedExponent : List Char → List Char
  | [] => []
  | c :: rest =>
      if c = 'e' ∨ c = 'E' then 'e' :: signedExponent rest else c :: withSignedExponent rest

/-- Read a number's spelling again. Only its exponent gets another form. -/
def rereadNumber (spelling : String) : Except QueryError Json :=
  if isJsonNumber spelling then
    .ok (num (String.ofList (withSignedExponent spelling.toList)))
  else .error .unconvertible

mutual

/-- A value with every number in it read again. -/
def reread : Json → Except QueryError Json
  | num spelling => rereadNumber spelling
  | arr items => do return arr (← rereadItems items)
  | obj members => do return obj (← rereadMembers members)
  | value => .ok value

/-- Items with every number in them read again. -/
def rereadItems : List Json → Except QueryError (List Json)
  | [] => .ok []
  | item :: rest => do
      let item ← reread item
      return item :: (← rereadItems rest)

/-- Members with every number in them read again. -/
def rereadMembers : List (String × Json) → Except QueryError (List (String × Json))
  | [] => .ok []
  | (key, value) :: rest => do
      let value ← reread value
      return (key, value) :: (← rereadMembers rest)

end

end Json

namespace Model

/-- The JSON form of a model. -/
def toJson (model : Model) : Json := .obj model.entries

/-- The model that a value is. Only objects are models, and their numbers must
be spelled as JSON numbers; exponents are brought to one form. -/
def ofJson (value : Json) : Except QueryError Model := do
  match ← value.reread with
  | .obj members => .ok (Dict.ofList members)
  | _ => .error .invalidModel

/-- The members of an object if each of them is text. -/
def textMembers? : List (String × Json) → Option (List (String × String))
  | [] => some []
  | (key, .str text) :: rest => (textMembers? rest).map ((key, text) :: ·)
  | _ => none

/-- The properties of a model that holds nothing but text. -/
def toTexts (model : Model) : Except QueryError (Dict String) :=
  match textMembers? model.entries with
  | some members => .ok (Dict.ofList members)
  | none => .error .unconvertible

end Model

end EntityQuery
