import EntityQuery.Toml.Number

/-!
# Values

What a key of a document stands for. A number is part of a document as soon as
it is well formed, so whether all numbers of a value can be represented is a
question of its own, which is asked of the values that are looked at.
-/

namespace EntityQuery.Toml

/-- A value of a document. -/
inductive Value where
  | string (text : String)
  | boolean (value : Bool)
  | number (value : Number)
  /-- A date, a time of day or both in their spelling. -/
  | moment (spelling : String)
  | array (items : List Value)
  | table (members : List (String × Value))

namespace Value

mutual

/-- Whether every number in a value can be represented. -/
def isRepresentable : Value → Bool
  | number value => value.isRepresentable
  | array items => areItemsRepresentable items
  | table members => areMembersRepresentable members
  | string _ | boolean _ | moment _ => true

/-- Whether every number in some items can be represented. -/
def areItemsRepresentable : List Value → Bool
  | [] => true
  | item :: rest => isRepresentable item && areItemsRepresentable rest

/-- Whether every number in some members can be represented. -/
def areMembersRepresentable : List (String × Value) → Bool
  | [] => true
  | (_, value) :: rest => isRepresentable value && areMembersRepresentable rest

end

end Value

end EntityQuery.Toml
