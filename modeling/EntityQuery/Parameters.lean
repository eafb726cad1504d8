import EntityQuery.Dict
import EntityQuery.Error
import EntityQuery.Json.Basic
import EntityQuery.Text.Placeholder

/-!
# Parameters of a query

A query collects the values of its placeholders. A name is bound once: to bind
it again to the same value changes nothing, and to another value is an error
unless the caller asks for it. Names that the query makes up itself end in a
number that is used once.
-/

namespace EntityQuery

/-- Values of placeholders as they are given to a query: a hash map, which is gone through in an
order of its own. The order is in no way determined by the bindings. -/
structure Values where
  bindings : Dict Json
  order : List (String × Json) := bindings.entries
  isOrder : order.Perm bindings.entries := by exact .rfl

instance : Coe (Dict Json) Values := ⟨fun bindings => { bindings }⟩

instance : EmptyCollection Values := ⟨{ bindings := ∅ }⟩

/-- Values of placeholders, and the number of the next made-up name. -/
structure Parameters where
  values : Dict Json
  next : Nat

namespace Parameters

/-- No values. -/
def empty : Parameters := ⟨∅, 0⟩

/-- Make up a name from a text, by replacing what is no word character and
appending the next number. -/
def mint (parameters : Parameters) (base : String) : String × Parameters :=
  (Text.toName base ++ "_" ++ toString parameters.next,
    { parameters with next := parameters.next + 1 })

/-- The value of a name. -/
def get? (parameters : Parameters) (name : String) : Option Json := parameters.values.get? name

/-- Bind a name. -/
def add (parameters : Parameters) (overwrite : Bool) (name : String) (value : Json) :
    Except QueryError Parameters :=
  match parameters.get? name with
  | none => .ok { parameters with values := parameters.values.insert name value }
  | some existing =>
      if existing = value then .ok parameters
      else if overwrite then
        .ok { parameters with values := parameters.values.insert name value }
      else .error (.parameterConflict name)

/-- Bind names in turn up to the first conflict. What was bound before it stays. -/
def addAll (parameters : Parameters) (overwrite : Bool) :
    List (String × Json) → Except QueryError Unit × Parameters
  | [] => (.ok (), parameters)
  | (name, value) :: rest =>
      match parameters.add overwrite name value with
      | .ok parameters => parameters.addAll overwrite rest
      | .error error => (.error error, parameters)

/-- Bind the values of other parameters. Their number is not taken over. -/
def merge (parameters : Parameters) (overwrite : Bool) (other : Parameters) :
    Except QueryError Unit × Parameters :=
  parameters.addAll overwrite other.values.entries

/-- The parameters with more values, or the first conflict between them in the order of these. -/
def extend (parameters : Parameters) (values : Values) : Except QueryError Parameters :=
  match parameters.addAll false values.order with
  | (.ok (), parameters) => .ok parameters
  | (.error error, _) => .error error

end Parameters

end EntityQuery
