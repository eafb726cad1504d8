import EntityQuery.Condition.Basic
import EntityQuery.Condition.Error
import EntityQuery.Dict

/-!
# Values for the placeholders of a condition

A condition runs with a dictionary of values. Where one is given, each
placeholder of the condition must be bound in it.
-/

namespace EntityQuery.Condition

/-- The first placeholder without a value. -/
def unbound? (condition : Condition) (values : Dict Json) : Option String :=
  condition.parameters.find? fun name => !values.contains name

/-- Refuse the first placeholder without a value; without a dictionary there
is nothing to check. -/
def checkBound (condition : Condition) (values? : Option (Dict Json)) : Except Error Unit :=
  match values?.bind condition.unbound? with
  | some name => .error (.missingParameter name)
  | none => .ok ()

end EntityQuery.Condition
