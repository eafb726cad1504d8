import EntityQuery.Condition.Bound

/-!
# Renaming columns

A condition is stated over property names and run over column names. Renaming
looks every column up, on both sides of a comparison, and leaves operators,
numbers and placeholders as they are.
-/

namespace EntityQuery.Condition

/-- The new name of a column. -/
def renameColumn (lookup : String → Option String) (column : String) : Except Error String :=
  match lookup column with
  | some name => .ok name
  | none => .error (.unmappedColumn column)

/-- An operand with its column renamed. -/
def renameOperand (lookup : String → Option String) : Operand → Except Error Operand
  | .column name => (renameColumn lookup name).map .column
  | operand => .ok operand

mutual

/-- The condition with every column renamed. -/
def rename (lookup : String → Option String) : Condition → Except Error Condition
  | comparison op column value => do
      let column ← renameColumn lookup column
      let value ← renameOperand lookup value
      return .comparison op column value
  | nullTest op column => do
      let column ← renameColumn lookup column
      return .nullTest op column
  | membership op column values => do
      let column ← renameColumn lookup column
      let values ← values.mapM (renameOperand lookup)
      return .membership op column values
  | boolean op conditions => do
      let conditions ← renameList lookup conditions
      return .boolean op conditions

/-- Conditions with every column renamed. -/
def renameList (lookup : String → Option String) :
    List Condition → Except Error (List Condition)
  | [] => return []
  | condition :: rest => do
      let condition ← rename lookup condition
      let rest ← renameList lookup rest
      return condition :: rest

end

/-- The condition with every column renamed, once its placeholders are known
to be bound. -/
def renameBound (lookup : String → Option String) (condition : Condition)
    (values? : Option (Dict Json)) : Except Error Condition := do
  condition.checkBound values?
  condition.rename lookup

end EntityQuery.Condition
