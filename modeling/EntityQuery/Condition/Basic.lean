import EntityQuery.Condition.Operator
import EntityQuery.Json.Basic

/-!
# Conditions

A condition is a tree of comparisons over named columns. Parsed conditions
have in every node an operator of the node's kind and no empty list; the type
leaves both open, so that trees built by hand can be printed and compiled too.
-/

namespace EntityQuery

/-- The right-hand side of a comparison, or one entry of a membership list. -/
inductive Operand where
  | column (name : String)
  /-- A placeholder, by its name without the colon. -/
  | parameter (name : String)
  /-- A number in the spelling of its source. -/
  | number (spelling : String)
  deriving DecidableEq

/-- A condition on the rows of a query. -/
inductive Condition where
  | comparison (op : Operator) (column : String) (value : Operand)
  | nullTest (op : Operator) (column : String)
  | membership (op : Operator) (column : String) (values : List Operand)
  | boolean (op : Operator) (conditions : List Condition)

namespace Operand

/-- The column that an operand names. -/
def column? : Operand → Option String
  | column name => some name
  | _ => none

/-- The placeholder that an operand names. -/
def parameter? : Operand → Option String
  | parameter name => some name
  | _ => none

/-- The JSON form: placeholders are strings that start with a colon. -/
def toJson : Operand → Json
  | column name => .str name
  | parameter name => .str (":" ++ name)
  | number spelling => .num spelling

end Operand

namespace Condition

/-- The operator at the root. -/
def op : Condition → Operator
  | comparison op _ _ => op
  | nullTest op _ => op
  | membership op _ _ => op
  | boolean op _ => op

mutual

/-- Every mention of a column, from left to right. -/
def mentions : Condition → List String
  | comparison _ column value => column :: value.column?.toList
  | nullTest _ column => [column]
  | membership _ column values => column :: values.filterMap Operand.column?
  | boolean _ conditions => mentionsIn conditions

/-- Every mention of a column in a list of conditions. -/
def mentionsIn : List Condition → List String
  | [] => []
  | condition :: rest => mentions condition ++ mentionsIn rest

end

mutual

/-- Every operand, from left to right. -/
def operands : Condition → List Operand
  | comparison _ _ value => [value]
  | nullTest _ _ => []
  | membership _ _ values => values
  | boolean _ conditions => operandsIn conditions

/-- Every operand in a list of conditions. -/
def operandsIn : List Condition → List Operand
  | [] => []
  | condition :: rest => operands condition ++ operandsIn rest

end

/-- The distinct columns in order of first mention. -/
def columns (condition : Condition) : List String := condition.mentions.eraseDups

/-- The distinct placeholders in order of first use. -/
def parameters (condition : Condition) : List String :=
  (condition.operands.filterMap Operand.parameter?).eraseDups

mutual

/-- The tagged object that a condition is written as. -/
def toJson : Condition → Json
  | comparison op column value => .obj [(op.keyword, .obj [(column, value.toJson)])]
  | nullTest op column => .obj [(op.keyword, .obj [(column, .null)])]
  | membership op column values =>
      .obj [(op.keyword, .obj [(column, .arr (values.map Operand.toJson))])]
  | boolean op conditions => .obj [(op.keyword, .arr (toJsonList conditions))]

/-- The tagged objects of a list of conditions. -/
def toJsonList : List Condition → List Json
  | [] => []
  | condition :: rest => toJson condition :: toJsonList rest

end

end Condition

end EntityQuery
