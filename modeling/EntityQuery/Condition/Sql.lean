import EntityQuery.Condition.Bound
import EntityQuery.Sql.Dialect

/-!
# Conditions in SQL

A condition becomes a boolean expression. Columns are quoted, placeholders and
numbers stand as they are, and a boolean list is always in parentheses. Values
never enter the text: placeholders are bound when the statement runs.
-/

namespace EntityQuery

/-- The words of an operator. -/
def Operator.sqlTokens : Operator → List Sql.Token
  | eq => [.keyword .eq]
  | neq => [.keyword .ne]
  | lt => [.keyword .lt]
  | lte => [.keyword .lte]
  | gt => [.keyword .gt]
  | gte => [.keyword .gte]
  | like => [.keyword .like]
  | notLike => Sql.phrase [.not, .like]
  | isIn => [.keyword .in_]
  | notIn => Sql.phrase [.not, .in_]
  | isNull => [.keyword .is]
  | notNull => Sql.phrase [.is, .not]
  | and => [.keyword .and]
  | or => [.keyword .or]

/-- The token of an operand. -/
def Operand.sqlToken : Operand → Sql.Token
  | column name => .column name
  | parameter name => .placeholder name
  | number spelling => .number spelling

namespace Condition

/-- An operator with blanks around it. -/
def infixTokens (op : Operator) : List Sql.Token :=
  .space :: op.sqlTokens ++ [.space]

mutual

/-- The tokens of a condition. -/
def sqlTokens : Condition → List Sql.Token
  | comparison op column value => .column column :: infixTokens op ++ [value.sqlToken]
  | nullTest op column => .column column :: infixTokens op ++ [.keyword .null]
  | membership op column values =>
      .column column :: infixTokens op ++
        Sql.parenthesized (Sql.commaSeparated (values.map fun value => [value.sqlToken]))
  | boolean op conditions => Sql.parenthesized (joinedTokens op conditions)

/-- The tokens of conditions with a boolean operator between them. -/
def joinedTokens (op : Operator) : List Condition → List Sql.Token
  | [] => []
  | [condition] => sqlTokens condition
  | condition :: rest => sqlTokens condition ++ infixTokens op ++ joinedTokens op rest

end

/-- A condition as a boolean expression. -/
def sql (d : Sql.Dialect) (condition : Condition) : String := Sql.render d condition.sqlTokens

/-- A condition as a boolean expression; if values are given, every
placeholder must have one. -/
def compile (d : Sql.Dialect) (condition : Condition) (values? : Option (Dict Json)) :
    Except Error String := do
  condition.checkBound values?
  return condition.sql d

end Condition

end EntityQuery
