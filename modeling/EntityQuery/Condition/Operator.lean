/-!
# Condition operators

An operator is written as a keyword with a dollar sign. Its kind decides what
follows it in a condition.
-/

namespace EntityQuery

/-- What an operator takes. -/
inductive OperatorKind where
  /-- A column and one operand. -/
  | comparison
  /-- A column alone. -/
  | nullTest
  /-- A column and a list of operands. -/
  | membership
  /-- A list of conditions. -/
  | boolean
  deriving DecidableEq

/-- The operators of conditions. -/
inductive Operator where
  | eq
  | neq
  | lt
  | lte
  | gt
  | gte
  | like
  | notLike
  | isIn
  | notIn
  | isNull
  | notNull
  | and
  | or
  deriving DecidableEq

namespace Operator

/-- Every operator. -/
def all : List Operator :=
  [eq, neq, lt, lte, gt, gte, like, notLike, isIn, notIn, isNull, notNull, and, or]

/-- The keyword of an operator. -/
def keyword : Operator → String
  | eq => "$eq"
  | neq => "$neq"
  | lt => "$lt"
  | lte => "$lte"
  | gt => "$gt"
  | gte => "$gte"
  | like => "$like"
  | notLike => "$notLike"
  | isIn => "$in"
  | notIn => "$notIn"
  | isNull => "$is"
  | notNull => "$isnt"
  | and => "$and"
  | or => "$or"

/-- The operator with a given keyword. -/
def ofKeyword? (keyword : String) : Option Operator :=
  all.find? fun op => op.keyword = keyword

/-- What an operator takes. -/
def kind : Operator → OperatorKind
  | eq | neq | lt | lte | gt | gte | like | notLike => .comparison
  | isIn | notIn => .membership
  | isNull | notNull => .nullTest
  | and | or => .boolean

end Operator

end EntityQuery
