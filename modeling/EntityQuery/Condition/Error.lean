import EntityQuery.Condition.Token
import EntityQuery.Text.Quoted

/-!
# What can be wrong with a condition

Text that is no token, a sequence of tokens that is no condition, and names
that stand for nothing.
-/

namespace EntityQuery.Condition

/-- What may stand at one place of a condition. -/
inductive Expectation where
  | mark (mark : Mark)
  | operator (kind : OperatorKind)
  | column
  | operand
  | null
  | endOfInput
  deriving DecidableEq

/-- An expectation in words. -/
def Expectation.text : Expectation → String
  | mark m => String.ofList ['\'', m.char, '\'']
  | operator .comparison => "comparison operator"
  | operator .nullTest => "null comparison operator"
  | operator .membership => "in comparison operator"
  | operator .boolean => "boolean operator"
  | column => "column"
  | operand => "column, parameter or number"
  | null => "'null'"
  | endOfInput => "end of input"

/-- Alternatives in words, with "or" before the last of several. -/
def Expectation.listText : List Expectation → String
  | [] => ""
  | [last] => last.text
  | [first, last] => first.text ++ ", or " ++ last.text
  | first :: rest => first.text ++ ", " ++ listText rest

/-- The first token that cannot stand where it does, or the end of the input,
and what could stand there. -/
structure SyntaxError where
  found : Option Token
  expected : List Expectation
  deriving DecidableEq

/-- A syntax error in words. -/
def SyntaxError.message (error : SyntaxError) : String :=
  let found := match error.found with
    | some token => "'" ++ token.text ++ "'"
    | none => "end of input"
  "found " ++ found ++ " expected " ++ Expectation.listText error.expected

/-- What can be wrong with a condition. -/
inductive Error where
  /-- Text that is no token. -/
  | unexpectedText (text : String) (position : Nat)
  /-- A quote that is never closed, with all that follows it. -/
  | unterminatedString (text : String) (position : Nat)
  /-- Tokens that are no condition. -/
  | malformed (error : SyntaxError)
  /-- A placeholder without a value. -/
  | missingParameter (name : String)
  /-- A column without a new name. -/
  | unmappedColumn (column : String)
  deriving DecidableEq

/-- An error in words. -/
def Error.message : Error → String
  | unexpectedText text position =>
      "unexpected text " ++ Text.quoted text ++ " at position " ++ toString position
  | unterminatedString text position =>
      "unterminated string " ++ Text.quoted text ++ " at position " ++ toString position
  | malformed error => "invalid condition: " ++ error.message
  | missingParameter name =>
      "replacement value for parameter " ++ Text.quoted name ++ " not present"
  | unmappedColumn column =>
      "column " ++ Text.quoted column ++ " not found in column lookup"

end EntityQuery.Condition
