import EntityQuery.Condition.Operator

/-!
# Tokens of condition text

Condition text consists of six marks, quoted texts, numbers and the word
`null`. A quoted text is a placeholder, an operator or a column.
-/

namespace EntityQuery.Condition

/-- The marks between the other tokens. -/
inductive Mark where
  | openBrace
  | closeBrace
  | openBracket
  | closeBracket
  | colon
  | comma
  deriving DecidableEq

/-- The character of a mark. -/
def Mark.char : Mark → Char
  | openBrace => '{'
  | closeBrace => '}'
  | openBracket => '['
  | closeBracket => ']'
  | colon => ':'
  | comma => ','

/-- The mark that a character is. -/
def Mark.ofChar? (c : Char) : Option Mark :=
  [openBrace, closeBrace, openBracket, closeBracket, colon, comma].find? fun m => m.char = c

/-- A token of condition text. -/
inductive Token where
  | mark (mark : Mark)
  /-- A column, as it stands between the quotes. -/
  | column (raw : String)
  /-- A number in its spelling. -/
  | number (spelling : String)
  | null
  /-- A placeholder, without its colon. -/
  | parameter (name : String)
  | operator (op : Operator)
  deriving DecidableEq

/-- The coarse class of a token. -/
inductive TokenKind where
  | mark
  | column
  | number
  | null
  | parameter
  | operator (kind : OperatorKind)
  deriving DecidableEq

namespace Token

/-- The class of a token. -/
def kind : Token → TokenKind
  | mark _ => .mark
  | column _ => .column
  | number _ => .number
  | null => .null
  | parameter _ => .parameter
  | operator op => .operator op.kind

/-- Operators stand above their operands; every other token is a leaf. -/
def isTerminal : Token → Bool
  | operator _ => false
  | _ => true

/-- The characters of a token as it stands in condition text. -/
def chars : Token → List Char
  | mark m => [m.char]
  | column raw => '"' :: raw.toList ++ ['"']
  | number spelling => spelling.toList
  | null => ['n', 'u', 'l', 'l']
  | parameter name => '"' :: ':' :: name.toList ++ ['"']
  | operator op => '"' :: op.keyword.toList ++ ['"']

/-- A token as it stands in condition text. -/
def text (token : Token) : String := String.ofList token.chars

end Token

end EntityQuery.Condition
