import EntityQuery.Condition.Basic
import EntityQuery.Condition.Lexer
import EntityQuery.Json.Printer

/-!
# Reading conditions

The grammar needs one token of look-ahead, so a condition is read by a machine
that takes the tokens one by one. Its state is the place inside the innermost
condition and, for each boolean list around it, the conditions read so far. A
token that the state has no move for is the error, together with what the
state has moves for.

## Implementation notes

Every condition and every list that is begun is kept in the state, so the
tokens read so far can be written down again from the state alone.
-/

namespace EntityQuery.Condition

/-- A place inside a condition, with what has been read of it. -/
inductive Place where
  /-- Before the condition. -/
  | start
  /-- After its brace. -/
  | opened
  /-- After its operator. -/
  | named (op : Operator)
  /-- After the colon of the operator. -/
  | body (op : Operator)
  /-- After the inner brace. -/
  | inner (op : Operator)
  /-- After the column. -/
  | subject (op : Operator) (column : String)
  /-- After the colon of the column. -/
  | value (op : Operator) (column : String)
  /-- Before a value of a membership list; the values read are latest first. -/
  | item (op : Operator) (column : String) (earlier : List Operand)
  /-- After a value of a membership list. -/
  | itemEnd (op : Operator) (column : String) (earlier : List Operand) (last : Operand)
  /-- Before the brace that closes the inner one. -/
  | innerEnd (condition : Condition)
  /-- Before the brace that closes the condition. -/
  | outerEnd (condition : Condition)
  /-- After the condition. -/
  | whole (condition : Condition)

/-- A boolean list that is being read, with its conditions so far, latest first. -/
structure OpenList where
  op : Operator
  earlier : List Condition

/-- The state of reading: a place in the innermost condition, and the boolean
lists around it, innermost first. -/
structure Reader where
  place : Place
  lists : List OpenList

namespace Reader

/-- Nothing has been read. -/
def initial : Reader := ⟨.start, []⟩

/-- The operand that a token is. -/
def operand? : Token → Option Operand
  | .column raw => some (.column raw)
  | .parameter name => some (.parameter name)
  | .number spelling => some (.number spelling)
  | _ => none

/-- Read one token. -/
def step (r : Reader) (token : Token) : Option Reader :=
  match r.place, token with
  | .start, .mark .openBrace => some { r with place := .opened }
  | .opened, .operator op => some { r with place := .named op }
  | .named op, .mark .colon => some { r with place := .body op }
  | .body op, token =>
      match op.kind, token with
      | .boolean, .mark .openBracket => some ⟨.start, ⟨op, []⟩ :: r.lists⟩
      | .boolean, _ => none
      | _, .mark .openBrace => some { r with place := .inner op }
      | _, _ => none
  | .inner op, .column raw => some { r with place := .subject op raw }
  | .subject op column, .mark .colon => some { r with place := .value op column }
  | .value op column, token =>
      match op.kind, token with
      | .comparison, token =>
          (operand? token).map fun value => { r with place := .innerEnd (.comparison op column value) }
      | .nullTest, .null => some { r with place := .innerEnd (.nullTest op column) }
      | .membership, .mark .openBracket => some { r with place := .item op column [] }
      | _, _ => none
  | .item op column earlier, token =>
      (operand? token).map fun value => { r with place := .itemEnd op column earlier value }
  | .itemEnd op column earlier last, .mark .comma =>
      some { r with place := .item op column (last :: earlier) }
  | .itemEnd op column earlier last, .mark .closeBracket =>
      some { r with place := .innerEnd (.membership op column (last :: earlier).reverse) }
  | .innerEnd condition, .mark .closeBrace => some { r with place := .outerEnd condition }
  | .outerEnd condition, .mark .closeBrace => some { r with place := .whole condition }
  | .whole condition, token =>
      match r.lists, token with
      | list :: lists, .mark .comma =>
          some ⟨.start, { list with earlier := condition :: list.earlier } :: lists⟩
      | list :: lists, .mark .closeBracket =>
          some ⟨.outerEnd (.boolean list.op (condition :: list.earlier).reverse), lists⟩
      | _, _ => none
  | _, _ => none

/-- What may come next. -/
def expected (r : Reader) : List Expectation :=
  match r.place with
  | .start => [.mark .openBrace]
  | .opened =>
      [.operator .comparison, .operator .nullTest, .operator .membership, .operator .boolean]
  | .named _ => [.mark .colon]
  | .body op =>
      match op.kind with
      | .boolean => [.mark .openBracket]
      | _ => [.mark .openBrace]
  | .inner _ => [.column]
  | .subject _ _ => [.mark .colon]
  | .value op _ =>
      match op.kind with
      | .comparison => [.operand]
      | .nullTest => [.null]
      | .membership => [.mark .openBracket]
      | .boolean => []
  | .item _ _ _ => [.operand]
  | .itemEnd _ _ _ _ => [.mark .comma, .mark .closeBracket]
  | .innerEnd _ => [.mark .closeBrace]
  | .outerEnd _ => [.mark .closeBrace]
  | .whole _ =>
      match r.lists with
      | [] => [.endOfInput]
      | _ :: _ => [.mark .comma, .mark .closeBracket]

/-- The condition that has been read, if it is whole. -/
def result? (r : Reader) : Option Condition :=
  match r.place, r.lists with
  | .whole condition, [] => some condition
  | _, _ => none

/-- Read the rest of the tokens. -/
def read (r : Reader) : List Token → Except SyntaxError Condition
  | [] =>
      match r.result? with
      | some condition => .ok condition
      | none => .error ⟨none, r.expected⟩
  | token :: rest =>
      match r.step token with
      | some next => next.read rest
      | none => .error ⟨some token, r.expected⟩

end Reader

/-- Read a condition from its text. Text that is no token is an error before
any token that does not fit. -/
def parse (source : String) : Except Error Condition := do
  let tokens ← lex source
  match Reader.initial.read (tokens.map Placed.value) with
  | .ok condition => .ok condition
  | .error error => .error (.malformed error)

/-- Read a condition from a JSON value, by way of its compact text. -/
def ofJson (value : Json) : Except Error Condition := parse value.text

/-- Whether a value is the empty object, which stands for no condition. -/
def isBlank : Json → Bool
  | .obj [] => true
  | _ => false

end EntityQuery.Condition
