import EntityQuery.Dict
import EntityQuery.Settings.Error
import EntityQuery.Unicode.Classes

/-!
# References to environment variables

A setting may refer to variables of the environment, as `${NAME}` or `$NAME`.
Its text is cut into pieces, each a reference or a character that stands for
itself, and every reference is replaced by the variable's value. Values are
not looked at again.

The pieces spell the text that they were cut from (`flatMap_chars_pieces`).
-/

namespace EntityQuery

/-- Why the environment has no text for a name. -/
inductive VariableError where
  /-- No variable of that name is set. -/
  | notPresent
  /-- The variable is set, to what is no Unicode text. -/
  | notUnicode
  deriving DecidableEq

/-- An environment, by its answer for every name. Which names variables can have is up to the
system, except that none has the empty name. -/
structure Environment where
  answer : String → Except VariableError String
  answer_empty : answer "" = .error .notPresent

namespace Environment

/-- Whether a variable is set to a text. -/
def HasText (environment : Environment) (name : String) : Prop :=
  ∃ text, environment.answer name = .ok text

instance (environment : Environment) (name : String) : Decidable (environment.HasText name) :=
  match h : environment.answer name with
  | .ok text => isTrue ⟨text, h⟩
  | .error _ => isFalse fun ⟨_, htext⟩ => by rw [h] at htext; cases htext

/-- The lines `name=value` of a dictionary, as far as these can be set. A name that can be set is
not empty and has no equals sign, and a line has no null character. -/
def lines (texts : Dict String) : List (List Char) :=
  (texts.entries.filter fun (name, _) => !name.isEmpty && !name.toList.contains '=').map
      (fun (name, value) => name.toList ++ '=' :: value.toList)
    |>.filter fun line => !line.contains '\x00'

/-- What follows a name and an equals sign in the first line that begins with them. The name
itself may hold an equals sign. -/
def textIn? (lines : List (List Char)) (name : String) : Option String :=
  if name.isEmpty then none
  else
    (lines.find? fun line => (name.toList ++ ['=']).isPrefixOf line).map fun line =>
      String.ofList (line.drop (name.length + 1))

/-- The environment in which nothing is set but texts. -/
def ofDict (texts : Dict String) : Environment where
  answer name :=
    match textIn? (lines texts) name with
    | some text => .ok text
    | none => .error .notPresent
  answer_empty := rfl

instance : Coe (Dict String) Environment := ⟨ofDict⟩

end Environment

namespace Reference

/-- A piece of a text with references. -/
inductive Piece where
  /-- A character other than the dollar sign. -/
  | plain (c : Char)
  /-- A dollar sign that refers to nothing. -/
  | dollar
  /-- A name in braces. Without the closing brace it runs to the end of the text. -/
  | braced (name : List Char) (closed : Bool)
  /-- A name without braces. -/
  | bare (name : List Char)
  deriving DecidableEq

/-- The text of a piece. -/
def Piece.chars : Piece → List Char
  | plain c => [c]
  | dollar => ['$']
  | braced name closed => '$' :: '{' :: name ++ if closed then ['}'] else []
  | bare name => '$' :: name

/-- A character of a name without braces. -/
def isNameChar (c : Char) : Bool := Unicode.isAlphanumeric c || c == '_'

/-- Split after an opening brace into the name and, if the brace is closed,
what follows it. -/
def splitBraced : List Char → List Char × Option (List Char)
  | [] => ([], none)
  | c :: rest =>
      if c = '}' then ([], some rest)
      else (c :: (splitBraced rest).1, (splitBraced rest).2)

theorem length_splitBraced_le (chars : List Char) {after : List Char}
    (h : (splitBraced chars).2 = some after) : after.length ≤ chars.length := by
  induction chars with
  | nil => simp [splitBraced] at h
  | cons c rest ih =>
      simp only [splitBraced] at h
      split at h
      · cases h
        simp
      · exact Nat.le_succ_of_le (ih h)

/-- The piece that starts with a dollar sign, and what follows it. -/
def pieceAfterDollar (rest : List Char) : Piece × List Char :=
  match rest with
  | '{' :: rest =>
      let (name, after) := splitBraced rest
      (.braced name after.isSome, after.getD [])
  | rest =>
      let name := rest.takeWhile isNameChar
      if name.isEmpty then (.dollar, rest) else (.bare name, rest.dropWhile isNameChar)

theorem length_pieceAfterDollar_le (rest : List Char) :
    (pieceAfterDollar rest).2.length ≤ rest.length := by
  unfold pieceAfterDollar
  split
  next rest =>
    cases h : (splitBraced rest).2 with
    | none => simp [h]
    | some after =>
        have := length_splitBraced_le rest h
        simp only [h, Option.getD_some, List.length_cons]
        omega
  next rest _ =>
    dsimp only
    split
    · exact Nat.le_refl _
    · exact (List.dropWhile_sublist _).length_le

/-- The pieces of a text. -/
def pieces : List Char → List Piece
  | [] => []
  | c :: rest =>
      if c = '$' then (pieceAfterDollar rest).1 :: pieces (pieceAfterDollar rest).2
      else .plain c :: pieces rest
termination_by chars => chars.length
decreasing_by
  · exact Nat.lt_succ_of_le (length_pieceAfterDollar_le rest)
  · exact Nat.lt_succ_self _

theorem chars_splitBraced (chars : List Char) :
    (splitBraced chars).1 ++
      (match (splitBraced chars).2 with
        | some after => '}' :: after
        | none => []) = chars := by
  induction chars with
  | nil => rfl
  | cons c rest ih =>
      simp only [splitBraced]
      split
      next h => simp [h]
      next h => simpa using ih

theorem chars_pieceAfterDollar (rest : List Char) :
    (pieceAfterDollar rest).1.chars ++ (pieceAfterDollar rest).2 = '$' :: rest := by
  unfold pieceAfterDollar
  split
  next rest =>
    have h := chars_splitBraced rest
    cases hs : (splitBraced rest).2 with
    | none => simpa [hs, Piece.chars] using h
    | some after => simpa [hs, Piece.chars] using h
  next rest _ =>
    dsimp only
    split
    · rfl
    · simp [Piece.chars, List.takeWhile_append_dropWhile]

/-- The pieces of a text spell it. -/
theorem flatMap_chars_pieces (chars : List Char) :
    (pieces chars).flatMap Piece.chars = chars := by
  fun_induction pieces chars with
  | case1 => rfl
  | case2 rest ih => rw [List.flatMap_cons, ih, chars_pieceAfterDollar]
  | case3 c rest _ ih => simp [List.flatMap_cons, ih, Piece.chars]

/-- The variable that a piece refers to. -/
def Piece.variable? : Piece → Option String
  | braced name _ | bare name => some (String.ofList name)
  | plain _ | dollar => none

/-- A piece with its reference replaced by the variable's value. -/
def Piece.expand (environment : Environment) (piece : Piece) :
    Except SettingsError (List Char) :=
  match piece.variable? with
  | none => .ok piece.chars
  | some name =>
      match environment.answer name with
      | .ok value => .ok value.toList
      | .error _ => .error (.missingVariable name)

/-- The text of pieces with their references replaced, or the first variable
that has no text. -/
def expandPieces (environment : Environment) : List Piece → Except SettingsError (List Char)
  | [] => .ok []
  | piece :: rest => do
      let chars ← piece.expand environment
      let rest ← expandPieces environment rest
      return chars ++ rest

/-- A text with its references replaced by the values of variables. -/
def expand (environment : Environment) (text : String) : Except SettingsError String :=
  (expandPieces environment (pieces text.toList)).map String.ofList

end Reference

end EntityQuery
