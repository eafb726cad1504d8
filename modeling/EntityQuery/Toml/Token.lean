import EntityQuery.Toml.Moment
import EntityQuery.Toml.Quoted

/-!
# Tokens

A document is cut into brackets, commas, equals signs, quoted texts, words,
blanks and line ends. Comments count as blanks. Whether a word is a key or a
value is seen later from where it stands; only a date that is followed by one
blank and a digit takes the time after it along.
-/

namespace EntityQuery.Toml

/-- The two kinds of brackets. -/
inductive Bracket where
  | square
  | curly
  deriving DecidableEq

/-- What stands inside and between brackets. -/
inductive Leaf where
  | comma
  | equals
  | blank
  | newline
  /-- A text in quotes, and whether it may run over several lines. -/
  | text (content : List Char) (long : Bool)
  /-- Anything else, up to the next blank, bracket, comma or equals sign. -/
  | word (chars : List Char)

/-- A piece of a document. -/
inductive Token where
  | opening (bracket : Bracket)
  | closing (bracket : Bracket)
  | leaf (leaf : Leaf)

namespace Token

/-- Whether a character goes on with a word. -/
def isWordChar (c : Char) : Bool :=
  !(Quoted.isBlank c || ['[', ']', '{', '}', ',', '=', '"', '\'', '#', '\r', '\n'].contains c)

/-- Split a word off the source that starts with a given character. -/
def splitWord (first : Char) (rest : List Char) : List Char × List Char :=
  let word := first :: rest.takeWhile isWordChar
  match rest.dropWhile isWordChar with
  | ' ' :: d :: after =>
      if Moment.isDate word && d.isDigit then
        (word ++ ' ' :: d :: after.takeWhile isWordChar, after.dropWhile isWordChar)
      else (word, ' ' :: d :: after)
  | after => (word, after)

/-- Split the token that starts with a given character off the source. -/
def split? (first : Char) (rest : List Char) : Option (Token × List Char) :=
  match first with
  | '[' => some (opening .square, rest)
  | ']' => some (closing .square, rest)
  | '{' => some (opening .curly, rest)
  | '}' => some (closing .curly, rest)
  | ',' => some (leaf .comma, rest)
  | '=' => some (leaf .equals, rest)
  | '\n' => some (leaf .newline, rest)
  | '\r' =>
      match rest with
      | '\n' :: rest => some (leaf .newline, rest)
      | _ => none
  | ' ' | '\t' => some (leaf .blank, rest)
  | '#' =>
      let comment := rest.takeWhile fun c => c != '\n' && c != '\r'
      if comment.all (Quoted.isTextChar false) then
        some (leaf .blank, rest.dropWhile fun c => c != '\n' && c != '\r')
      else none
  | '"' => (Quoted.splitDouble? rest).map fun ((content, long), after) =>
      (leaf (.text content long), after)
  | '\'' => (Quoted.splitSingle? rest).map fun ((content, long), after) =>
      (leaf (.text content long), after)
  | first =>
      let (word, after) := splitWord first rest
      some (leaf (.word word), after)

theorem length_splitWord_le (first : Char) (rest : List Char) :
    (splitWord first rest).2.length ≤ rest.length := by
  have hle := (List.dropWhile_sublist isWordChar (l := rest)).length_le
  unfold splitWord
  dsimp only
  split
  next d after heq =>
    rw [heq] at hle
    have := (List.dropWhile_sublist isWordChar (l := after)).length_le
    simp only [List.length_cons] at hle
    split
    · dsimp only
      omega
    · simpa using hle
  next => simpa using hle

theorem length_of_split {first : Char} {rest after : List Char} {token : Token}
    (h : split? first rest = some (token, after)) : after.length ≤ rest.length := by
  unfold split? at h
  split at h
  case h_8 =>
    split at h
    · cases h
      simp
    · simp at h
  case h_11 =>
    dsimp only at h
    split at h
    · cases h
      exact (List.dropWhile_sublist _).length_le
    · simp at h
  case h_12 =>
    obtain ⟨⟨text, after'⟩, hs, heq⟩ := Option.map_eq_some_iff.1 h
    cases heq
    exact Quoted.length_of_splitDouble hs
  case h_13 =>
    obtain ⟨⟨text, after'⟩, hs, heq⟩ := Option.map_eq_some_iff.1 h
    cases heq
    exact Quoted.length_of_splitSingle hs
  case h_14 =>
    cases h
    exact length_splitWord_le _ _
  all_goals
    cases h
    exact Nat.le_refl _

/-- The tokens of a source, if it can be cut into tokens. -/
def ofChars? : List Char → Option (List Token)
  | [] => some []
  | c :: rest =>
      match h : split? c rest with
      | some (token, after) =>
          have : after.length < rest.length + 1 := Nat.lt_succ_of_le (length_of_split h)
          (ofChars? after).map (token :: ·)
      | none => none
termination_by source => source.length

end Token

end EntityQuery.Toml
