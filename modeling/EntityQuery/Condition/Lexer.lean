import EntityQuery.Condition.Error
import EntityQuery.Text.Delimited
import EntityQuery.Unicode.Classes

/-!
# Reading tokens

The source is cut into lexemes, which are then classified. Cutting never
fails: a quote that is not closed takes the rest of the source, and any other
text is a word up to the next mark, quote or blank. White space of every kind
separates lexemes, but only the four blanks end a word.

Each lexeme's characters are the piece of source that it was cut from
(`chars_cut`), and positions count the bytes of UTF-8.
-/

namespace EntityQuery.Condition

/-- A piece of source before it is classified. -/
inductive Lexeme where
  | mark (mark : Mark)
  /-- The content of a quoted text. -/
  | quoted (raw : List Char)
  /-- What follows a quote that is not closed. -/
  | unterminated (rest : List Char)
  /-- Text outside quotes. -/
  | word (chars : List Char)

/-- The source of a lexeme. -/
def Lexeme.chars : Lexeme → List Char
  | mark m => [m.char]
  | quoted raw => '"' :: raw ++ ['"']
  | unterminated rest => '"' :: rest
  | word chars => chars

/-- Something read from the source, with its first byte and the byte after it. -/
structure Placed (α : Type) where
  value : α
  start : Nat
  stop : Nat

/-- The number of bytes that characters take in UTF-8. -/
def byteSize (chars : List Char) : Nat := chars.foldl (fun size c => size + c.utf8Size) 0

/-- Whether a character ends a word: a mark, a quote or a blank. -/
def endsWord (c : Char) : Bool :=
  (Mark.ofChar? c).isSome || c == '"' || c == ' ' || c == '\t' || c == '\r' || c == '\n'

/-- Cut the lexeme that starts with a given character off the source. -/
def cut (first : Char) (rest : List Char) : Lexeme × List Char :=
  match Mark.ofChar? first with
  | some m => (.mark m, rest)
  | none =>
      if first = '"' then
        match Text.splitQuoted rest with
        | some (raw, after) => (.quoted raw, after)
        | none => (.unterminated rest, [])
      else
        (.word (first :: rest.takeWhile (!endsWord ·)), rest.dropWhile (!endsWord ·))

/-- Cutting divides the source. -/
theorem chars_cut (first : Char) (rest : List Char) :
    (cut first rest).1.chars ++ (cut first rest).2 = first :: rest := by
  simp only [cut]
  split
  next m h =>
    have hm := List.find?_some h
    simp only [decide_eq_true_eq] at hm
    simp [Lexeme.chars, hm]
  next h =>
    split
    next hq =>
      split
      next raw after hs =>
        simp [Lexeme.chars, Text.append_of_splitQuoted hs, hq]
      next hs => simp [Lexeme.chars, hq]
    next hq => simp [Lexeme.chars, List.takeWhile_append_dropWhile]

theorem length_cut_le (first : Char) (rest : List Char) :
    (cut first rest).2.length ≤ rest.length := by
  have h := congrArg List.length (chars_cut first rest)
  have hpos : 0 < (cut first rest).1.chars.length := by
    simp only [cut]
    split
    · simp [Lexeme.chars]
    · split
      · split <;> simp [Lexeme.chars]
      · simp [Lexeme.chars]
  simp only [List.length_append, List.length_cons] at h
  omega

/-- The lexemes of a source that begins at a given byte. -/
def scan (position : Nat) : List Char → List (Placed Lexeme)
  | [] => []
  | c :: rest =>
      if Unicode.isSpace c then
        scan (position + c.utf8Size) rest
      else
        let stop := position + byteSize (cut c rest).1.chars
        ⟨(cut c rest).1, position, stop⟩ :: scan stop (cut c rest).2
termination_by source => source.length
decreasing_by
  · simp
  · exact Nat.lt_succ_of_le (length_cut_le c rest)

/-- Digits at the end of a number, after an optional sign. -/
def isExponent : List Char → Bool
  | '+' :: digits => !digits.isEmpty && digits.all Unicode.isDigit
  | '-' :: digits => !digits.isEmpty && digits.all Unicode.isDigit
  | digits => !digits.isEmpty && digits.all Unicode.isDigit

/-- The end of a number after its whole part and its fraction. -/
def isScale : List Char → Bool
  | [] => true
  | 'e' :: rest => isExponent rest
  | 'E' :: rest => isExponent rest
  | _ => false

/-- The end of a number after its whole part. -/
def isFraction : List Char → Bool
  | '.' :: rest =>
      !(rest.takeWhile Unicode.isDigit).isEmpty && isScale (rest.dropWhile Unicode.isDigit)
  | rest => isScale rest

/-- A number without its sign. -/
def isUnsignedNumber (chars : List Char) : Bool :=
  !(chars.takeWhile Unicode.isDigit).isEmpty && isFraction (chars.dropWhile Unicode.isDigit)

/-- Whether a word is a number: decimal digits with an optional minus sign,
fraction and exponent. Leading zeros and the digits of every script count. -/
def isNumber : List Char → Bool
  | '-' :: rest => isUnsignedNumber rest
  | chars => isUnsignedNumber chars

/-- The token that a lexeme is. A placeholder needs a name after its colon. -/
def classify (lexeme : Placed Lexeme) : Except Error (Placed Token) :=
  let place (token : Token) : Except Error (Placed Token) :=
    .ok ⟨token, lexeme.start, lexeme.stop⟩
  match lexeme.value with
  | .mark m => place (.mark m)
  | .quoted [':'] => .error (.unexpectedText "\":\"" lexeme.start)
  | .quoted (':' :: name) => place (.parameter (String.ofList name))
  | .quoted raw =>
      match Operator.ofKeyword? (String.ofList raw) with
      | some op => place (.operator op)
      | none => place (.column (String.ofList raw))
  | .unterminated rest =>
      .error (.unterminatedString (String.ofList ('"' :: rest)) lexeme.start)
  | .word chars =>
      if chars = ['n', 'u', 'l', 'l'] then place .null
      else if isNumber chars then place (.number (String.ofList chars))
      else .error (.unexpectedText (String.ofList chars) lexeme.start)

/-- The tokens of a text with their places, or its first lexeme that is none. -/
def lex (source : String) : Except Error (List (Placed Token)) :=
  (scan 0 source.toList).mapM classify

end EntityQuery.Condition
