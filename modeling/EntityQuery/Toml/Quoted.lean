import EntityQuery.Text.Delimited
import EntityQuery.Toml.Number

/-!
# Quoted text

Text in double quotes has escapes, and text in single quotes stands for
itself. Three quotes enclose text over several lines, which may end in up to
two further quotes. A text is first cut off at its closing quotes and then
read.
-/

namespace EntityQuery.Toml.Quoted

/-- A blank within a line. -/
def isBlank (c : Char) : Bool := c == ' ' || c == '\t'

/-- Whether a text may hold a character: no control but the tab, and a line
feed only where there may be several lines. Carriage returns are looked at
apart, since one must stand before a line feed. -/
def isTextChar (long : Bool) (c : Char) : Bool :=
  c == '\t' || (0x20 ≤ c.toNat && c.toNat != 0x7f) || (long && c == '\n')

/-- The character of an escape of one letter. -/
def simpleEscape? : Char → Option Char
  | 'b' => some '\x08'
  | 'e' => some '\x1b'
  | 't' => some '\t'
  | 'n' => some '\n'
  | 'f' => some '\x0c'
  | 'r' => some '\r'
  | '"' => some '"'
  | '\\' => some '\\'
  | _ => none

/-- The character of a code point in hexadecimal digits. -/
def codePoint? (digits : List Char) : Option Char :=
  let value := Number.valueIn 16 digits
  if digits.all (Number.isDigitIn 16) ∧ value.isValidChar then some (Char.ofNat value) else none

/-- Whether nothing but blanks comes before the end of the line. -/
def isLineEnd (chars : List Char) : Bool :=
  match chars.dropWhile isBlank with
  | '\n' :: _ | '\r' :: '\n' :: _ => true
  | _ => false

/-- Whether a carriage return stands where it may: in text of several lines,
before a line feed. -/
def isReturn (long : Bool) (c : Char) (rest : List Char) : Bool :=
  long && c == '\r' && rest.head? == some '\n'

/-- The content of double quotes. A backslash at the end of a line takes the
line end and all blanks and line ends after it away; they are being skipped if
`skip` is set. -/
def unescape? (long : Bool) (skip : Bool) : List Char → Option (List Char)
  | [] => some []
  | c :: rest =>
      if skip && (isBlank c || c == '\n' || isReturn long c rest) then unescape? long true rest
      else if c ≠ '\\' then
        if isTextChar long c || isReturn long c rest then
          (unescape? long false rest).map (c :: ·)
        else none
      else
        match rest with
        | 'x' :: d₁ :: d₂ :: rest => do
            let c ← codePoint? [d₁, d₂]
            return c :: (← unescape? long false rest)
        | 'u' :: d₁ :: d₂ :: d₃ :: d₄ :: rest => do
            let c ← codePoint? [d₁, d₂, d₃, d₄]
            return c :: (← unescape? long false rest)
        | 'U' :: d₁ :: d₂ :: d₃ :: d₄ :: d₅ :: d₆ :: d₇ :: d₈ :: rest => do
            let c ← codePoint? [d₁, d₂, d₃, d₄, d₅, d₆, d₇, d₈]
            return c :: (← unescape? long false rest)
        | e :: rest' =>
            match simpleEscape? e with
            | some c => (unescape? long false rest').map (c :: ·)
            | none => if long && isLineEnd (e :: rest') then unescape? long true rest' else none
        | [] => none

/-- The content of single quotes. -/
def literal? (long : Bool) : List Char → Option (List Char)
  | [] => some []
  | c :: rest =>
      if isTextChar long c || isReturn long c rest then (literal? long rest).map (c :: ·) else none

/-- A line end right after the opening quotes does not belong to the text. -/
def dropFirstLineEnd : List Char → List Char
  | '\n' :: rest | '\r' :: '\n' :: rest => rest
  | chars => chars

/-- Split after three opening quotes into what they enclose and what follows
the closing ones. A backslash takes the next character with it where there are
escapes. -/
def splitLong (quote : Char) (escapes : Bool) : List Char → Option (List Char × List Char)
  | [] => none
  | c :: rest =>
      if escapes && c == '\\' then
        match rest with
        | [] => none
        | d :: rest => (splitLong quote escapes rest).map fun (raw, after) => (c :: d :: raw, after)
      else
        match rest with
        | q₁ :: q₂ :: after =>
            if c == quote && q₁ == quote && q₂ == quote then
              let further := (after.takeWhile (· == quote)).take 2
              some (further, after.drop further.length)
            else (splitLong quote escapes rest).map fun (raw, after) => (c :: raw, after)
        | _ => none

/-- Split after an opening single quote at the closing one. -/
def splitLiteral (rest : List Char) : Option (List Char × List Char) :=
  match rest.dropWhile (· != '\'') with
  | [] => none
  | _ :: after => some (rest.takeWhile (· != '\''), after)

theorem length_of_splitLong {quote : Char} {escapes : Bool} {source raw after : List Char}
    (h : splitLong quote escapes source = some (raw, after)) : after.length ≤ source.length := by
  fun_induction splitLong quote escapes source generalizing raw after with
  | case1 => simp at h
  | case2 => simp at h
  | case3 c _ d rest ih =>
      obtain ⟨⟨raw', after'⟩, h', heq⟩ := Option.map_eq_some_iff.1 h
      cases heq
      have := ih h'
      simp only [List.length_cons]
      omega
  | case4 =>
      cases h
      simp only [List.length_drop, List.length_cons]
      omega
  | case5 c _ q₁ q₂ rest _ ih =>
      obtain ⟨⟨raw', after'⟩, h', heq⟩ := Option.map_eq_some_iff.1 h
      cases heq
      have := ih h'
      simp only [List.length_cons] at *
      omega
  | case6 => simp at h

theorem length_of_splitLiteral {source raw after : List Char}
    (h : splitLiteral source = some (raw, after)) : after.length ≤ source.length := by
  have hle := (List.dropWhile_sublist (· != '\'') (l := source)).length_le
  unfold splitLiteral at h
  split at h
  · simp at h
  next heq =>
    cases h
    rw [heq] at hle
    simp only [List.length_cons] at hle
    omega

/-- Split after an opening double quote into the text and what follows it; the
text comes with whether it may run over several lines. -/
def splitDouble? : List Char → Option ((List Char × Bool) × List Char)
  | '"' :: '"' :: rest => do
      let (raw, after) ← splitLong '"' true rest
      return ((← unescape? true false (dropFirstLineEnd raw), true), after)
  | rest => do
      let (raw, after) ← Text.splitQuoted rest
      return ((← unescape? false false raw, false), after)

/-- As `splitDouble?`, after a single quote. -/
def splitSingle? : List Char → Option ((List Char × Bool) × List Char)
  | '\'' :: '\'' :: rest => do
      let (raw, after) ← splitLong '\'' false rest
      return ((← literal? true (dropFirstLineEnd raw), true), after)
  | rest => do
      let (raw, after) ← splitLiteral rest
      return ((← literal? false raw, false), after)

theorem length_of_splitDouble {source after : List Char} {text : List Char × Bool}
    (h : splitDouble? source = some (text, after)) : after.length ≤ source.length := by
  unfold splitDouble? at h
  split at h
  next rest =>
    obtain ⟨⟨raw, after'⟩, hs, h⟩ := Option.bind_eq_some_iff.1 h
    obtain ⟨content, -, h⟩ := Option.bind_eq_some_iff.1 h
    cases h
    have := length_of_splitLong hs
    simp only [List.length_cons]
    omega
  next rest _ =>
    obtain ⟨⟨raw, after'⟩, hs, h⟩ := Option.bind_eq_some_iff.1 h
    obtain ⟨content, -, h⟩ := Option.bind_eq_some_iff.1 h
    cases h
    have := congrArg List.length (Text.append_of_splitQuoted hs)
    simp only [List.length_append, List.length_cons] at this
    omega

theorem length_of_splitSingle {source after : List Char} {text : List Char × Bool}
    (h : splitSingle? source = some (text, after)) : after.length ≤ source.length := by
  unfold splitSingle? at h
  split at h
  next rest =>
    obtain ⟨⟨raw, after'⟩, hs, h⟩ := Option.bind_eq_some_iff.1 h
    obtain ⟨content, -, h⟩ := Option.bind_eq_some_iff.1 h
    cases h
    have := length_of_splitLong hs
    simp only [List.length_cons]
    omega
  next rest _ =>
    obtain ⟨⟨raw, after'⟩, hs, h⟩ := Option.bind_eq_some_iff.1 h
    obtain ⟨content, -, h⟩ := Option.bind_eq_some_iff.1 h
    cases h
    exact length_of_splitLiteral hs

end EntityQuery.Toml.Quoted
