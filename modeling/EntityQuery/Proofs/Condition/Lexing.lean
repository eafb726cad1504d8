import EntityQuery.Condition.Lexer
import EntityQuery.Proofs.Condition.Grammar
import EntityQuery.Proofs.Except
import EntityQuery.Proofs.Json.Escapes
import EntityQuery.Proofs.Runs

/-!
# Reading the characters of tokens

A source reads as tokens, wherever it begins, if its lexemes are classified as
them (`Reads`). The lemmas put one token in front of a source that reads
already: a mark, a quoted text that ends where its quote does, or a word, which
must be followed by something that ends it. In the other direction, a lexeme that
is classified spells its token (`Lexeme.Spells`). So what is read as an operand is
genuine: no column could be taken for a placeholder or an operator, and every number
has the pattern of numbers.
-/

namespace EntityQuery

open Condition

/-- Whether an operand is what its text is read as: a column is neither a
placeholder nor an operator, a placeholder has a name, and a number is one. -/
def Operand.isGenuine : Operand → Bool
  | column name => name.toList.head? != some ':' && (Operator.ofKeyword? name).isNone
  | parameter name => !name.isEmpty
  | number spelling => isNumber spelling.toList

theorem Operand.isGenuine_parameter {name : String} :
    (parameter name).isGenuine = true ↔ name ≠ "" := by
  rw [isGenuine, Bool.not_eq_true', ← Bool.not_eq_true, String.isEmpty_iff]

namespace Condition

/-- The tokens that a source is read as, wherever it begins. -/
def Reads (source : List Char) (tokens : List Token) : Prop :=
  ∀ position, ∃ placed, (scan position source).mapM classify = .ok placed ∧
    placed.map Placed.value = tokens

/-- A lexeme is classified as a token. -/
def IsClassified (lexeme : Lexeme) (token : Token) : Prop :=
  ∀ start stop, classify ⟨lexeme, start, stop⟩ = .ok ⟨token, start, stop⟩

/-- A text ends a word, or there is none. -/
def EndsWord (rest : List Char) : Prop := ∀ c ∈ rest.head?, endsWord c = true

/-- A quoted text ends where the first quote after it stands. -/
def IsDelimited (raw : List Char) : Prop :=
  ∀ rest, Text.splitQuoted (raw ++ '"' :: rest) = some (raw, rest)

variable {source rest : List Char} {token : Token} {tokens : List Token}

theorem reads_nil : Reads [] [] := by
  intro position
  rw [scan]
  exact ⟨[], rfl, rfl⟩

theorem reads_of_cut {c : Char} {lexeme : Lexeme} (space : Unicode.isSpace c = false)
    (hcut : cut c source = (lexeme, rest)) (classified : IsClassified lexeme token)
    (h : Reads rest tokens) : Reads (c :: source) (token :: tokens) := by
  intro position
  rw [scan, if_neg (by rw [space]; exact Bool.false_ne_true)]
  obtain ⟨placed, hplaced, rfl⟩ := h (position + byteSize lexeme.chars)
  refine ⟨⟨token, position, position + byteSize lexeme.chars⟩ :: placed, ?_, rfl⟩
  rw [List.mapM_cons]
  simp only [hcut]
  rw [classified, hplaced]
  rfl

theorem isSpace_mark (mark : Mark) : Unicode.isSpace mark.char = false := by
  cases mark <;> decide

theorem cut_mark (mark : Mark) (rest : List Char) : cut mark.char rest = (.mark mark, rest) := by
  cases mark <;> rfl

theorem cut_quoted {raw : List Char} (delimited : IsDelimited raw) (rest : List Char) :
    cut '"' (raw ++ '"' :: rest) = (.quoted raw, rest) := by
  have hmark : Mark.ofChar? '"' = none := by decide
  simp only [cut, hmark, if_pos, delimited rest]

theorem cut_word {c : Char} {word : List Char} (hword : (c :: word).all (!endsWord ·) = true)
    (ends : EndsWord rest) : cut c (word ++ rest) = (.word (c :: word), rest) := by
  rw [List.all_cons, Bool.and_eq_true] at hword
  obtain ⟨hc, hword⟩ := hword
  have hends : ∀ d ∈ rest.head?, (!endsWord d) = false := by
    intro d hd
    rw [ends d hd]
    rfl
  have htake := takeWhile_run_append hword hends
  have hdrop := dropWhile_run_append hword hends
  simp only [endsWord, Bool.not_eq_true', Bool.or_eq_false_iff, beq_eq_false_iff_ne] at hc
  have hmark : Mark.ofChar? c = none := by simpa using hc.1.1.1.1.1
  simp only [cut, hmark, if_neg hc.1.1.1.1.2, htake, hdrop]

theorem reads_mark (mark : Mark) (h : Reads rest tokens) :
    Reads (mark.char :: rest) (.mark mark :: tokens) :=
  reads_of_cut (isSpace_mark mark) (cut_mark mark rest) (fun _ _ => rfl) h

theorem reads_quoted {raw : List Char} (delimited : IsDelimited raw)
    (classified : IsClassified (.quoted raw) token) (h : Reads rest tokens) :
    Reads ('"' :: raw ++ '"' :: rest) (token :: tokens) :=
  reads_of_cut (by decide) (cut_quoted delimited rest) classified h

theorem reads_word {c : Char} {word : List Char} (space : Unicode.isSpace c = false)
    (hword : (c :: word).all (!endsWord ·) = true) (ends : EndsWord rest)
    (classified : IsClassified (.word (c :: word)) token) (h : Reads rest tokens) :
    Reads (c :: word ++ rest) (token :: tokens) :=
  reads_of_cut space (cut_word hword ends) classified h

/-! ### Quoted texts -/

theorem isDelimited_cons {c : Char} {raw : List Char} (hquote : c ≠ '"') (hslash : c ≠ '\\')
    (h : IsDelimited raw) : IsDelimited (c :: raw) := by
  intro rest
  simp [Text.splitQuoted, hslash, h rest]

/-- A backslash takes the next character with it. -/
theorem isDelimited_escape {c : Char} {raw : List Char} (h : IsDelimited raw) :
    IsDelimited ('\\' :: c :: raw) := by
  intro rest
  simp [Text.splitQuoted, h rest]

theorem isDelimited_append {plain raw : List Char} (hplain : plain.all Json.isPlainChar = true)
    (h : IsDelimited raw) : IsDelimited (plain ++ raw) := by
  induction plain with
  | nil => exact h
  | cons c plain ih =>
      rw [List.all_cons, Bool.and_eq_true] at hplain
      obtain ⟨hc, hplain⟩ := hplain
      simp only [Json.isPlainChar, Bool.and_eq_true, bne_iff_ne] at hc
      exact isDelimited_cons hc.1.1 hc.1.2 (ih hplain)

theorem isDelimited_keyword (op : Operator) : IsDelimited op.keyword.toList := by
  rw [← List.append_nil op.keyword.toList]
  exact isDelimited_append (by cases op <;> decide) fun _ => rfl

theorem isClassified_operator (op : Operator) :
    IsClassified (.quoted op.keyword.toList) (.operator op) := by
  intro start stop
  cases op <;> rfl

theorem isClassified_parameter {name : List Char} (h : name ≠ []) :
    IsClassified (.quoted (':' :: name)) (.parameter (String.ofList name)) := by
  intro start stop
  obtain ⟨c, rest, rfl⟩ := List.exists_cons_of_ne_nil h
  rfl

theorem isClassified_column {raw : List Char} (hcolon : raw.head? ≠ some ':')
    (hkeyword : Operator.ofKeyword? (String.ofList raw) = none) :
    IsClassified (.quoted raw) (.column (String.ofList raw)) := by
  intro start stop
  cases raw with
  | nil => rfl
  | cons c raw =>
      have hc : c ≠ ':' := by simpa using hcolon
      simp [classify, hc, hkeyword, -String.ofList_cons]

/-! ### Words -/

theorem isClassified_null : IsClassified (.word ['n', 'u', 'l', 'l']) .null := fun _ _ => rfl

theorem isClassified_number {spelling : List Char} (h : isNumber spelling = true) :
    IsClassified (.word spelling) (.number (String.ofList spelling)) := by
  intro start stop
  have hnull : spelling ≠ ['n', 'u', 'l', 'l'] := by
    rintro rfl
    exact absurd h (by decide)
  simp only [classify, if_neg hnull, h, if_true]

/-- The characters that numbers are made of. -/
def isNumberChar (c : Char) : Bool :=
  Unicode.isDigit c || c == '-' || c == '+' || c == '.' || c == 'e' || c == 'E'

theorem isNumberChar_of_isDigit {c : Char} (h : Unicode.isDigit c = true) :
    isNumberChar c = true := by
  simp [isNumberChar, h]

theorem isNumberChar_of_isExponent {chars : List Char} (h : isExponent chars = true) :
    chars.all isNumberChar = true := by
  have hdigits : ∀ digits : List Char, (!digits.isEmpty && digits.all Unicode.isDigit) = true →
      digits.all isNumberChar = true := by
    intro digits hdigits
    rw [Bool.and_eq_true, List.all_eq_true] at hdigits
    exact List.all_eq_true.2 fun c hc => isNumberChar_of_isDigit (hdigits.2 c hc)
  unfold isExponent at h
  split at h
  · rw [List.all_cons, hdigits _ h]; rfl
  · rw [List.all_cons, hdigits _ h]; rfl
  · exact hdigits _ h

theorem isNumberChar_of_isScale {chars : List Char} (h : isScale chars = true) :
    chars.all isNumberChar = true := by
  unfold isScale at h
  split at h
  · rfl
  · rw [List.all_cons, isNumberChar_of_isExponent h]; rfl
  · rw [List.all_cons, isNumberChar_of_isExponent h]; rfl
  · cases h

theorem isNumberChar_of_dropWhile {chars : List Char}
    (h : (chars.dropWhile Unicode.isDigit).all isNumberChar = true) :
    chars.all isNumberChar = true := by
  rw [← List.takeWhile_append_dropWhile (p := Unicode.isDigit) (l := chars), List.all_append, h,
    Bool.and_true, List.all_eq_true]
  exact fun c hc => isNumberChar_of_isDigit (List.all_eq_true.1 List.all_takeWhile c hc)

theorem isNumberChar_of_isFraction {chars : List Char} (h : isFraction chars = true) :
    chars.all isNumberChar = true := by
  unfold isFraction at h
  split at h
  · rw [Bool.and_eq_true] at h
    rw [List.all_cons, isNumberChar_of_dropWhile (isNumberChar_of_isScale h.2)]; rfl
  · exact isNumberChar_of_isScale h

theorem isNumberChar_of_isUnsignedNumber {chars : List Char} (h : isUnsignedNumber chars = true) :
    chars ≠ [] ∧ chars.all isNumberChar = true := by
  rw [isUnsignedNumber, Bool.and_eq_true] at h
  refine ⟨?_, isNumberChar_of_dropWhile (isNumberChar_of_isFraction h.2)⟩
  rintro rfl
  exact absurd h.1 (by decide)

theorem isNumberChar_of_isNumber {chars : List Char} (h : isNumber chars = true) :
    chars ≠ [] ∧ chars.all isNumberChar = true := by
  unfold isNumber at h
  split at h
  · rw [List.all_cons, (isNumberChar_of_isUnsignedNumber h).2]
    exact ⟨List.cons_ne_nil _ _, rfl⟩
  · exact isNumberChar_of_isUnsignedNumber h

/-- Sets of code points with separate ranges have no character in common. -/
theorem contains_eq_false_of_separate {set other : Unicode.CodePoints}
    (h : ∀ a ∈ set.ranges, ∀ b ∈ other.ranges, a.2 < b.1 ∨ b.2 < a.1) {c : Char}
    (hc : set.contains c = true) : other.contains c = false := by
  obtain ⟨a, ha, hac⟩ := List.any_eq_true.1 hc
  apply Bool.eq_false_iff.2
  intro hother
  obtain ⟨b, hb, hbc⟩ := List.any_eq_true.1 hother
  simp only [Bool.and_eq_true, decide_eq_true_eq] at hac hbc
  have hab := h a ha b hb
  omega

theorem isSpace_of_isNumberChar {c : Char} (h : isNumberChar c = true) :
    Unicode.isSpace c = false := by
  simp only [isNumberChar, Bool.or_eq_true, beq_iff_eq] at h
  rcases h with ((((hdigit | rfl) | rfl) | rfl) | rfl) | rfl
  · rw [Unicode.isDigit, Bool.and_eq_true] at hdigit
    exact contains_eq_false_of_separate (by decide +kernel) hdigit.1
  all_goals decide

/-- The characters that end a word. -/
theorem endsWord_iff {c : Char} : endsWord c = true ↔
    c ∈ ['{', '}', '[', ']', ':', ',', '"', ' ', '\t', '\r', '\n'] := by
  constructor
  · intro hends
    simp only [endsWord, Mark.ofChar?, List.find?_isSome, Bool.or_eq_true, beq_iff_eq] at hends
    rcases hends with ((((⟨mark, -, hmark⟩ | rfl) | rfl) | rfl) | rfl) | rfl
    · rw [← of_decide_eq_true hmark]
      cases mark <;> decide
    all_goals decide
  · exact List.all_eq_true.1 (by decide) c

theorem endsWord_of_isNumberChar {c : Char} (h : isNumberChar c = true) : endsWord c = false := by
  apply Bool.eq_false_iff.2
  intro hends
  have hmem := endsWord_iff.1 hends
  have hall : (['{', '}', '[', ']', ':', ',', '"', ' ', '\t', '\r', '\n'].all
      (!isNumberChar ·)) = true := by decide
  have hnot := List.all_eq_true.1 hall c hmem
  rw [h] at hnot
  exact Bool.false_ne_true hnot

/-! ### Tokens in front of a source -/

theorem reads_number {spelling : List Char} (h : isNumber spelling = true) (ends : EndsWord rest)
    (hrest : Reads rest tokens) :
    Reads (spelling ++ rest) (.number (String.ofList spelling) :: tokens) := by
  obtain ⟨hne, hall⟩ := isNumberChar_of_isNumber h
  obtain ⟨c, word, rfl⟩ := List.exists_cons_of_ne_nil hne
  rw [List.all_eq_true] at hall
  have hword : (c :: word).all (!endsWord ·) = true := by
    rw [List.all_eq_true]
    intro d hd
    rw [endsWord_of_isNumberChar (hall d hd)]
    rfl
  exact reads_word (isSpace_of_isNumberChar (hall c List.mem_cons_self)) hword ends
    (isClassified_number h) hrest

theorem reads_null (ends : EndsWord rest) (hrest : Reads rest tokens) :
    Reads (Token.null.chars ++ rest) (.null :: tokens) :=
  reads_word (by decide) (by decide) ends isClassified_null hrest

theorem reads_operator (op : Operator) (hrest : Reads rest tokens) :
    Reads ((Token.operator op).chars ++ rest) (.operator op :: tokens) := by
  have hread := reads_quoted (isDelimited_keyword op) (isClassified_operator op) hrest
  rwa [Token.chars, List.append_assoc]

/-- A genuine operand is read from its characters. -/
theorem reads_operand {value : Operand} (genuine : value.isGenuine = true)
    (delimited : ∀ name, value.column? = some name ∨ value.parameter? = some name →
      IsDelimited name.toList)
    (ends : EndsWord rest) (hrest : Reads rest tokens) :
    Reads (value.token.chars ++ rest) (value.token :: tokens) := by
  cases value with
  | column name =>
      rw [Operand.isGenuine, Bool.and_eq_true, bne_iff_ne, Option.isNone_iff_eq_none] at genuine
      have hclassified := isClassified_column genuine.1 (by rw [String.ofList_toList, genuine.2])
      rw [String.ofList_toList] at hclassified
      have hread := reads_quoted (delimited name (.inl rfl)) hclassified hrest
      rwa [Operand.token, Token.chars, List.append_assoc]
  | parameter name =>
      have hname : name.toList ≠ [] := by simpa [Operand.isGenuine] using genuine
      have hclassified := isClassified_parameter hname
      rw [String.ofList_toList] at hclassified
      have hdelimited : IsDelimited (':' :: name.toList) :=
        isDelimited_cons (by decide) (by decide) (delimited name (.inr rfl))
      have hread := reads_quoted hdelimited hclassified hrest
      rwa [Operand.token, Token.chars, List.append_assoc]
  | number spelling =>
      have hread := reads_number genuine ends hrest
      rwa [String.ofList_toList] at hread

/-! ### What is read is genuine -/

/-- The tokens that lexemes are classified as. -/
inductive Lexeme.Spells : Lexeme → Token → Prop
  | mark (m : Mark) : Spells (.mark m) (.mark m)
  | operator (op : Operator) : Spells (.quoted op.keyword.toList) (.operator op)
  | parameter {name : List Char} (ne : name ≠ []) :
      Spells (.quoted (':' :: name)) (.parameter (String.ofList name))
  | column {raw : List Char} (colon : raw.head? ≠ some ':')
      (keyword : Operator.ofKeyword? (String.ofList raw) = none) :
      Spells (.quoted raw) (.column (String.ofList raw))
  | null : Spells (.word ['n', 'u', 'l', 'l']) .null
  | number {spelling : List Char} (number : isNumber spelling = true) :
      Spells (.word spelling) (.number (String.ofList spelling))

theorem spells_of_classify {lexeme : Placed Lexeme} {placed : Placed Token}
    (h : classify lexeme = .ok placed) : lexeme.value.Spells placed.value := by
  obtain ⟨lexeme, start, stop⟩ := lexeme
  unfold classify at h
  dsimp only at h ⊢
  split at h
  next m => cases h; exact .mark m
  next => cases h
  next name hname => cases h; exact .parameter hname
  next raw _ hcolon =>
    split at h
    next op hop =>
      cases h
      have hkeyword : op.keyword = String.ofList raw := by simpa using List.find?_some hop
      rw [← String.toList_ofList (l := raw), ← hkeyword]
      exact .operator op
    next hkeyword =>
      cases h
      refine .column (fun hhead => ?_) hkeyword
      obtain ⟨name, hname⟩ := List.head?_eq_some_iff.1 hhead
      exact hcolon name hname
  next => cases h
  next chars =>
    split at h
    next hnull => cases h; exact hnull ▸ .null
    next =>
      split at h
      next hnumber => cases h; exact .number hnumber
      next => cases h

/-- Why a lexeme that begins at a byte is no token. -/
inductive Lexeme.Fails (start : Nat) : Lexeme → Error → Prop
  | colon : Fails start (.quoted [':']) (.unexpectedText "\":\"" start)
  | unterminated (content : List Char) :
      Fails start (.unterminated content)
        (.unterminatedString (String.ofList ('"' :: content)) start)
  | word {chars : List Char} (null : chars ≠ ['n', 'u', 'l', 'l'])
      (number : isNumber chars = false) :
      Fails start (.word chars) (.unexpectedText (String.ofList chars) start)

theorem fails_of_classify {lexeme : Placed Lexeme} {error : Error}
    (h : classify lexeme = .error error) : lexeme.value.Fails lexeme.start error := by
  obtain ⟨lexeme, start, stop⟩ := lexeme
  unfold classify at h
  dsimp only at h ⊢
  split at h
  next => cases h
  next => cases h; exact .colon
  next => cases h
  next => split at h <;> cases h
  next content => cases h; exact .unterminated content
  next chars =>
    split at h
    next => cases h
    next hnull =>
      split at h
      next => cases h
      next hnumber => cases h; exact .word hnull (Bool.not_eq_true _ ▸ hnumber)

theorem Lexeme.Spells.isGenuine {lexeme : Lexeme} {value : Operand}
    (h : lexeme.Spells value.token) : value.isGenuine = true := by
  cases value with
  | column name =>
      cases h with
      | column colon keyword => simpa [Operand.isGenuine, keyword] using colon
  | parameter name =>
      cases h with
      | parameter ne => simpa [Operand.isGenuine] using ne
  | number spelling =>
      cases h with
      | number number => rwa [Operand.isGenuine, String.toList_ofList]

/-- Every token of a text is spelled by one of its lexemes. -/
theorem exists_spells_of_lex {text : String} {placed : List (Placed Token)}
    (h : lex text = .ok placed) {token : Token} (htoken : token ∈ placed.map Placed.value) :
    ∃ lexeme ∈ scan 0 text.toList, lexeme.value.Spells token := by
  obtain ⟨p, hp, rfl⟩ := List.mem_map.1 htoken
  obtain ⟨lexeme, hlexeme, hclassify⟩ := exists_of_mem_mapM h hp
  exact ⟨lexeme, hlexeme, spells_of_classify hclassify⟩

/-- Every operand among the tokens of a text is genuine. -/
theorem isGenuine_of_lex {text : String} {placed : List (Placed Token)} (h : lex text = .ok placed)
    {value : Operand} (hvalue : value.token ∈ placed.map Placed.value) :
    value.isGenuine = true := by
  obtain ⟨lexeme, -, hspells⟩ := exists_spells_of_lex h hvalue
  exact hspells.isGenuine

end Condition

end EntityQuery
