import EntityQuery.Proofs.JoinGraph.Coherence
import EntityQuery.Sql.Dialect

/-!
# The text of tokens

Tokens are written out one after the other, so a list of them is written as the
texts of its parts, with the same marks between them. A statement is spelled as
text by simplification with these equations.
-/

namespace EntityQuery

namespace Sql

variable {d : Dialect}

/-- The text of a token. -/
def Token.text (d : Dialect) (token : Token) : String := String.ofList (token.chars d)

namespace Token

@[simp] theorem text_keyword (word : Keyword) : (keyword word).text d = word.text :=
  String.ofList_toList

@[simp] theorem text_space : space.text d = " " := rfl

@[simp] theorem text_ident (name : String) : (ident name).text d = d.quote name := rfl

theorem text_table (schema : Option String) (name : String) :
    (table schema name).text d =
      (schema.elim "" fun schema => d.quote schema ++ ".") ++ d.quote name := by
  cases schema with
  | none => simp [text, chars, Dialect.quote]
  | some schema => simp [text, chars, Dialect.quote, String.ofList_append, String.append_assoc]

@[simp] theorem text_column (reference : String) :
    (column reference).text d = d.quoteColumn reference := rfl

@[simp] theorem text_placeholder (name : String) :
    (placeholder name).text d = ":" ++ name := by
  rw [text, chars, String.ofList_cons, String.ofList_toList]
  rfl

@[simp] theorem text_written (text : String) : (written text).text d = text :=
  String.ofList_toList

end Token

/-- An equality with a placeholder as its words. -/
theorem equals_placeholder (name : String) :
    " = :" ++ name = " " ++ (Keyword.eq.text ++ (" " ++ (":" ++ name))) := by
  simp only [← String.append_assoc]
  rfl

@[simp] theorem render_nil : render d [] = "" := rfl

@[simp] theorem render_cons (token : Token) (tokens : List Token) :
    render d (token :: tokens) = token.text d ++ render d tokens := by
  rw [render, render, List.flatMap_cons, String.ofList_append, Token.text]

@[simp] theorem render_append (tokens more : List Token) :
    render d (tokens ++ more) = render d tokens ++ render d more := by
  rw [render, render, render, List.flatMap_append, String.ofList_append]

@[simp] theorem render_words (tokens : List Token) :
    render d (words tokens) = " ".intercalate (tokens.map (Token.text d)) := by
  induction tokens with
  | nil => simp [words]
  | cons token tokens ih =>
      cases tokens with
      | nil => simp [words]
      | cons next tokens =>
          have hstep : words (token :: next :: tokens) =
              token :: .space :: words (next :: tokens) := rfl
          rw [hstep, render_cons, render_cons, ih]
          simp [String.append_assoc]

@[simp] theorem render_commaSeparated (items : List (List Token)) :
    render d (commaSeparated items) = ", ".intercalate (items.map (render d)) := by
  induction items with
  | nil => simp [commaSeparated]
  | cons item items ih =>
      cases items with
      | nil => simp [commaSeparated]
      | cons next items =>
          have hstep : commaSeparated (item :: next :: items) =
              item ++ commaTokens ++ commaSeparated (next :: items) := rfl
          have hcomma : render d commaTokens = ", " := rfl
          rw [hstep, render_append, render_append, ih, hcomma]
          simp [String.append_assoc]

@[simp] theorem render_stack (lines : List (List Token)) :
    render d (stack lines) = "\n".intercalate (lines.map (render d)) := by
  induction lines with
  | nil => simp [stack]
  | cons line lines ih =>
      cases lines with
      | nil => simp [stack]
      | cons next lines =>
          have hstep : stack (line :: next :: lines) =
              line ++ .keyword .newline :: stack (next :: lines) := rfl
          rw [hstep, render_append, render_cons, ih]
          simp [String.append_assoc, Keyword.text]

@[simp] theorem render_parenthesized (tokens : List Token) :
    render d (parenthesized tokens) = "(" ++ render d tokens ++ ")" := by
  simp [parenthesized, String.append_assoc, Keyword.text]

theorem splitAtDot_qualified {label : String} (name : String) (h : '.' ∉ label.toList) :
    splitAtDot (label ++ "." ++ name).toList = some (label.toList, name.toList) := by
  rw [String.toList_append, String.toList_append, List.append_assoc]
  exact splitAtDot_append h

/-- A name after an alias is found again. -/
theorem splitQualified_append {label : String} (name : String) (h : '.' ∉ label.toList) :
    splitQualified (label ++ "." ++ name) = some (label, name) := by
  rw [splitQualified, splitAtDot_qualified name h]
  simp

/-- The part of a reference before its dot is quoted by itself, as long as it has no dot. -/
theorem quoteColumn_append {label name : String} (h : '.' ∉ label.toList) :
    d.quoteColumn (label ++ "." ++ name) = d.quote label ++ "." ++ d.quote name := by
  rw [Dialect.quoteColumn, Dialect.columnChars, splitAtDot_qualified name h]
  simp [Dialect.quote, String.ofList_append, String.append_assoc]

end Sql

end EntityQuery
