import EntityQuery.Proofs.Condition.Unambiguity
import EntityQuery.Proofs.Parameters.Minting

/-!
# Placeholders in SQL text

An engine finds the placeholders of a statement in its text: they are the words
after the colons that do not stand in a quoted name (`placeholders`). What it
finds in a text depends on what follows the text, unless that ends words and
quoted names. So texts are taken together with any such rest (`MentionsOnly`),
and the ways in which statements are put together keep that apart
(`mentionsOnly_append_break`).
-/

namespace EntityQuery.Sql

/-- Where a reader of SQL text stands. After a closing quote the name may still
go on, since the quote is written twice in it. -/
inductive QuoteState where
  | outside
  | inside
  | closing
  deriving DecidableEq

/-- Where the reader stands after one more character. -/
def QuoteState.next (d : Dialect) : QuoteState → Char → QuoteState
  | outside, c => if c = d.openQuote then inside else outside
  | inside, c => if c = d.closeQuote then closing else inside
  | closing, c => if c = d.closeQuote ∨ c = d.openQuote then inside else outside

/-- The words after the colons outside quoted names. -/
def placeholdersFrom (d : Dialect) (state : QuoteState) : List Char → List String
  | [] => []
  | c :: rest =>
      match state.next d c with
      | .outside =>
          if c = ':' then
            String.ofList (rest.takeWhile Unicode.isWord) :: placeholdersFrom d .outside rest
          else placeholdersFrom d .outside rest
      | .inside => placeholdersFrom d .inside rest
      | .closing => placeholdersFrom d .closing rest

/-- The placeholders of SQL text. -/
def placeholders (d : Dialect) (sql : String) : List String :=
  placeholdersFrom d .outside sql.toList

/-- A text ends words and quoted names, or there is none. -/
def EndsText (d : Dialect) (rest : List Char) : Prop :=
  ∀ c ∈ rest.head?, Unicode.isWord c = false ∧ c ≠ d.closeQuote

/-- No placeholder and no quoted name begins in a text. -/
def IsMute (d : Dialect) (chars : List Char) : Prop := ∀ c ∈ chars, c ≠ ':' ∧ c ≠ d.openQuote

/-- A placeholder has a name, and the name has a value. -/
def HasValue (values : Dict Json) (name : String) : Prop :=
  name ≠ "" ∧ values.contains name = true

/-- Every placeholder of SQL text has a value. -/
def IsClosed (d : Dialect) (sql : String) (values : Dict Json) : Prop :=
  ∀ name ∈ placeholders d sql, HasValue values name

instance (d : Dialect) (sql : String) (values : Dict Json) : Decidable (IsClosed d sql values) :=
  inferInstanceAs
    (Decidable (∀ name ∈ placeholders d sql, name ≠ "" ∧ values.contains name = true))

variable {d : Dialect} {rest chars : List Char}

theorem placeholdersFrom_cons (state : QuoteState) (c : Char) :
    placeholdersFrom d state (c :: rest) =
      if c = ':' ∧ state.next d c = .outside then
        String.ofList (rest.takeWhile Unicode.isWord) ::
          placeholdersFrom d (state.next d c) rest
      else placeholdersFrom d (state.next d c) rest := by
  rw [placeholdersFrom]
  cases state.next d c <;> simp

theorem placeholdersFrom_cons_of_ne (state : QuoteState) {c : Char} (hcolon : c ≠ ':') :
    placeholdersFrom d state (c :: rest) = placeholdersFrom d (state.next d c) rest := by
  rw [placeholdersFrom_cons]
  exact if_neg fun h => hcolon h.1

/-! ### Quoted names -/

theorem placeholdersFrom_closing (ends : EndsText d rest) :
    placeholdersFrom d .closing rest = placeholdersFrom d .outside rest := by
  cases rest with
  | nil => rfl
  | cons c rest =>
      have hnext : QuoteState.next d .closing c = QuoteState.next d .outside c := by
        simp [QuoteState.next, (ends c rfl).2]
      rw [placeholdersFrom_cons, placeholdersFrom_cons, hnext]

/-- A colon in a name is no more than a character of it. -/
theorem placeholdersFrom_inside {c : Char} (hquote : c ≠ d.closeQuote) :
    placeholdersFrom d .inside (c :: rest) = placeholdersFrom d .inside rest := by
  have hnext : QuoteState.next d .inside c = .inside := if_neg hquote
  rw [placeholdersFrom_cons, hnext]
  exact if_neg fun h => QuoteState.noConfusion h.2

theorem closeQuote_ne_colon (d : Dialect) : d.closeQuote ≠ ':' := by
  cases d <;> decide

theorem placeholdersFrom_name (name : List Char) :
    placeholdersFrom d .inside
        (name.flatMap (fun c => if c = d.closeQuote then [c, c] else [c]) ++
          d.closeQuote :: rest) =
      placeholdersFrom d .closing rest := by
  have hcolon := closeQuote_ne_colon d
  have hopens : QuoteState.next d .inside d.closeQuote = .closing := if_pos rfl
  have hgoes : QuoteState.next d .closing d.closeQuote = .inside := if_pos (.inl rfl)
  induction name with
  | nil => rw [List.flatMap_nil, List.nil_append, placeholdersFrom_cons_of_ne _ hcolon, hopens]
  | cons c name ih =>
      rw [List.flatMap_cons, List.append_assoc]
      split
      next hc =>
        rw [hc, List.cons_append, List.cons_append, List.nil_append,
          placeholdersFrom_cons_of_ne _ hcolon, hopens, placeholdersFrom_cons_of_ne _ hcolon,
          hgoes, ih]
      next hc => rw [List.singleton_append, placeholdersFrom_inside hc, ih]

theorem placeholdersFrom_quoteChars (ends : EndsText d rest) (name : List Char) :
    placeholdersFrom d .outside (d.quoteChars name ++ rest) =
      placeholdersFrom d .outside rest := by
  have hopens : QuoteState.next d .outside d.openQuote = .inside := if_pos rfl
  rw [Dialect.quoteChars, List.cons_append, List.cons_append, List.append_assoc,
    placeholdersFrom_cons_of_ne _ (Operand.openQuote_ne_colon d), hopens, List.singleton_append,
    placeholdersFrom_name, placeholdersFrom_closing ends]

/-! ### Other text -/

theorem placeholdersFrom_mute (h : IsMute d chars) (rest : List Char) :
    placeholdersFrom d .outside (chars ++ rest) = placeholdersFrom d .outside rest := by
  induction chars with
  | nil => rfl
  | cons c chars ih =>
      obtain ⟨⟨hcolon, hquote⟩, hchars⟩ := List.forall_mem_cons.1 h
      have hnext : QuoteState.next d .outside c = .outside := if_neg hquote
      rw [List.cons_append, placeholdersFrom_cons_of_ne _ hcolon, hnext, ih hchars]

theorem isMute_of_all {p : Char → Bool} (hcolon : p ':' = false) (hquote : p d.openQuote = false)
    (h : chars.all p = true) : IsMute d chars := by
  intro c hc
  have hp := List.all_eq_true.1 h c hc
  constructor
  · rintro rfl
    exact Bool.false_ne_true (hcolon.symm.trans hp)
  · rintro rfl
    exact Bool.false_ne_true (hquote.symm.trans hp)

theorem isMute_word (h : chars.all Unicode.isWord = true) : IsMute d chars :=
  isMute_of_all (by decide +kernel) (by cases d <;> decide +kernel) h

/-- A placeholder is found by its whole name. -/
theorem placeholdersFrom_placeholder (ends : EndsText d rest) {name : List Char}
    (h : name.all Unicode.isWord = true) :
    placeholdersFrom d .outside (':' :: name ++ rest) =
      String.ofList name :: placeholdersFrom d .outside rest := by
  have hnext : QuoteState.next d .outside ':' = .outside :=
    if_neg (Operand.openQuote_ne_colon d).symm
  have hrun := takeWhile_run_append h fun c hc => (ends c hc).1
  rw [List.cons_append, placeholdersFrom_cons, hnext, hrun, placeholdersFrom_mute (isMute_word h)]
  exact if_pos ⟨rfl, rfl⟩

/-! ### Tokens -/

/-- Whether a keyword ends words and quoted names. -/
def Keyword.isBreak : Keyword → Bool
  | space | newline | comma | leftParen | rightParen => true
  | _ => false

/-- Every placeholder found in the text of tokens has a property, whatever
comes after them and ends their last word. -/
def MentionsOnly (d : Dialect) (P : String → Prop) (tokens : List Token) : Prop :=
  ∀ rest, EndsText d rest →
    ∀ name ∈ placeholdersFrom d .outside (tokens.flatMap (Token.chars d) ++ rest),
      P name ∨ name ∈ placeholdersFrom d .outside rest

variable {P : String → Prop} {tokens more : List Token} {token : Token} {word : Keyword}

/-- Text that mentions only names with values is closed under them. -/
theorem isClosed_render {values : Dict Json} (h : MentionsOnly d (HasValue values) tokens) :
    IsClosed d (render d tokens) values := by
  intro name hname
  rw [placeholders, render, String.toList_ofList] at hname
  rcases h [] (fun c hc => nomatch hc) name (by rwa [List.append_nil]) with hP | hnone
  · exact hP
  · cases hnone

theorem isMute_keyword (d : Dialect) (word : Keyword) :
    IsMute d ((Token.keyword word).chars d) := by
  have hword : word.text.toList.all (fun c => c ∉ [':', '`', '"', '[']) = true := by
    cases word <;> decide +kernel
  exact isMute_of_all (by decide) (by cases d <;> decide) hword

theorem endsText_keyword (h : word.isBreak = true) (rest : List Char) :
    EndsText d ((Token.keyword word).chars d ++ rest) := by
  intro c hc
  cases word <;> cases h <;> cases hc <;> cases d <;> decide +kernel

theorem MentionsOnly.mono {Q : String → Prop} (h : MentionsOnly d P tokens)
    (himp : ∀ name, P name → Q name) : MentionsOnly d Q tokens := by
  intro rest ends name hname
  exact (h rest ends name hname).imp_left (himp name)

theorem mentionsOnly_nil : MentionsOnly d P [] := fun _ _ _ hname => .inr hname

/-- Whether a token is a fixed word. -/
def Token.isKeyword : Token → Bool
  | keyword _ => true
  | _ => false

/-- Fixed words may stand in front of anything. -/
theorem mentionsOnly_keywords (htokens : tokens.all Token.isKeyword = true)
    (h : MentionsOnly d P more) : MentionsOnly d P (tokens ++ more) := by
  intro rest ends name hname
  have hmute : IsMute d (tokens.flatMap (Token.chars d)) := by
    intro c hc
    obtain ⟨token, htoken, hc⟩ := List.mem_flatMap.1 hc
    have hkeyword := List.all_eq_true.1 htokens token htoken
    cases token with
    | keyword word => exact isMute_keyword d word c hc
    | _ => cases hkeyword
  rw [List.flatMap_append, List.append_assoc, placeholdersFrom_mute hmute] at hname
  exact h rest ends name hname

theorem mentionsOnly_keyword (word : Keyword) (h : MentionsOnly d P more) :
    MentionsOnly d P (.keyword word :: more) := by
  have hword : [Token.keyword word].all Token.isKeyword = true := rfl
  exact mentionsOnly_keywords hword h

/-- A clause mentions what stands after its first word. -/
theorem mentionsOnly_clause (word : Keyword) (h : MentionsOnly d P more) :
    MentionsOnly d P (.keyword word :: .space :: more) :=
  mentionsOnly_keyword word (mentionsOnly_keyword .space h)

/-- A break may stand after anything. -/
theorem mentionsOnly_append_break (hbreak : word.isBreak = true) (htokens : MentionsOnly d P tokens)
    (h : MentionsOnly d P more) : MentionsOnly d P (tokens ++ .keyword word :: more) := by
  intro rest ends name hname
  rw [List.flatMap_append, List.append_assoc] at hname
  have hends : EndsText d ((Token.keyword word :: more).flatMap (Token.chars d) ++ rest) := by
    rw [List.flatMap_cons, List.append_assoc]
    exact endsText_keyword hbreak _
  rcases htokens _ hends name hname with hP | hrest
  · exact .inl hP
  · exact mentionsOnly_keyword word h rest ends name hrest

theorem mentionsOnly_words (h : ∀ token ∈ tokens, MentionsOnly d P [token]) :
    MentionsOnly d P (words tokens) := by
  induction tokens with
  | nil => exact mentionsOnly_nil
  | cons token tokens ih =>
      obtain ⟨htoken, htokens⟩ := List.forall_mem_cons.1 h
      cases tokens with
      | nil => exact htoken
      | cons next tokens => exact mentionsOnly_append_break rfl htoken (ih htokens)

theorem mentionsOnly_commaSeparated {items : List (List Token)}
    (h : ∀ item ∈ items, MentionsOnly d P item) : MentionsOnly d P (commaSeparated items) := by
  induction items with
  | nil => exact mentionsOnly_nil
  | cons item items ih =>
      obtain ⟨hitem, hitems⟩ := List.forall_mem_cons.1 h
      cases items with
      | nil => exact hitem
      | cons next items =>
          have hstep : commaSeparated (item :: next :: items) =
              item ++ .keyword .comma :: .keyword .space :: commaSeparated (next :: items) := by
            rw [commaSeparated, List.append_assoc]
            · rfl
            · exact List.cons_ne_nil _ _
          rw [hstep]
          exact mentionsOnly_append_break rfl hitem (mentionsOnly_keyword .space (ih hitems))

theorem mentionsOnly_stack {lines : List (List Token)}
    (h : ∀ line ∈ lines, MentionsOnly d P line) : MentionsOnly d P (stack lines) := by
  induction lines with
  | nil => exact mentionsOnly_nil
  | cons line lines ih =>
      obtain ⟨hline, hlines⟩ := List.forall_mem_cons.1 h
      cases lines with
      | nil => exact hline
      | cons next lines => exact mentionsOnly_append_break rfl hline (ih hlines)

theorem mentionsOnly_parenthesized (h : MentionsOnly d P tokens) :
    MentionsOnly d P (parenthesized tokens) :=
  mentionsOnly_keyword .leftParen (mentionsOnly_append_break rfl h mentionsOnly_nil)

/-! ### Single tokens -/

theorem mentionsOnly_of_eq
    (h : ∀ rest, EndsText d rest → placeholdersFrom d .outside (token.chars d ++ rest) =
      placeholdersFrom d .outside rest) : MentionsOnly d P [token] := by
  intro rest ends name hname
  rw [List.flatMap_singleton, h rest ends] at hname
  exact .inr hname

theorem mentionsOnly_mute (h : IsMute d (token.chars d)) : MentionsOnly d P [token] :=
  mentionsOnly_of_eq fun rest _ => placeholdersFrom_mute h rest

theorem mentionsOnly_ident (name : String) : MentionsOnly d P [.ident name] :=
  mentionsOnly_of_eq fun _ ends => placeholdersFrom_quoteChars ends name.toList

/-- Two names in quotes with a dot between them. -/
theorem placeholdersFrom_qualified (ends : EndsText d rest) (before after : List Char) :
    placeholdersFrom d .outside (d.quoteChars before ++ '.' :: d.quoteChars after ++ rest) =
      placeholdersFrom d .outside rest := by
  have hdot : ∀ c ∈ ('.' :: (d.quoteChars after ++ rest)).head?,
      Unicode.isWord c = false ∧ c ≠ d.closeQuote := by
    rintro _ ⟨⟩
    exact ⟨by decide +kernel, Dialect.dot_ne_closeQuote d⟩
  have hmute : IsMute d ['.'] := List.forall_mem_singleton.2
    ⟨by decide, by cases d <;> decide⟩
  rw [List.append_assoc, List.cons_append, placeholdersFrom_quoteChars hdot,
    ← List.singleton_append, placeholdersFrom_mute hmute, placeholdersFrom_quoteChars ends]

theorem mentionsOnly_table (schema : Option String) (name : String) :
    MentionsOnly d P [.table schema name] := by
  refine mentionsOnly_of_eq fun rest ends => ?_
  cases schema with
  | none => exact placeholdersFrom_quoteChars ends name.toList
  | some schema => exact placeholdersFrom_qualified ends schema.toList name.toList

theorem mentionsOnly_column (reference : String) : MentionsOnly d P [.column reference] := by
  refine mentionsOnly_of_eq fun rest ends => ?_
  rw [Token.chars, Dialect.columnChars]
  split
  next before after _ => exact placeholdersFrom_qualified ends before after
  next => exact placeholdersFrom_quoteChars ends reference.toList

theorem mentionsOnly_placeholder {name : String} (named : name.toList.all Unicode.isWord = true)
    (h : P name) : MentionsOnly d P [.placeholder name] := by
  intro rest ends other hother
  rw [List.flatMap_singleton, Token.chars, placeholdersFrom_placeholder ends named,
    String.ofList_toList] at hother
  rcases List.mem_cons.1 hother with rfl | hrest
  · exact .inl h
  · exact .inr hrest

theorem mentionsOnly_rowCount (count : UInt64) : MentionsOnly d P [.rowCount count] := by
  refine mentionsOnly_mute (isMute_word (List.all_eq_true.2 fun c hc => ?_))
  rw [Token.chars, Nat.toString_eq_repr, Nat.toList_repr] at hc
  exact Text.isWord_of_isDigit (List.all_eq_true.1 (Parameters.all_isDigit_toDigits _) c hc)

/-- Whether no placeholder can be found in a token, whatever it is made of. -/
def Token.isFixed : Token → Bool
  | placeholder _ | number _ | written _ => false
  | keyword _ | ident _ | table _ _ | column _ | rowCount _ => true

theorem mentionsOnly_fixedWords (h : tokens.all Token.isFixed = true) :
    MentionsOnly d P (words tokens) := by
  refine mentionsOnly_words fun token htoken => ?_
  have hfixed := List.all_eq_true.1 h token htoken
  cases token with
  | keyword word => exact mentionsOnly_mute (isMute_keyword d word)
  | ident name => exact mentionsOnly_ident name
  | table schema name => exact mentionsOnly_table schema name
  | column reference => exact mentionsOnly_column reference
  | rowCount count => exact mentionsOnly_rowCount count
  | placeholder name => cases hfixed
  | number spelling => cases hfixed
  | written text => cases hfixed

/-- Text that was written from tokens counts as the tokens. -/
theorem mentionsOnly_written (h : MentionsOnly d P tokens) :
    MentionsOnly d P [.written (render d tokens)] := by
  intro rest ends
  rw [List.flatMap_singleton, Token.chars, render, String.toList_ofList]
  exact h rest ends

end EntityQuery.Sql
