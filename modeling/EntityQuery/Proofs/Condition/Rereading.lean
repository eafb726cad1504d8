import EntityQuery.Proofs.Condition.Lexing
import Mathlib.Data.List.Basic

/-!
# Reading a condition back from its JSON form

The text of a condition's JSON form is read as the condition with its columns
and placeholders escaped (`Condition.ofJson_toJson`), since escapes
are not undone between quotes. So a condition comes back as itself exactly if
its operators and lists are those of parsed conditions, its columns,
placeholders and numbers are taken for what they are, and nothing in it is
escaped (`Condition.ofJson_toJson_eq_ok_iff`).
-/

namespace EntityQuery

open Condition

/-! ### Escaped conditions -/

theorem Operator.escapedText_keyword (op : Operator) : Json.escapedText op.keyword = op.keyword :=
  Json.escapedText_eq_self_iff.2 (by cases op <;> decide)

namespace Operand

/-- An operand with its text escaped. -/
def escaped : Operand → Operand
  | column name => .column (Json.escapedText name)
  | parameter name => .parameter (Json.escapedText name)
  | number spelling => .number spelling

/-- Whether an operand stands for itself in JSON text. -/
def isPlain : Operand → Bool
  | column name | parameter name => Json.isPlain name
  | number _ => true

theorem escaped_eq_self_iff {value : Operand} : value.escaped = value ↔ value.isPlain = true := by
  cases value with
  | column name => rw [escaped, isPlain, ← Json.escapedText_eq_self_iff, column.injEq]
  | parameter name => rw [escaped, isPlain, ← Json.escapedText_eq_self_iff, parameter.injEq]
  | number spelling => exact iff_of_true rfl rfl

/-- Escapes make no column look like a placeholder or an operator. -/
theorem isGenuine_escaped {value : Operand} (h : value.isGenuine = true) :
    value.escaped.isGenuine = true := by
  cases value with
  | column name =>
      rw [isGenuine, Bool.and_eq_true, bne_iff_ne, Option.isNone_iff_eq_none] at h
      rw [escaped, isGenuine, Bool.and_eq_true, bne_iff_ne, Option.isNone_iff_eq_none]
      refine ⟨fun hhead => h.1 (Json.head?_of_escapedText hhead), ?_⟩
      rw [Operator.ofKeyword?, List.find?_eq_none] at h ⊢
      intro op hop hkeyword
      rw [decide_eq_true_eq, ← op.escapedText_keyword] at hkeyword
      exact h.2 op hop (decide_eq_true (Json.escapedText_inj hkeyword))
  | parameter name =>
      rw [isGenuine_parameter] at h
      rw [escaped, isGenuine_parameter]
      exact fun hempty => h (Json.escapedText_inj hempty)
  | number spelling => exact h

end Operand

namespace Condition

mutual

/-- A condition with every column and placeholder escaped. -/
def escaped : Condition → Condition
  | comparison op column value => .comparison op (Json.escapedText column) value.escaped
  | nullTest op column => .nullTest op (Json.escapedText column)
  | membership op column values =>
      .membership op (Json.escapedText column) (values.map Operand.escaped)
  | boolean op conditions => .boolean op (escapedList conditions)

/-- Each of some conditions with every column and placeholder escaped. -/
def escapedList : List Condition → List Condition
  | [] => []
  | condition :: rest => escaped condition :: escapedList rest

end

mutual

/-- Every column and operand, from left to right. -/
def leaves : Condition → List Operand
  | comparison _ column value => [.column column, value]
  | nullTest _ column => [.column column]
  | membership _ column values => .column column :: values
  | boolean _ conditions => leavesIn conditions

/-- Every column and operand in a list of conditions. -/
def leavesIn : List Condition → List Operand
  | [] => []
  | condition :: rest => leaves condition ++ leavesIn rest

end

/-- Whether a condition is one that a text can stand for in JSON: each operator
is of the kind of its node, no list is empty, columns, placeholders and numbers
are taken for what they are, and none of them is escaped. -/
def isWellFormed (condition : Condition) : Bool :=
  condition.isWellKinded && condition.leaves.all fun value => value.isGenuine && value.isPlain

theorem escapedList_eq_map (conditions : List Condition) :
    escapedList conditions = conditions.map escaped := by
  induction conditions with
  | nil => rfl
  | cons condition rest ih => rw [escapedList, ih, List.map_cons]

theorem toJsonList_eq_map (conditions : List Condition) :
    toJsonList conditions = conditions.map toJson := by
  induction conditions with
  | nil => rfl
  | cons condition rest ih => rw [toJsonList, ih, List.map_cons]

theorem leavesIn_eq_flatMap (conditions : List Condition) :
    leavesIn conditions = conditions.flatMap leaves := by
  induction conditions with
  | nil => rfl
  | cons condition rest ih => rw [leavesIn, ih, List.flatMap_cons]

theorem leaves_escaped (condition : Condition) :
    condition.escaped.leaves = condition.leaves.map Operand.escaped := by
  induction condition using inductionOn with
  | comparison op column value => rfl
  | nullTest op column => rfl
  | membership op column values => rfl
  | boolean op conditions ih =>
      rw [escaped, leaves, leaves, leavesIn_eq_flatMap, leavesIn_eq_flatMap, escapedList_eq_map,
        List.flatMap_map, List.map_flatMap]
      exact List.flatMap_congr ih

theorem isWellKinded_escaped (condition : Condition) :
    condition.escaped.isWellKinded = condition.isWellKinded := by
  induction condition using inductionOn with
  | comparison op column value => rfl
  | nullTest op column => rfl
  | membership op column values => rw [escaped, isWellKinded, isWellKinded, List.isEmpty_map]
  | boolean op conditions ih =>
      have hconditions : areWellKinded (conditions.map escaped) = areWellKinded conditions := by
        rw [Bool.eq_iff_iff, areWellKinded_iff, areWellKinded_iff, List.forall_mem_map]
        exact forall₂_congr fun c hc => by rw [ih c hc]
      rw [escaped, isWellKinded, isWellKinded, escapedList_eq_map, List.isEmpty_map, hconditions]

theorem escaped_eq_self {condition : Condition}
    (h : ∀ value ∈ condition.leaves, value.escaped = value) : condition.escaped = condition := by
  induction condition using inductionOn with
  | comparison op column value =>
      have hcolumn := Operand.column.inj (h (.column column) List.mem_cons_self)
      have hvalue := h value (List.mem_cons_of_mem _ List.mem_cons_self)
      rw [escaped, hcolumn, hvalue]
  | nullTest op column =>
      have hcolumn := Operand.column.inj (h (.column column) List.mem_cons_self)
      rw [escaped, hcolumn]
  | membership op column values =>
      have hcolumn := Operand.column.inj (h (.column column) List.mem_cons_self)
      have hvalues : values.map Operand.escaped = values.map id :=
        List.map_congr_left fun value hvalue => h value (List.mem_cons_of_mem _ hvalue)
      rw [escaped, hcolumn, hvalues, List.map_id]
  | boolean op conditions ih =>
      rw [leaves, leavesIn_eq_flatMap] at h
      have hconditions : conditions.map escaped = conditions.map id := by
        refine List.map_congr_left fun c hc => ih c hc fun value hvalue => ?_
        exact h value (List.mem_flatMap_of_mem hc hvalue)
      rw [escaped, escapedList_eq_map, hconditions, List.map_id]

/-! ### The text of a condition -/

/-- The characters of tokens one after the other. -/
def charsOf (tokens : List Token) : List Char := tokens.flatMap Token.chars

@[simp] theorem charsOf_nil : charsOf [] = [] := rfl

@[simp] theorem charsOf_cons (token : Token) (tokens : List Token) :
    charsOf (token :: tokens) = token.chars ++ charsOf tokens := List.flatMap_cons

@[simp] theorem charsOf_append (tokens more : List Token) :
    charsOf (tokens ++ more) = charsOf tokens ++ charsOf more := List.flatMap_append

theorem chars_operand (value : Operand) : value.toJson.chars = charsOf [value.escaped.token] := by
  rw [charsOf_cons, charsOf_nil, List.append_nil]
  cases value with
  | column name => exact Json.stringChars_eq name
  | parameter name =>
      rw [Operand.toJson, Json.chars, Json.stringChars_eq, Json.escapedText_colon_append,
        String.toList_append]
      rfl
  | number spelling => rfl

section Tagged

variable {value : Json} {tokens : List Token}

theorem chars_tagged (op : Operator) (h : value.chars = charsOf tokens) :
    (Json.obj [(op.keyword, value)]).chars =
      charsOf (opening op ++ tokens ++ [.mark .closeBrace]) := by
  rw [Json.chars, Json.memberChars, Json.stringChars_eq, op.escapedText_keyword, h]
  simp [opening, Token.chars, Mark.char]

theorem chars_subject (column : String) (h : value.chars = charsOf tokens) :
    (Json.obj [(column, value)]).chars =
      charsOf ([.mark .openBrace, .column (Json.escapedText column), .mark .colon] ++ tokens ++
        [.mark .closeBrace]) := by
  rw [Json.chars, Json.memberChars, Json.stringChars_eq, h]
  simp [Token.chars, Mark.char]

theorem chars_list {items : List Json} (h : Json.itemChars items = charsOf tokens) :
    (Json.arr items).chars =
      charsOf ([.mark .openBracket] ++ tokens ++ [.mark .closeBracket]) := by
  rw [Json.chars, h]
  simp [Token.chars, Mark.char]

end Tagged

/-- Items are written as the tokens of their parts, with commas between them. -/
theorem itemChars_map {α : Type} {json : α → Json} {part : α → List Token} {items : List α}
    (h : ∀ item ∈ items, (json item).chars = charsOf (part item)) :
    Json.itemChars (items.map json) = charsOf (commaSeparated (items.map part)) := by
  induction items with
  | nil => rfl
  | cons item items ih =>
      obtain ⟨hitem, hitems⟩ := List.forall_mem_cons.1 h
      cases items with
      | nil => exact hitem
      | cons next rest =>
          have hrest := ih hitems
          rw [List.map_cons] at hrest
          rw [List.map_cons, List.map_cons, List.map_cons, List.map_cons, Json.itemChars,
            commaSeparated, charsOf_append, charsOf_cons, hitem, hrest]
          · rfl
          · exact List.cons_ne_nil _ _
          · exact List.cons_ne_nil _ _

/-- The JSON form of a condition is written as the tokens of its escaped form. -/
theorem chars_toJson (condition : Condition) :
    condition.toJson.chars = charsOf condition.escaped.tokens := by
  induction condition using inductionOn with
  | comparison op column value =>
      rw [toJson, chars_tagged op (chars_subject column (chars_operand value)), escaped, tokens]
      simp
  | nullTest op column =>
      have hnull : Json.null.chars = charsOf [.null] := rfl
      rw [toJson, chars_tagged op (chars_subject column hnull), escaped, tokens]
      simp
  | membership op column values =>
      have hitems : Json.itemChars (values.map Operand.toJson) =
          charsOf (commaSeparated (operandTokens (values.map Operand.escaped))) := by
        rw [operandTokens, List.map_map]
        exact itemChars_map fun value _ => chars_operand value
      rw [toJson, chars_tagged op (chars_subject column (chars_list hitems)), escaped, tokens]
      simp
  | boolean op conditions ih =>
      have hitems : Json.itemChars (toJsonList conditions) =
          charsOf (commaSeparated (listTokens (escapedList conditions))) := by
        rw [toJsonList_eq_map, listTokens_eq_map, escapedList_eq_map, List.map_map]
        exact itemChars_map ih
      rw [toJson, chars_tagged op (chars_list hitems), escaped, tokens]
      simp

/-! ### Reading tokens from their characters -/

/-- Tokens are read from their characters wherever these are followed by
something that ends a word. -/
def IsLegible (tokens : List Token) : Prop :=
  ∀ rest more, EndsWord rest → Reads rest more → Reads (charsOf tokens ++ rest) (tokens ++ more)

theorem reads_charsOf {tokens : List Token} (h : IsLegible tokens) :
    Reads (charsOf tokens) tokens := by
  have hread := h [] [] (fun c hc => by cases hc) reads_nil
  rwa [List.append_nil, List.append_nil] at hread

/-- A mark may stand after anything. -/
theorem isLegible_append_mark {tokens more : List Token} (mark : Mark) (htokens : IsLegible tokens)
    (hmore : IsLegible more) : IsLegible (tokens ++ .mark mark :: more) := by
  intro rest after ends hrest
  have hends : EndsWord (mark.char :: (charsOf more ++ rest)) := by
    rintro c ⟨⟩
    cases mark <;> rfl
  have hread := htokens _ _ hends (reads_mark mark (hmore rest after ends hrest))
  rw [charsOf_append, charsOf_cons, List.append_assoc, List.append_assoc, List.append_assoc]
  exact hread

theorem isLegible_nil : IsLegible [] := fun _ _ _ hrest => hrest

theorem isLegible_mark {tokens : List Token} (mark : Mark) (h : IsLegible tokens) :
    IsLegible (.mark mark :: tokens) :=
  isLegible_append_mark mark isLegible_nil h

theorem isLegible_commaSeparated {parts : List (List Token)}
    (h : ∀ part ∈ parts, IsLegible part) : IsLegible (commaSeparated parts) := by
  induction parts with
  | nil => exact isLegible_nil
  | cons part parts ih =>
      obtain ⟨hpart, hparts⟩ := List.forall_mem_cons.1 h
      cases parts with
      | nil => exact hpart
      | cons next rest => exact isLegible_append_mark .comma hpart (ih hparts)

theorem isLegible_operator (op : Operator) : IsLegible [.operator op] := by
  intro rest more _ hrest
  rw [charsOf_cons, charsOf_nil, List.append_nil]
  exact reads_operator op hrest

theorem isLegible_null : IsLegible [.null] := by
  intro rest more ends hrest
  rw [charsOf_cons, charsOf_nil, List.append_nil]
  exact reads_null ends hrest

/-- Escaped text ends at the quote after it. -/
theorem isDelimited_escapedText (text : String) : IsDelimited (Json.escapedText text).toList := by
  rw [Json.escapedText, String.toList_ofList]
  induction text.toList with
  | nil => exact fun _ => rfl
  | cons c chars ih =>
      rw [List.flatMap_cons]
      by_cases hc : Json.isPlainChar c = true
      · rw [Json.escapedChar_of_isPlainChar hc]
        exact isDelimited_append (by rw [List.all_cons, hc]; rfl) ih
      · obtain ⟨d, more, hescape, hmore⟩ := Json.escapedChar_of_not_isPlainChar hc
        rw [hescape]
        exact isDelimited_escape (isDelimited_append hmore ih)

/-- A genuine operand is read as its escaped form. -/
theorem isLegible_escaped {value : Operand} (genuine : value.escaped.isGenuine = true) :
    IsLegible [value.escaped.token] := by
  intro rest more ends hrest
  rw [charsOf_cons, charsOf_nil, List.append_nil]
  refine reads_operand genuine ?_ ends hrest
  cases value with
  | column name =>
      rintro _ (⟨⟨⟩⟩ | ⟨⟨⟩⟩)
      exact isDelimited_escapedText name
  | parameter name =>
      rintro _ (⟨⟨⟩⟩ | ⟨⟨⟩⟩)
      exact isDelimited_escapedText name
  | number spelling => rintro _ (⟨⟨⟩⟩ | ⟨⟨⟩⟩)

theorem isLegible_opening (op : Operator) {tokens : List Token} (h : IsLegible tokens) :
    IsLegible (opening op ++ tokens) :=
  isLegible_mark .openBrace (isLegible_append_mark .colon (isLegible_operator op) h)

theorem isLegible_subject {column : String} {tokens : List Token}
    (hcolumn : IsLegible [.column column]) (h : IsLegible tokens) :
    IsLegible (.mark .openBrace :: .column column :: .mark .colon :: tokens) :=
  isLegible_mark .openBrace (isLegible_append_mark .colon hcolumn h)

/-- The tokens of a condition are read if those of its columns and operands are. -/
theorem isLegible_tokens (condition : Condition)
    (h : ∀ value ∈ condition.leaves, IsLegible [value.token]) : IsLegible condition.tokens := by
  have hbrace : IsLegible [.mark .closeBrace] := isLegible_mark .closeBrace isLegible_nil
  have hbraces : IsLegible [.mark .closeBrace, .mark .closeBrace] :=
    isLegible_mark .closeBrace hbrace
  induction condition using inductionOn with
  | comparison op column value =>
      have hcolumn := h (.column column) List.mem_cons_self
      have hvalue := h value (List.mem_cons_of_mem _ List.mem_cons_self)
      rw [tokens]
      exact isLegible_opening op
        (isLegible_subject hcolumn (isLegible_append_mark .closeBrace hvalue hbrace))
  | nullTest op column =>
      have hcolumn := h (.column column) List.mem_cons_self
      rw [tokens]
      exact isLegible_opening op
        (isLegible_subject hcolumn (isLegible_append_mark .closeBrace isLegible_null hbrace))
  | membership op column values =>
      have hcolumn := h (.column column) List.mem_cons_self
      have hvalues : IsLegible (commaSeparated (operandTokens values)) := by
        apply isLegible_commaSeparated
        intro part hpart
        obtain ⟨value, hvalue, rfl⟩ := List.mem_map.1 hpart
        exact h value (List.mem_cons_of_mem _ hvalue)
      rw [tokens, List.append_assoc, List.append_assoc]
      exact isLegible_opening op (isLegible_subject hcolumn (isLegible_mark .openBracket
        (isLegible_append_mark .closeBracket hvalues hbraces)))
  | boolean op conditions ih =>
      rw [leaves, leavesIn_eq_flatMap] at h
      have hconditions : IsLegible (commaSeparated (listTokens conditions)) := by
        rw [listTokens_eq_map]
        apply isLegible_commaSeparated
        intro part hpart
        obtain ⟨condition, hcondition, rfl⟩ := List.mem_map.1 hpart
        exact ih condition hcondition fun value hvalue =>
          h value (List.mem_flatMap_of_mem hcondition hvalue)
      rw [tokens, List.append_assoc, List.append_assoc]
      exact isLegible_opening op (isLegible_mark .openBracket
        (isLegible_append_mark .closeBracket hconditions hbrace))

/-! ### Conditions that are read back -/

theorem mem_commaSeparated {part : List Token} {parts : List (List Token)} {token : Token}
    (hpart : part ∈ parts) (htoken : token ∈ part) : token ∈ commaSeparated parts := by
  induction parts with
  | nil => cases hpart
  | cons first parts ih =>
      cases parts with
      | nil =>
          rw [List.mem_singleton] at hpart
          exact hpart ▸ htoken
      | cons next rest =>
          have hstep : commaSeparated (first :: next :: rest) =
              first ++ .mark .comma :: commaSeparated (next :: rest) := rfl
          rw [hstep, List.mem_append, List.mem_cons]
          rcases List.mem_cons.1 hpart with rfl | hrest
          · exact .inl htoken
          · exact .inr (.inr (ih hrest))

/-- Every column and operand of a condition is one of its tokens. -/
theorem token_mem_tokens {condition : Condition} {value : Operand}
    (h : value ∈ condition.leaves) : value.token ∈ condition.tokens := by
  induction condition using inductionOn with
  | comparison op column other =>
      rw [leaves, List.mem_pair] at h
      rcases h with rfl | rfl
      · simp [tokens, Operand.token]
      · simp [tokens]
  | nullTest op column =>
      rw [leaves, List.mem_singleton] at h
      subst h
      simp [tokens, Operand.token]
  | membership op column values =>
      rcases List.mem_cons.1 h with rfl | hvalue
      · simp [tokens, Operand.token]
      · have hpart : [value.token] ∈ operandTokens values := List.mem_map_of_mem hvalue
        have hmem := mem_commaSeparated hpart List.mem_cons_self
        simp [tokens, hmem]
  | boolean op conditions ih =>
      rw [leaves, leavesIn_eq_flatMap] at h
      obtain ⟨c, hc, hvalue⟩ := List.mem_flatMap.1 h
      have hpart : c.tokens ∈ listTokens conditions := by
        rw [listTokens_eq_map]
        exact List.mem_map_of_mem hc
      have hmem := mem_commaSeparated hpart (ih c hc hvalue)
      simp [tokens, hmem]

theorem parse_eq_ok_iff_lex {source : String} {condition : Condition} :
    parse source = .ok condition ↔
      ∃ placed, lex source = .ok placed ∧
        Reader.initial.read (placed.map Placed.value) = .ok condition := by
  rw [parse, bind_eq_ok]
  refine exists_congr fun placed => and_congr_right fun _ => ?_
  cases Reader.initial.read (placed.map Placed.value) with
  | ok other => simp
  | error error => simp

theorem exists_lex_of_map {source : String} {tokens : List Token}
    (h : (lex source).map (List.map Placed.value) = .ok tokens) :
    ∃ placed, lex source = .ok placed ∧ placed.map Placed.value = tokens := by
  cases hlex : lex source with
  | error error => rw [hlex] at h; cases h
  | ok placed => rw [hlex] at h; exact ⟨placed, rfl, Except.ok.inj h⟩

/-- A text with the tokens of a condition is read as the condition. -/
theorem parse_of_tokens {source : String} {condition : Condition}
    (h : (lex source).map (List.map Placed.value) = .ok condition.tokens)
    (kinded : condition.isWellKinded = true) : parse source = .ok condition := by
  obtain ⟨placed, hlex, htokens⟩ := exists_lex_of_map h
  exact parse_eq_ok_iff_lex.2 ⟨placed, hlex, Reader.read_eq_ok_iff.2 ⟨htokens, kinded⟩⟩

/-- What is read from the JSON form of a condition with genuine columns and
operands is its escaped form. -/
theorem ofJson_toJson {condition : Condition} (kinded : condition.isWellKinded = true)
    (genuine : ∀ value ∈ condition.leaves, value.isGenuine = true) :
    ofJson condition.toJson = .ok condition.escaped := by
  have hlegible : IsLegible condition.escaped.tokens := by
    apply isLegible_tokens _
    intro value hvalue
    rw [leaves_escaped] at hvalue
    obtain ⟨value, hmem, rfl⟩ := List.mem_map.1 hvalue
    exact isLegible_escaped (Operand.isGenuine_escaped (genuine value hmem))
  obtain ⟨placed, hplaced, htokens⟩ := reads_charsOf hlegible 0
  rw [ofJson, parse_eq_ok_iff_lex]
  refine ⟨placed, ?_, ?_⟩
  · rw [lex, Json.text, String.toList_ofList, chars_toJson]
    exact hplaced
  · rw [Reader.read_eq_ok_iff, isWellKinded_escaped]
    exact ⟨htokens, kinded⟩

/-- Where nothing is escaped, the condition itself is read. -/
theorem ofJson_toJson_of_isPlain {condition : Condition} (kinded : condition.isWellKinded = true)
    (genuine : ∀ value ∈ condition.leaves, value.isGenuine = true)
    (plain : ∀ value ∈ condition.leaves, value.isPlain = true) :
    ofJson condition.toJson = .ok condition := by
  have hescaped : condition.escaped = condition :=
    escaped_eq_self fun value hvalue => Operand.escaped_eq_self_iff.2 (plain value hvalue)
  rw [ofJson_toJson kinded genuine, hescaped]

/-- What is read from a text is well kinded and has genuine columns and operands. -/
theorem isGenuine_of_parse {source : String} {condition : Condition}
    (h : parse source = .ok condition) :
    condition.isWellKinded = true ∧ ∀ value ∈ condition.leaves, value.isGenuine = true := by
  obtain ⟨placed, hlex, hread⟩ := parse_eq_ok_iff_lex.1 h
  obtain ⟨htokens, hkinded⟩ := Reader.read_eq_ok_iff.1 hread
  refine ⟨hkinded, fun value hvalue => isGenuine_of_lex hlex ?_⟩
  rw [htokens]
  exact token_mem_tokens hvalue

theorem isWellFormed_iff {condition : Condition} : condition.isWellFormed = true ↔
    condition.isWellKinded = true ∧ (∀ value ∈ condition.leaves, value.isGenuine = true) ∧
      ∀ value ∈ condition.leaves, value.isPlain = true := by
  rw [isWellFormed, Bool.and_eq_true, List.all_eq_true]
  apply and_congr_right
  intro _
  simp only [Bool.and_eq_true]
  exact ⟨fun h => ⟨fun v hv => (h v hv).1, fun v hv => (h v hv).2⟩,
    fun h v hv => ⟨h.1 v hv, h.2 v hv⟩⟩

/-- A condition is read back from its JSON form exactly if it is well formed. -/
theorem ofJson_toJson_eq_ok_iff (condition : Condition) :
    ofJson condition.toJson = .ok condition ↔ condition.isWellFormed = true := by
  rw [isWellFormed_iff]
  constructor
  · intro h
    obtain ⟨hkinded, hgenuine⟩ := isGenuine_of_parse h
    refine ⟨hkinded, hgenuine, fun value hvalue => ?_⟩
    have hescaped : condition.escaped = condition :=
      Except.ok.inj ((ofJson_toJson hkinded hgenuine).symm.trans h)
    have hleaves : condition.leaves.map Operand.escaped = condition.leaves.map id := by
      rw [← leaves_escaped, hescaped, List.map_id]
    have hself : value.escaped = value := List.map_inj_left.1 hleaves value hvalue
    exact Operand.escaped_eq_self_iff.1 hself
  · rintro ⟨hkinded, hgenuine, hplain⟩
    exact ofJson_toJson_of_isPlain hkinded hgenuine hplain

end Condition

end EntityQuery
