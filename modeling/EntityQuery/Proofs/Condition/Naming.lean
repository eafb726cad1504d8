import EntityQuery.Proofs.JoinGraph.Calls
import EntityQuery.Proofs.Sql.Placeholders

/-!
# Placeholders of conditions

The text of a condition mentions its own placeholders and nothing else, as long
as their names consist of word characters. Renaming columns brings in no
placeholder, so a condition that a graph has accepted mentions only names with
values (`Restriction.mentionsOnly`).

Columns and numbers may hold any text that they are read from: a column is in
quotes, and no number has a colon in it.
-/

namespace EntityQuery

/-! ### Operands -/

namespace Operand

variable {d : Sql.Dialect} {P : String → Prop}

/-- The text of a name begins with a word character. -/
theorem exists_cons_of_isName {label : String} (named : Text.isName label = true) :
    ∃ c rest, label.toList = c :: rest ∧ Unicode.isWord c = true := by
  obtain ⟨hne, hwords⟩ := Text.isName_iff.1 named
  cases hlabel : label.toList with
  | nil => exact absurd (String.toList_eq_nil_iff.1 hlabel) hne
  | cons c rest =>
      rw [hlabel, List.all_cons, Bool.and_eq_true] at hwords
      exact ⟨c, rest, rfl, hwords.1⟩

/-- A property under an alias is neither a placeholder nor an operator. -/
theorem isGenuine_column {label : String} (named : Text.isName label = true)
    (property : String) : (column (label ++ "." ++ property)).isGenuine = true := by
  obtain ⟨c, rest, hlabel, hword⟩ := exists_cons_of_isName named
  have hhead : (label ++ "." ++ property).toList.head? = some c := by
    rw [String.toList_append, String.toList_append, hlabel]
    rfl
  have hne : c ≠ ':' ∧ c ≠ '$' := by
    constructor <;> rintro rfl <;> exact absurd hword (by decide +kernel)
  rw [isGenuine, Bool.and_eq_true, hhead, bne_iff_ne, Option.isNone_iff_eq_none,
    Operator.ofKeyword?, List.find?_eq_none]
  refine ⟨fun h => hne.1 (Option.some.inj h), fun op _ hop => ?_⟩
  have hkeyword := congrArg (fun text : String => text.toList.head?) (of_decide_eq_true hop)
  have hdollar : op.keyword.toList.head? = some '$' := by cases op <;> rfl
  rw [hhead, hdollar] at hkeyword
  exact hne.2 (Option.some.inj hkeyword).symm

/-- A property under an alias is written as it is, if its name is. -/
theorem isPlain_column {label property : String} (named : Text.isName label = true)
    (plain : Json.isPlain property = true) :
    (column (label ++ "." ++ property)).isPlain = true := by
  rw [isPlain, Json.isPlain_append, Json.isPlain_append, plain,
    Text.isPlain_of_all_isWord (Text.isName_iff.1 named).2]
  rfl

theorem mentionsOnly_sqlToken {value : Operand} (genuine : value.isGenuine = true)
    (h : ∀ name ∈ value.parameter?, name.toList.all Unicode.isWord = true ∧ P name) :
    Sql.MentionsOnly d P [value.sqlToken] := by
  cases value with
  | column name => exact Sql.mentionsOnly_column name
  | parameter name =>
      obtain ⟨named, hname⟩ := h name rfl
      exact Sql.mentionsOnly_placeholder named hname
  | number spelling =>
      have hcolon : Condition.isNumberChar ':' = false := by decide +kernel
      have hnumber := Condition.isNumberChar_of_isNumber genuine
      exact Sql.mentionsOnly_mute
        (Sql.isMute_of_all hcolon (isNumberChar_openQuote d) hnumber.2)

end Operand

namespace Condition

variable {d : Sql.Dialect} {P : String → Prop} {condition renamed : Condition}

theorem mem_parameters {name : String} :
    name ∈ condition.parameters ↔ .parameter name ∈ condition.operands := by
  rw [parameters, List.mem_eraseDups, List.mem_filterMap]
  constructor
  · rintro ⟨value, hvalue, hname⟩
    cases value with
    | parameter name' => exact Option.some.inj hname ▸ hvalue
    | column name' => cases hname
    | number spelling => cases hname
  · exact fun h => ⟨_, h, rfl⟩

theorem mem_leaves_of_mem_operands {value : Operand} (h : value ∈ condition.operands) :
    value ∈ condition.leaves := by
  induction condition using inductionOn with
  | comparison op column other => exact List.mem_cons_of_mem _ h
  | nullTest op column => cases h
  | membership op column values => exact List.mem_cons_of_mem _ h
  | boolean op conditions ih =>
      rw [operands, operandsIn_eq_flatMap] at h
      obtain ⟨c, hc, hvalue⟩ := List.mem_flatMap.1 h
      rw [leaves, leavesIn_eq_flatMap]
      exact List.mem_flatMap_of_mem hc (ih c hc hvalue)

/-! ### Conditions in SQL -/

theorem mentionsOnly_infixTokens {tokens more : List Sql.Token} (op : Operator)
    (htokens : Sql.MentionsOnly d P tokens) (h : Sql.MentionsOnly d P more) :
    Sql.MentionsOnly d P (tokens ++ infixTokens op ++ more) := by
  have hop : (op.sqlTokens ++ [Sql.Token.space]).all Sql.Token.isKeyword = true := by
    cases op <;> rfl
  have hsplit : tokens ++ infixTokens op ++ more =
      tokens ++ .keyword .space :: (op.sqlTokens ++ [Sql.Token.space] ++ more) := by
    rw [List.append_assoc]
    rfl
  rw [hsplit]
  exact Sql.mentionsOnly_append_break rfl htokens (Sql.mentionsOnly_keywords hop h)

theorem mentionsOnly_joinedTokens (op : Operator) {conditions : List Condition}
    (h : ∀ condition ∈ conditions, Sql.MentionsOnly d P condition.sqlTokens) :
    Sql.MentionsOnly d P (joinedTokens op conditions) := by
  induction conditions with
  | nil => exact Sql.mentionsOnly_nil
  | cons condition rest ih =>
      obtain ⟨hcondition, hrest⟩ := List.forall_mem_cons.1 h
      cases rest with
      | nil => exact hcondition
      | cons next rest =>
          rw [joinedTokens_cons_cons]
          exact mentionsOnly_infixTokens op hcondition (ih hrest)

/-- A condition mentions what its operands mention. -/
theorem mentionsOnly_sqlTokens
    (h : ∀ value ∈ condition.operands, Sql.MentionsOnly d P [value.sqlToken]) :
    Sql.MentionsOnly d P condition.sqlTokens := by
  induction condition using inductionOn with
  | comparison op column value =>
      exact mentionsOnly_infixTokens op (Sql.mentionsOnly_column column)
        (h value List.mem_cons_self)
  | nullTest op column =>
      exact mentionsOnly_infixTokens op (Sql.mentionsOnly_column column)
        (Sql.mentionsOnly_keyword .null Sql.mentionsOnly_nil)
  | membership op column values =>
      refine mentionsOnly_infixTokens op (Sql.mentionsOnly_column column)
        (Sql.mentionsOnly_parenthesized (Sql.mentionsOnly_commaSeparated ?_))
      exact List.forall_mem_map.2 h
  | boolean op conditions ih =>
      refine Sql.mentionsOnly_parenthesized (mentionsOnly_joinedTokens op fun c hc => ?_)
      refine ih c hc fun value hvalue => h value ?_
      rw [operands, operandsIn_eq_flatMap]
      exact List.mem_flatMap_of_mem hc hvalue

/-! ### Renamed conditions -/

/-- Renaming brings in no operand but columns. -/
theorem mem_operands_of_rename {lookup : String → Option String}
    (h : condition.rename lookup = .ok renamed) {value : Operand}
    (hvalue : value ∈ renamed.operands) :
    value ∈ condition.operands ∨ ∃ name, value = .column name := by
  obtain ⟨-, rfl⟩ := rename_eq_ok_iff.1 h
  rw [operands_mapColumns] at hvalue
  obtain ⟨before, hbefore, rfl⟩ := List.mem_map.1 hvalue
  cases before with
  | column name => exact .inr ⟨_, rfl⟩
  | parameter name => exact .inl hbefore
  | number spelling => exact .inl hbefore

/-! ### Conditions with named placeholders -/

/-- The placeholders of a JSON condition are named in word characters. -/
def IsNamed (source : Json) : Prop :=
  ∀ condition, ofJson source = .ok condition →
    ∀ name ∈ condition.parameters, name.toList.all Unicode.isWord = true

instance (source : Json) : Decidable (IsNamed source) :=
  match h : ofJson source with
  | .error _ => .isTrue fun _ hread => nomatch h.symm.trans hread
  | .ok condition =>
      decidable_of_iff (∀ name ∈ condition.parameters, name.toList.all Unicode.isWord = true)
        ⟨fun named _ hread => Except.ok.inj (h.symm.trans hread) ▸ named, fun named =>
          named condition h⟩

/-- A condition in JSON form has the placeholders of the condition itself. -/
theorem isNamed_toJson (kinded : condition.isWellKinded = true)
    (genuine : ∀ value ∈ condition.leaves, value.isGenuine = true)
    (named : ∀ name, .parameter name ∈ condition.leaves →
      name.toList.all Unicode.isWord = true) : IsNamed condition.toJson := by
  intro read hread name hname
  obtain rfl : condition.escaped = read :=
    Except.ok.inj ((ofJson_toJson kinded genuine).symm.trans hread)
  have hleaf := mem_leaves_of_mem_operands (mem_parameters.1 hname)
  rw [leaves_escaped] at hleaf
  obtain ⟨value, hvalue, heq⟩ := List.mem_map.1 hleaf
  cases value with
  | column name' => cases heq
  | number spelling => cases heq
  | parameter name' =>
      have hword := named name' hvalue
      have hplain : (Operand.parameter name').escaped = .parameter name' :=
        Operand.escaped_eq_self_iff.2 (Text.isPlain_of_all_isWord hword)
      rw [hplain] at heq
      exact Operand.parameter.inj heq ▸ hword

end Condition

/-! ### Accepted conditions -/

namespace Restriction

variable {dialect : Sql.Dialect} {lookup : Dict String} {parameters : Parameters}
  {values : Values} {restriction : Restriction}

/-- An accepted condition mentions only names with values. -/
theorem mentionsOnly {condition : Json} (named : Condition.IsNamed condition)
    (h : ofCondition dialect lookup parameters condition values = .ok restriction) :
    ∀ sql ∈ restriction.sql,
      Sql.MentionsOnly dialect (Sql.HasValue restriction.parameters.values) [.written sql] := by
  obtain ⟨tree, renamed, htree, -, hrenamed, hbound, hsql, -⟩ := exists_of_ofCondition h
  have hgenuine := (Condition.isGenuine_of_parse htree).2
  intro sql htext
  rw [hsql] at htext
  cases htext
  refine Sql.mentionsOnly_written (Condition.mentionsOnly_sqlTokens fun value hvalue => ?_)
  rcases Condition.mem_operands_of_rename hrenamed hvalue with hvalue' | ⟨name, rfl⟩
  · have hvalueGenuine := hgenuine value (Condition.mem_leaves_of_mem_operands hvalue')
    refine Operand.mentionsOnly_sqlToken hvalueGenuine fun name hname => ?_
    cases value with
    | column column => cases hname
    | number spelling => cases hname
    | parameter name' =>
        cases hname
        have hne := Operand.isGenuine_parameter.1 hvalueGenuine
        have hcontains := Condition.checkBound_eq_ok.1 hbound name
          (Condition.mem_parameters.2 hvalue)
        exact ⟨named tree htree name (Condition.mem_parameters.2 hvalue'), hne, hcontains⟩
  · exact Sql.mentionsOnly_column name

theorem mentionsOnly? {condition? : Option Json}
    (named : ∀ condition ∈ condition?, Condition.IsNamed condition)
    (h : ofCondition? dialect lookup parameters condition? values = .ok restriction) :
    ∀ sql ∈ restriction.sql,
      Sql.MentionsOnly dialect (Sql.HasValue restriction.parameters.values) [.written sql] := by
  unfold ofCondition? at h
  split at h
  next =>
    cases h
    exact fun _ htext => nomatch htext
  next condition =>
    split at h
    next =>
      cases h
      exact fun _ htext => nomatch htext
    next => exact mentionsOnly (named condition rfl) h

end Restriction

end EntityQuery
