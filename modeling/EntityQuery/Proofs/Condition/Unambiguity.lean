import EntityQuery.Condition.Sql
import EntityQuery.Proofs.Condition.ColumnNames
import EntityQuery.Proofs.Condition.Rereading
import EntityQuery.Proofs.Runs
import EntityQuery.Proofs.Sql.Quoting

/-!
# Conditions in SQL have one reading

Two conditions are written alike in SQL only if they are the same, apart from
the operator of a list of one condition, which is not written at all
(`compile_eq_iff_settled`). Whatever stands in the name of a column, it is told
apart from the text around it.

The text of a condition is compared together with whatever follows it, by
induction on one of two conditions (`isDetermined`). A blank, a comma, a closing
parenthesis or the end of a line ends every operand: no placeholder or number
has one in it, and a column is in quotes.
-/

namespace EntityQuery

open Condition

/-! ### Operators -/

/-- An operator between blanks, the same in every dialect. -/
def Operator.infixText : Operator → String
  | eq => " = "
  | neq => " <> "
  | lt => " < "
  | lte => " <= "
  | gt => " > "
  | gte => " >= "
  | like => " LIKE "
  | notLike => " NOT LIKE "
  | isIn => " IN "
  | notIn => " NOT IN "
  | isNull => " IS "
  | notNull => " IS NOT "
  | and => " AND "
  | or => " OR "

namespace Operator

variable {op op' : Operator}

theorem flatMap_chars_infixTokens (d : Sql.Dialect) (op : Operator) :
    (infixTokens op).flatMap (Sql.Token.chars d) = op.infixText.toList := by
  cases op <;> rfl

/-- Of all operators, only one begins like another. -/
theorem infixText_prefix (h : op.infixText.toList <+: op'.infixText.toList) :
    op = op' ∨ op = .isNull ∧ op' = .notNull := by
  revert h
  cases op <;> cases op' <;> decide

theorem of_infixText_eq_append {after : List Char}
    (h : op'.infixText.toList = op.infixText.toList ++ after) :
    (op = op' ∧ after = []) ∨ (op = .isNull ∧ op' = .notNull ∧ after = "NOT ".toList) := by
  rcases infixText_prefix ⟨after, h.symm⟩ with rfl | ⟨rfl, rfl⟩
  · exact .inl ⟨rfl, List.self_eq_append_right.1 h⟩
  · have hsplit : " IS ".toList ++ "NOT ".toList = " IS ".toList ++ after := h
    exact .inr ⟨rfl, rfl, (List.append_cancel_left hsplit).symm⟩

/-- An operator is told apart from what follows it, unless it is a null test. -/
theorem infixText_append_inj {rest more : List Char}
    (h : op.infixText.toList ++ rest = op'.infixText.toList ++ more) :
    (op = op' ∧ rest = more) ∨
      (op = .isNull ∧ op' = .notNull ∧ rest = "NOT ".toList ++ more) ∨
      (op = .notNull ∧ op' = .isNull ∧ more = "NOT ".toList ++ rest) := by
  rcases List.append_eq_append_iff.1 h with ⟨after, hop, hrest⟩ | ⟨after, hop, hmore⟩
  · rcases of_infixText_eq_append hop with ⟨rfl, rfl⟩ | ⟨rfl, rfl, rfl⟩
    · exact .inl ⟨rfl, hrest⟩
    · exact .inr (.inl ⟨rfl, rfl, hrest⟩)
  · rcases of_infixText_eq_append hop with ⟨rfl, rfl⟩ | ⟨rfl, rfl, rfl⟩
    · exact .inl ⟨rfl, hmore.symm⟩
    · exact .inr (.inr ⟨rfl, rfl, hmore⟩)

theorem infixText_append_inj_of_kind {rest more : List Char}
    (hkind : op.kind ≠ .nullTest ∨ op'.kind ≠ .nullTest)
    (h : op.infixText.toList ++ rest = op'.infixText.toList ++ more) : op = op' ∧ rest = more := by
  rcases infixText_append_inj h with heq | ⟨rfl, rfl, -⟩ | ⟨rfl, rfl, -⟩
  · exact heq
  · exact absurd hkind (by decide)
  · exact absurd hkind (by decide)

end Operator

/-! ### Operands -/

/-- What may follow an operand: a blank, a comma, a closing parenthesis, the end
of the line, or nothing. -/
def EndsOperand (rest : List Char) : Prop :=
  ∀ c ∈ rest.head?, c = ' ' ∨ c = ',' ∨ c = ')' ∨ c = '\n'

section EndsOperand

variable {rest : List Char}

theorem endsOperand_nil : EndsOperand [] := fun _ h => nomatch h

theorem endsOperand_cons {c : Char} (h : c = ' ' ∨ c = ',' ∨ c = ')' ∨ c = '\n') :
    EndsOperand (c :: rest) := by
  rintro _ ⟨⟩
  exact h

theorem EndsOperand.endsReference (h : EndsOperand rest) (d : Sql.Dialect) :
    d.EndsReference rest := by
  constructor
  all_goals
    intro hhead
    rcases h _ hhead with hc | hc | hc | hc <;> revert hc <;> cases d <;> decide

theorem EndsOperand.isWord_eq_false (h : EndsOperand rest) :
    ∀ c ∈ rest.head?, Unicode.isWord c = false := by
  intro c hc
  rcases h c hc with rfl | rfl | rfl | rfl <;> decide +kernel

theorem EndsOperand.isNumberChar_eq_false (h : EndsOperand rest) :
    ∀ c ∈ rest.head?, isNumberChar c = false := by
  intro c hc
  rcases h c hc with rfl | rfl | rfl | rfl <;> decide +kernel

end EndsOperand

namespace Operand

/-- An operand that is what its text is read as, and whose placeholder is made
of word characters. -/
structure IsReadable (value : Operand) : Prop where
  genuine : value.isGenuine = true
  named : ∀ name ∈ value.parameter?, name.toList.all Unicode.isWord = true

theorem isNumberChar_openQuote (d : Sql.Dialect) : isNumberChar d.openQuote = false := by
  cases d <;> decide +kernel

theorem openQuote_ne_colon (d : Sql.Dialect) : d.openQuote ≠ ':' := by
  cases d <;> decide

/-- The kinds of operands, as the first character of their text tells them apart. -/
def leads (d : Sql.Dialect) (c : Char) : Operand → Prop
  | column _ => c = d.openQuote
  | parameter _ => c = ':'
  | number _ => isNumberChar c = true

theorem exists_lead (d : Sql.Dialect) {value : Operand} (h : value.isGenuine = true) :
    ∃ c chars, value.sqlToken.chars d = c :: chars ∧ leads d c value := by
  cases value with
  | column name =>
      obtain ⟨chars, hchars⟩ := d.exists_columnChars_eq_cons name.toList
      exact ⟨_, chars, hchars, rfl⟩
  | parameter name => exact ⟨_, _, rfl, rfl⟩
  | number spelling =>
      obtain ⟨hne, hall⟩ := isNumberChar_of_isNumber h
      obtain ⟨c, chars, hchars⟩ := List.exists_cons_of_ne_nil hne
      rw [hchars, List.all_cons, Bool.and_eq_true] at hall
      exact ⟨c, chars, hchars, hall.1⟩

/-- An operand is told apart from what follows it. -/
theorem chars_append_inj {d : Sql.Dialect} {value other : Operand} {rest more : List Char}
    (h : value.IsReadable) (h' : other.IsReadable) (ends : EndsOperand rest)
    (ends' : EndsOperand more)
    (heq : value.sqlToken.chars d ++ rest = other.sqlToken.chars d ++ more) :
    value = other ∧ rest = more := by
  -- operands of different kinds do not even begin alike
  obtain ⟨c, chars, hchars, hlead⟩ := exists_lead d h.genuine
  obtain ⟨c', chars', hchars', hlead'⟩ := exists_lead d h'.genuine
  have hc : c = c' := by
    rw [hchars, hchars'] at heq
    exact (List.cons.inj heq).1
  subst hc
  have hcolon : isNumberChar ':' = false := by decide +kernel
  have hquote := isNumberChar_openQuote d
  have hne := openQuote_ne_colon d
  cases value with
  | column name =>
      cases other with
      | column name' =>
          obtain ⟨hname, hrest⟩ :=
            Sql.Dialect.columnChars_append_inj (ends.endsReference d) (ends'.endsReference d) heq
          exact ⟨congrArg column (String.toList_inj.1 hname), hrest⟩
      | parameter name' => exact absurd (hlead.symm.trans hlead') hne
      | number spelling => simp_all [leads]
  | parameter name =>
      cases other with
      | column name' => exact absurd (hlead'.symm.trans hlead) hne
      | parameter name' =>
          obtain ⟨hname, hrest⟩ := run_append_inj (h.named name rfl) (h'.named name' rfl)
            ends.isWord_eq_false ends'.isWord_eq_false (List.cons.inj heq).2
          exact ⟨congrArg parameter (String.toList_inj.1 hname), hrest⟩
      | number spelling => simp_all [leads]
  | number spelling =>
      cases other with
      | column name' => simp_all [leads]
      | parameter name' => simp_all [leads]
      | number spelling' =>
          obtain ⟨hspelling, hrest⟩ := run_append_inj (isNumberChar_of_isNumber h.genuine).2
            (isNumberChar_of_isNumber h'.genuine).2 ends.isNumberChar_eq_false
            ends'.isNumberChar_eq_false heq
          exact ⟨congrArg number (String.toList_inj.1 hspelling), hrest⟩

/-- Operands with commas between them. -/
def listChars (d : Sql.Dialect) (values : List Operand) : List Char :=
  (Sql.commaSeparated (values.map fun value => [value.sqlToken])).flatMap (Sql.Token.chars d)

/-- Operands, each after a comma. -/
def tailChars (d : Sql.Dialect) : List Operand → List Char
  | [] => []
  | value :: rest => ',' :: ' ' :: value.sqlToken.chars d ++ tailChars d rest

theorem listChars_cons (d : Sql.Dialect) (value : Operand) (values : List Operand) :
    listChars d (value :: values) = value.sqlToken.chars d ++ tailChars d values := by
  induction values generalizing value with
  | nil => simp [listChars, Sql.commaSeparated, tailChars]
  | cons next values ih =>
      have hstep : Sql.commaSeparated ((value :: next :: values).map fun value => [value.sqlToken]) =
          [value.sqlToken] ++ Sql.commaTokens ++
            Sql.commaSeparated ((next :: values).map fun value => [value.sqlToken]) := rfl
      have hcomma : Sql.commaTokens.flatMap (Sql.Token.chars d) = [',', ' '] := rfl
      have hrest := ih next
      rw [listChars] at hrest
      rw [listChars, hstep, List.flatMap_append, List.flatMap_append, hrest, hcomma, tailChars]
      simp

theorem endsOperand_tailChars (d : Sql.Dialect) (values : List Operand) (rest : List Char) :
    EndsOperand (tailChars d values ++ ')' :: rest) := by
  cases values with
  | nil => exact endsOperand_cons (.inr (.inr (.inl rfl)))
  | cons value values => exact endsOperand_cons (.inr (.inl rfl))

theorem tailChars_append_inj {d : Sql.Dialect} {values others : List Operand}
    {rest more : List Char} (h : ∀ value ∈ values, value.IsReadable)
    (h' : ∀ value ∈ others, value.IsReadable)
    (heq : tailChars d values ++ ')' :: rest = tailChars d others ++ ')' :: more) :
    values = others ∧ rest = more := by
  induction values generalizing others with
  | nil =>
      cases others with
      | nil => exact ⟨rfl, (List.cons.inj heq).2⟩
      | cons other others => exact absurd (List.cons.inj heq).1 (by decide)
  | cons value values ih =>
      cases others with
      | nil => exact absurd (List.cons.inj heq).1 (by decide)
      | cons other others =>
          obtain ⟨hvalue, hvalues⟩ := List.forall_mem_cons.1 h
          obtain ⟨hother, hothers⟩ := List.forall_mem_cons.1 h'
          simp only [tailChars, List.cons_append, List.append_assoc, List.cons.injEq,
            true_and] at heq
          obtain ⟨rfl, htail⟩ := chars_append_inj hvalue hother (endsOperand_tailChars d _ _)
            (endsOperand_tailChars d _ _) heq
          obtain ⟨rfl, hrest⟩ := ih hvalues hothers htail
          exact ⟨rfl, hrest⟩

end Operand

namespace Condition

/-! ### Conditions -/

mutual

/-- The condition with one and the same operator at every list of one
condition, where the operator makes no difference. -/
def settled : Condition → Condition
  | comparison op column value => .comparison op column value
  | nullTest op column => .nullTest op column
  | membership op column values => .membership op column values
  | boolean op conditions =>
      .boolean (if conditions.length = 1 then .and else op) (settledList conditions)

/-- Conditions with one and the same operator at every list of one. -/
def settledList : List Condition → List Condition
  | [] => []
  | condition :: rest => settled condition :: settledList rest

end

theorem settledList_eq_map (conditions : List Condition) :
    settledList conditions = conditions.map settled := by
  induction conditions with
  | nil => rfl
  | cons condition rest ih => rw [settledList, ih, List.map_cons]

theorem joinedTokens_cons_cons (op : Operator) (condition next : Condition)
    (rest : List Condition) :
    joinedTokens op (condition :: next :: rest) =
      condition.sqlTokens ++ infixTokens op ++ joinedTokens op (next :: rest) := by
  rw [joinedTokens]
  exact List.cons_ne_nil _ _

theorem joinedTokens_map_settled {op : Operator} {conditions : List Condition}
    (h : ∀ condition ∈ conditions, condition.settled.sqlTokens = condition.sqlTokens) :
    joinedTokens op (conditions.map settled) = joinedTokens op conditions := by
  induction conditions with
  | nil => rfl
  | cons condition rest ih =>
      obtain ⟨hcondition, hrest⟩ := List.forall_mem_cons.1 h
      cases rest with
      | nil => exact hcondition
      | cons next rest =>
          rw [List.map_cons, List.map_cons, joinedTokens_cons_cons, joinedTokens_cons_cons,
            hcondition, ← List.map_cons, ih hrest]

/-- The operator of a list of one condition is not written. -/
theorem sqlTokens_settled (condition : Condition) :
    condition.settled.sqlTokens = condition.sqlTokens := by
  induction condition using inductionOn with
  | comparison op column value => rfl
  | nullTest op column => rfl
  | membership op column values => rfl
  | boolean op conditions ih =>
      rw [settled, settledList_eq_map, sqlTokens, sqlTokens, joinedTokens_map_settled ih]
      split
      next hone =>
        obtain ⟨condition, rfl⟩ := List.length_eq_one_iff.1 hone
        rfl
      next => rfl

/-- A condition with operators of the right kinds, without empty lists, and
with readable columns and operands. -/
structure IsReadable (condition : Condition) : Prop where
  kinded : condition.isWellKinded = true
  readable : ∀ value ∈ condition.leaves, value.IsReadable

theorem IsReadable.of_boolean {op : Operator} {conditions : List Condition}
    (h : (boolean op conditions).IsReadable) :
    op.kind = .boolean ∧ conditions ≠ [] ∧ ∀ condition ∈ conditions, condition.IsReadable := by
  have hkinded := h.kinded
  rw [isWellKinded, Bool.and_eq_true, Bool.and_eq_true, decide_eq_true_eq,
    areWellKinded_iff] at hkinded
  obtain ⟨⟨hkind, hne⟩, hconditions⟩ := hkinded
  refine ⟨hkind, by simpa using hne, fun condition hmem => ⟨hconditions condition hmem, ?_⟩⟩
  intro value hvalue
  apply h.readable
  rw [leaves, leavesIn_eq_flatMap]
  exact List.mem_flatMap_of_mem hmem hvalue

theorem IsReadable.of_membership {op : Operator} {column : String} {values : List Operand}
    (h : (membership op column values).IsReadable) :
    values ≠ [] ∧ ∀ value ∈ values, value.IsReadable := by
  have hkinded := h.kinded
  rw [isWellKinded, Bool.and_eq_true] at hkinded
  exact ⟨by simpa using hkinded.2, fun value hmem => h.readable value (List.mem_cons_of_mem _ hmem)⟩

variable {d : Sql.Dialect} {condition other : Condition}

/-- The characters of a condition in SQL. -/
def sqlChars (d : Sql.Dialect) (condition : Condition) : List Char :=
  condition.sqlTokens.flatMap (Sql.Token.chars d)

theorem sqlChars_comparison (op : Operator) (column : String) (value : Operand) :
    (comparison op column value).sqlChars d =
      d.columnChars column.toList ++ (op.infixText.toList ++ value.sqlToken.chars d) := by
  rw [sqlChars, sqlTokens, List.cons_append, List.flatMap_cons, List.flatMap_append,
    op.flatMap_chars_infixTokens, List.flatMap_singleton]
  rfl

theorem sqlChars_nullTest (op : Operator) (column : String) :
    (nullTest op column).sqlChars d =
      d.columnChars column.toList ++ (op.infixText.toList ++ "NULL".toList) := by
  rw [sqlChars, sqlTokens, List.cons_append, List.flatMap_cons, List.flatMap_append,
    op.flatMap_chars_infixTokens, List.flatMap_singleton]
  rfl

theorem sqlChars_membership (op : Operator) (column : String) (values : List Operand) :
    (membership op column values).sqlChars d = d.columnChars column.toList ++
      (op.infixText.toList ++ '(' :: (Operand.listChars d values ++ [')'])) := by
  rw [sqlChars, sqlTokens, List.cons_append, List.flatMap_cons, List.flatMap_append,
    op.flatMap_chars_infixTokens, Sql.parenthesized, List.cons_append, List.flatMap_cons,
    List.flatMap_append, List.flatMap_singleton]
  rfl

/-- Conditions, each after an operator. -/
def tailChars (d : Sql.Dialect) (op : Operator) : List Condition → List Char
  | [] => []
  | condition :: rest => op.infixText.toList ++ (condition.sqlChars d ++ tailChars d op rest)

theorem flatMap_chars_joinedTokens (op : Operator) (conditions : List Condition) :
    (joinedTokens op (condition :: conditions)).flatMap (Sql.Token.chars d) =
      condition.sqlChars d ++ tailChars d op conditions := by
  induction conditions generalizing condition with
  | nil => rw [joinedTokens, tailChars, List.append_nil, sqlChars]
  | cons next conditions ih =>
      rw [joinedTokens_cons_cons, List.flatMap_append, List.flatMap_append,
        op.flatMap_chars_infixTokens, ih, tailChars, List.append_assoc]
      rfl

theorem sqlChars_boolean (op : Operator) (conditions : List Condition) :
    (boolean op (condition :: conditions)).sqlChars d =
      '(' :: (condition.sqlChars d ++ (tailChars d op conditions ++ [')'])) := by
  rw [sqlChars, sqlTokens, Sql.parenthesized, List.cons_append, List.flatMap_cons,
    List.flatMap_append, flatMap_chars_joinedTokens, List.flatMap_singleton, List.append_assoc]
  rfl

/-! ### One reading -/

/-- A condition is told apart from what follows it, up to operators that are
not written. -/
def IsDetermined (d : Sql.Dialect) (condition : Condition) : Prop :=
  ∀ ⦃other : Condition⦄ ⦃rest more : List Char⦄, other.IsReadable → EndsOperand rest →
    EndsOperand more → condition.sqlChars d ++ rest = other.sqlChars d ++ more →
      condition.settled = other.settled ∧ rest = more

/-- A column is told apart from the operator after it. -/
theorem subject_append_inj {column column' : String} {op op' : Operator} {rest more : List Char}
    (h : d.columnChars column.toList ++ (op.infixText.toList ++ rest) =
      d.columnChars column'.toList ++ (op'.infixText.toList ++ more)) :
    column = column' ∧ op.infixText.toList ++ rest = op'.infixText.toList ++ more := by
  have hends : ∀ (op : Operator) (rest : List Char),
      d.EndsReference (op.infixText.toList ++ rest) := by
    intro op rest
    apply EndsOperand.endsReference
    cases op <;> exact endsOperand_cons (.inl rfl)
  obtain ⟨hcolumn, hrest⟩ := Sql.Dialect.columnChars_append_inj (hends op rest) (hends op' more) h
  exact ⟨String.toList_inj.1 hcolumn, hrest⟩

/-- The kind of operator that belongs to a condition. -/
def kind : Condition → OperatorKind
  | comparison _ _ _ => .comparison
  | nullTest _ _ => .nullTest
  | membership _ _ _ => .membership
  | boolean _ _ => .boolean

theorem kind_op (h : condition.isWellKinded = true) : condition.op.kind = condition.kind := by
  cases condition with
  | comparison op column value => exact of_decide_eq_true h
  | nullTest op column => exact of_decide_eq_true h
  | membership op column values =>
      rw [isWellKinded, Bool.and_eq_true] at h
      exact of_decide_eq_true h.1
  | boolean op conditions =>
      rw [isWellKinded, Bool.and_eq_true, Bool.and_eq_true] at h
      exact of_decide_eq_true h.1.1

/-- A list of conditions begins with a parenthesis, any other condition with a
column and an operator. -/
theorem exists_sqlChars_eq (d : Sql.Dialect) (condition : Condition) :
    (condition.kind = .boolean ∧ ∃ chars, condition.sqlChars d = '(' :: chars) ∨
      ∃ column chars, condition.sqlChars d =
        d.columnChars (String.toList column) ++ (condition.op.infixText.toList ++ chars) := by
  cases condition with
  | comparison op column value => exact .inr ⟨column, _, sqlChars_comparison op column value⟩
  | nullTest op column => exact .inr ⟨column, _, sqlChars_nullTest op column⟩
  | membership op column values => exact .inr ⟨column, _, sqlChars_membership op column values⟩
  | boolean op conditions => exact .inl ⟨rfl, _, rfl⟩

theorem columnChars_append_ne (column : String) (rest more : List Char) :
    d.columnChars column.toList ++ rest ≠ '(' :: more := by
  obtain ⟨chars, hchars⟩ := d.exists_columnChars_eq_cons column.toList
  rw [hchars]
  intro h
  exact absurd (List.cons.inj h).1 (by cases d <;> decide)

/-- Conditions of different kinds are written differently. -/
theorem kind_eq_of_append {rest more : List Char} (h : condition.IsReadable)
    (h' : other.IsReadable) (heq : condition.sqlChars d ++ rest = other.sqlChars d ++ more) :
    condition.kind = other.kind := by
  rcases exists_sqlChars_eq d condition with ⟨hkind, chars, hchars⟩ | ⟨column, chars, hchars⟩ <;>
    rcases exists_sqlChars_eq d other with ⟨hkind', chars', hchars'⟩ | ⟨column', chars', hchars'⟩ <;>
    rw [hchars, hchars'] at heq
  · rw [hkind, hkind']
  · rw [List.append_assoc] at heq
    exact absurd heq.symm (columnChars_append_ne _ _ _)
  · rw [List.append_assoc] at heq
    exact absurd heq (columnChars_append_ne _ _ _)
  · rw [List.append_assoc, List.append_assoc, List.append_assoc, List.append_assoc] at heq
    obtain ⟨-, hop⟩ := subject_append_inj heq
    rw [← kind_op h.kinded, ← kind_op h'.kinded]
    rcases Operator.infixText_append_inj hop with ⟨hop, -⟩ | ⟨hop, hop', -⟩ | ⟨hop, hop', -⟩
    · rw [hop]
    · rw [hop, hop']; rfl
    · rw [hop, hop']; rfl

theorem isDetermined_comparison {op : Operator} {column : String} {value : Operand}
    (h : (comparison op column value).IsReadable) :
    (comparison op column value).IsDetermined d := by
  intro other rest more h' ends ends' heq
  have hkind := kind_eq_of_append h h' heq
  cases other with
  | comparison op' column' value' =>
      have hop : op.kind ≠ .nullTest := by
        rw [show op.kind = .comparison from kind_op h.kinded]
        decide
      rw [sqlChars_comparison, sqlChars_comparison, List.append_assoc, List.append_assoc,
        List.append_assoc, List.append_assoc] at heq
      obtain ⟨rfl, hoperator⟩ := subject_append_inj heq
      obtain ⟨rfl, hoperand⟩ := Operator.infixText_append_inj_of_kind (.inl hop) hoperator
      have hvalue := h.readable value (List.mem_cons_of_mem _ List.mem_cons_self)
      have hvalue' := h'.readable value' (List.mem_cons_of_mem _ List.mem_cons_self)
      obtain ⟨rfl, hrest⟩ := Operand.chars_append_inj hvalue hvalue' ends ends' hoperand
      exact ⟨rfl, hrest⟩
  | nullTest => cases hkind
  | membership => cases hkind
  | boolean => cases hkind

theorem isDetermined_nullTest {op : Operator} {column : String}
    (h : (nullTest op column).IsReadable) : (nullTest op column).IsDetermined d := by
  intro other rest more h' _ _ heq
  have hkind := kind_eq_of_append h h' heq
  cases other with
  | nullTest op' column' =>
      rw [sqlChars_nullTest, sqlChars_nullTest, List.append_assoc, List.append_assoc,
        List.append_assoc, List.append_assoc] at heq
      obtain ⟨rfl, hoperator⟩ := subject_append_inj heq
      rcases Operator.infixText_append_inj hoperator with ⟨rfl, hrest⟩ | ⟨-, -, hnot⟩ | ⟨-, -, hnot⟩
      · exact ⟨rfl, List.append_cancel_left hrest⟩
      -- the text goes on with NULL, not with NOT
      · exact absurd hnot (by simp)
      · exact absurd hnot (by simp)
  | comparison => cases hkind
  | membership => cases hkind
  | boolean => cases hkind

theorem isDetermined_membership {op : Operator} {column : String} {values : List Operand}
    (h : (membership op column values).IsReadable) :
    (membership op column values).IsDetermined d := by
  intro other rest more h' _ _ heq
  have hkind := kind_eq_of_append h h' heq
  cases other with
  | membership op' column' values' =>
      have hop : op.kind ≠ .nullTest := by
        rw [show op.kind = .membership from kind_op h.kinded]
        decide
      rw [sqlChars_membership, sqlChars_membership, List.append_assoc, List.append_assoc,
        List.append_assoc, List.append_assoc] at heq
      obtain ⟨rfl, hoperator⟩ := subject_append_inj heq
      obtain ⟨rfl, hlist⟩ := Operator.infixText_append_inj_of_kind (.inl hop) hoperator
      obtain ⟨hne, hvalues⟩ := h.of_membership
      obtain ⟨hne', hvalues'⟩ := h'.of_membership
      obtain ⟨value, values, rfl⟩ := List.exists_cons_of_ne_nil hne
      obtain ⟨value', values', rfl⟩ := List.exists_cons_of_ne_nil hne'
      obtain ⟨hvalue, hlater⟩ := List.forall_mem_cons.1 hvalues
      obtain ⟨hvalue', hlater'⟩ := List.forall_mem_cons.1 hvalues'
      simp only [List.cons_append, List.append_assoc, List.nil_append, List.cons.injEq, true_and,
        Operand.listChars_cons] at hlist
      obtain ⟨rfl, htail⟩ := Operand.chars_append_inj hvalue hvalue'
        (Operand.endsOperand_tailChars d _ _) (Operand.endsOperand_tailChars d _ _) hlist
      obtain ⟨rfl, hrest⟩ := Operand.tailChars_append_inj hlater hlater' htail
      exact ⟨rfl, hrest⟩
  | comparison => cases hkind
  | nullTest => cases hkind
  | boolean => cases hkind

theorem endsOperand_tailChars (op : Operator) (conditions : List Condition) (rest : List Char) :
    EndsOperand (tailChars d op conditions ++ ')' :: rest) := by
  cases conditions with
  | nil => exact endsOperand_cons (.inr (.inr (.inl rfl)))
  | cons condition conditions => cases op <;> exact endsOperand_cons (.inl rfl)

/-- The conditions of a list are told apart, and so is the operator between
them, unless there is none. -/
theorem tailChars_append_inj {op op' : Operator} {conditions others : List Condition}
    {rest more : List Char} (hkind : op.kind = .boolean)
    (h : ∀ condition ∈ conditions, condition.IsDetermined d)
    (h' : ∀ condition ∈ others, condition.IsReadable)
    (heq : tailChars d op conditions ++ ')' :: rest = tailChars d op' others ++ ')' :: more) :
    conditions.map settled = others.map settled ∧ (conditions = [] ∨ op = op') ∧ rest = more := by
  induction conditions generalizing others with
  | nil =>
      cases others with
      | nil => exact ⟨rfl, .inl rfl, (List.cons.inj heq).2⟩
      | cons other others =>
          cases op' <;> exact absurd (List.cons.inj heq).1 (by decide)
  | cons condition conditions ih =>
      cases others with
      | nil => cases op <;> exact absurd (List.cons.inj heq).1 (by decide)
      | cons other others =>
          obtain ⟨hcondition, hconditions⟩ := List.forall_mem_cons.1 h
          obtain ⟨hother, hothers⟩ := List.forall_mem_cons.1 h'
          have hop : op.kind ≠ .nullTest := by rw [hkind]; decide
          rw [tailChars, tailChars, List.append_assoc, List.append_assoc, List.append_assoc,
            List.append_assoc] at heq
          obtain ⟨rfl, hrest⟩ := Operator.infixText_append_inj_of_kind (.inl hop) heq
          obtain ⟨hsettled, htail⟩ :=
            hcondition hother (endsOperand_tailChars _ _ _) (endsOperand_tailChars _ _ _) hrest
          obtain ⟨hmap, -, hrest⟩ := ih hconditions hothers htail
          rw [List.map_cons, List.map_cons, hsettled, hmap]
          exact ⟨rfl, .inr rfl, hrest⟩

theorem isDetermined_boolean {op : Operator} {conditions : List Condition}
    (h : (boolean op conditions).IsReadable)
    (ih : ∀ condition ∈ conditions, condition.IsDetermined d) :
    (boolean op conditions).IsDetermined d := by
  intro other rest more h' _ _ heq
  have hkind := kind_eq_of_append h h' heq
  cases other with
  | boolean op' others =>
      obtain ⟨hop, hne, -⟩ := h.of_boolean
      obtain ⟨-, hne', hothers⟩ := h'.of_boolean
      obtain ⟨condition, conditions, rfl⟩ := List.exists_cons_of_ne_nil hne
      obtain ⟨other, others, rfl⟩ := List.exists_cons_of_ne_nil hne'
      obtain ⟨hcondition, hconditions⟩ := List.forall_mem_cons.1 ih
      obtain ⟨hother, hothers⟩ := List.forall_mem_cons.1 hothers
      simp only [sqlChars_boolean, List.cons_append, List.append_assoc, List.nil_append,
        List.cons.injEq, true_and] at heq
      obtain ⟨hsettled, htail⟩ :=
        hcondition hother (endsOperand_tailChars _ _ _) (endsOperand_tailChars _ _ _) heq
      obtain ⟨hmap, hops, hrest⟩ := tailChars_append_inj hop hconditions hothers htail
      have hlength : conditions.length = others.length := by
        simpa using congrArg List.length hmap
      refine ⟨?_, hrest⟩
      rw [settled, settled, settledList_eq_map, settledList_eq_map, List.map_cons, List.map_cons,
        hsettled, hmap, List.length_cons, List.length_cons, hlength]
      rcases hops with rfl | rfl
      · rw [List.length_nil] at hlength
        rw [← hlength, if_pos rfl, if_pos rfl]
      · rfl
  | comparison => cases hkind
  | nullTest => cases hkind
  | membership => cases hkind

/-- A readable condition is told apart from what follows it. -/
theorem isDetermined (h : condition.IsReadable) : condition.IsDetermined d := by
  induction condition using inductionOn with
  | comparison op column value => exact isDetermined_comparison h
  | nullTest op column => exact isDetermined_nullTest h
  | membership op column values => exact isDetermined_membership h
  | boolean op conditions ih =>
      exact isDetermined_boolean h fun condition hmem => ih condition hmem (h.of_boolean.2.2 _ hmem)

theorem mem_operands_of_mem_leaves {value : Operand} (h : value ∈ condition.leaves)
    (hvalue : value.column? = none) : value ∈ condition.operands := by
  have hne : ∀ column, value ≠ .column column := fun column heq => nomatch heq ▸ hvalue
  induction condition using inductionOn with
  | comparison op column other => exact List.mem_of_ne_of_mem (hne column) h
  | nullTest op column => exact absurd (List.mem_singleton.1 h) (hne column)
  | membership op column values => exact List.mem_of_ne_of_mem (hne column) h
  | boolean op conditions ih =>
      rw [leaves, leavesIn_eq_flatMap] at h
      obtain ⟨condition, hmem, hleaf⟩ := List.mem_flatMap.1 h
      rw [operands, operandsIn_eq_flatMap]
      exact List.mem_flatMap_of_mem hmem (ih condition hmem hleaf)

theorem mem_parameters_of_mem_leaves {value : Operand} {name : String}
    (h : value ∈ condition.leaves) (hname : name ∈ value.parameter?) :
    name ∈ condition.parameters := by
  cases value with
  | column column => cases hname
  | number spelling => cases hname
  | parameter name =>
      cases hname
      rw [parameters, List.mem_eraseDups, List.mem_filterMap]
      exact ⟨_, mem_operands_of_mem_leaves h rfl, rfl⟩

/-- What is read from a text is readable in SQL, if its placeholders consist of
word characters. -/
theorem isReadable_of_parse {source : String} (h : parse source = .ok condition)
    (named : ∀ name ∈ condition.parameters, name.toList.all Unicode.isWord = true) :
    condition.IsReadable := by
  obtain ⟨hkinded, hgenuine⟩ := isGenuine_of_parse h
  refine ⟨hkinded, fun value hvalue => ⟨hgenuine value hvalue, fun name hname => named name ?_⟩⟩
  exact mem_parameters_of_mem_leaves hvalue hname

theorem compile_none (d : Sql.Dialect) (condition : Condition) :
    condition.compile d none = .ok (String.ofList (condition.sqlChars d)) := rfl

/-- Conditions that were read from texts are written alike in SQL exactly if
they are the same up to the operators of lists of one condition. -/
theorem compile_eq_iff_settled (d : Sql.Dialect) {condition other : Condition}
    {source source' : String} (h : parse source = .ok condition) (h' : parse source' = .ok other)
    (named : ∀ name ∈ condition.parameters, name.toList.all Unicode.isWord = true)
    (named' : ∀ name ∈ other.parameters, name.toList.all Unicode.isWord = true) :
    (∃ sql, condition.compile d none = .ok sql ∧ other.compile d none = .ok sql) ↔
      condition.settled = other.settled := by
  rw [compile_none, compile_none]
  constructor
  · rintro ⟨sql, hsql, hsql'⟩
    have hchars : condition.sqlChars d = other.sqlChars d :=
      String.ofList_injective ((Except.ok.inj hsql).trans (Except.ok.inj hsql').symm)
    have heq : condition.sqlChars d ++ [] = other.sqlChars d ++ [] := by rw [hchars]
    exact (isDetermined (isReadable_of_parse h named) (isReadable_of_parse h' named')
      endsOperand_nil endsOperand_nil heq).1
  · intro hsettled
    refine ⟨_, rfl, ?_⟩
    rw [sqlChars, ← sqlTokens_settled other, ← hsettled, sqlTokens_settled]
    rfl

/-- One equality in a list, between a placeholder and a column whose name looks
like the end of a name and more of a condition. -/
def oneEquality (op : Operator) : Condition :=
  .boolean op [.comparison .eq "u.a] = 1 OR [u.b" (.parameter "p")]

theorem compile_eq_iff_settled_oneEquality :
    ∃ sql, (oneEquality .and).compile .tsql none = .ok sql ∧
      (oneEquality .or).compile .tsql none = .ok sql := by
  have hand : parse (oneEquality .and).toJson.text = .ok (oneEquality .and) :=
    parse_of_tokens (by decide +kernel) (by decide)
  have hor : parse (oneEquality .or).toJson.text = .ok (oneEquality .or) :=
    parse_of_tokens (by decide +kernel) (by decide)
  have hnamed : ∀ op, ∀ name ∈ (oneEquality op).parameters,
      name.toList.all Unicode.isWord = true := by
    intro op name hname
    obtain rfl : name = "p" := List.mem_singleton.1 hname
    decide +kernel
  exact (compile_eq_iff_settled .tsql hand hor (hnamed .and) (hnamed .or)).2 rfl

end Condition

end EntityQuery
