import EntityQuery.Proofs.Condition.Mapping
import EntityQuery.Proofs.JoinGraph.Lines

/-!
# The text of a join graph has one reading

What a graph says in SQL is, for each of its tables in order, the schema, the
name and the alias, the kind of the join, and the condition over columns, up to
operators that are not written (`JoinGraph.reading`). The text says all of this
and nothing more (`sql_eq_iff_readings`). Names are in quotes, so whatever they
hold, no clause or line begins or ends in one of them.

Texts are compared from left to right, together with what follows them. A table
is followed by a blank or by the end of its line, and a condition by the end of
its line.
-/

namespace EntityQuery

/-- What a text says of a table: the base table is read like a joined one, and
its condition is that on the rows. -/
structure TableReading where
  schema : Option String
  name : String
  «alias» : String
  /-- The kind of the join; an inner join where none is given. -/
  kind : JoinKind
  /-- The condition over columns, if there is one. -/
  condition : Option Condition

namespace JoinGraph

/-- The condition of a table over columns, if it has one that says something. -/
def mapped? (g : JoinGraph) (t : GraphTable) : Option Condition := do
  let condition ← t.condition
  if Condition.isBlank condition then none
  else
    let tree ← (Condition.ofJson condition).toOption
    (tree.rename g.lookup.get?).toOption

/-- What the text of a graph says of a table of it. -/
def reading (g : JoinGraph) (t : GraphTable) : TableReading where
  schema := t.table.schema
  name := t.table.name
  «alias» := t.alias
  kind := (t.link.bind Link.kind).getD .inner
  condition := (g.mapped? t).map Condition.settled

end JoinGraph

/-! ### Texts of readings -/

namespace TableReading

variable {d : Sql.Dialect} {r r' : TableReading}

/-- A table and its alias. -/
def tableChars (d : Sql.Dialect) (r : TableReading) : List Char :=
  (r.schema.elim [] fun schema => d.quoteChars schema.toList ++ ['.']) ++
    (d.quoteChars r.name.toList ++ (" AS ".toList ++ d.quoteChars r.alias.toList))

/-- A condition after a word and the character before that. -/
def conditionChars (d : Sql.Dialect) (first : Char) (word : String) (r : TableReading) :
    List Char :=
  r.condition.elim [] fun condition => first :: (word.toList ++ condition.sqlChars d)

/-- The line of a joined table, after the end of the line before it. -/
def joinChars (d : Sql.Dialect) (r : TableReading) : List Char :=
  '\n' :: (r.kind.text.toList ++ ' ' :: (r.tableChars d ++ r.conditionChars d ' ' "ON "))

/-- The lines of joined tables and the condition of the base table. -/
def linesChars (d : Sql.Dialect) (base : TableReading) : List TableReading → List Char
  | [] => base.conditionChars d '\n' "WHERE "
  | r :: rest => r.joinChars d ++ linesChars d base rest

/-- All lines, after the first word. -/
def textChars (d : Sql.Dialect) (base : TableReading) (joined : List TableReading) : List Char :=
  base.tableChars d ++ linesChars d base joined

/-- The condition of a reading is made of a readable one. -/
def IsReadable (r : TableReading) : Prop :=
  ∀ condition ∈ r.condition, ∃ tree : Condition, tree.IsReadable ∧ condition = tree.settled

end TableReading

/-- Conditions that are settled are told apart from what follows them. -/
theorem Condition.settled_append_inj {d : Sql.Dialect} {condition other : Condition}
    {rest more : List Char} (h : condition.IsReadable) (h' : other.IsReadable)
    (ends : EndsOperand rest) (ends' : EndsOperand more)
    (heq : condition.settled.sqlChars d ++ rest = other.settled.sqlChars d ++ more) :
    condition.settled = other.settled ∧ rest = more := by
  rw [sqlChars, sqlTokens_settled, sqlChars, sqlTokens_settled] at heq
  exact isDetermined h h' ends ends' heq

namespace TableReading

variable {d : Sql.Dialect} {r r' base base' : TableReading} {joined joined' : List TableReading}
  {rest more : List Char}

/-- What follows an alias: a blank, the end of the line, or nothing. -/
def EndsTable (rest : List Char) : Prop := ∀ c ∈ rest.head?, c = ' ' ∨ c = '\n'

theorem EndsTable.ne_closeQuote (h : EndsTable rest) : rest.head? ≠ some d.closeQuote := by
  intro hhead
  rcases h _ hhead with hc | hc <;> revert hc <;> cases d <;> decide

theorem EndsTable.endsOperand (h : EndsTable rest) : EndsOperand rest := by
  intro c hc
  rcases h c hc with rfl | rfl
  · exact .inl rfl
  · exact .inr (.inr (.inr rfl))

theorem cons_ne_closeQuote {c : Char} (h : c = ' ' ∨ c = '.') (rest : List Char) :
    (c :: rest).head? ≠ some d.closeQuote := by
  have hne : c ≠ d.closeQuote := by rcases h with rfl | rfl <;> cases d <;> decide
  exact fun hhead => hne (Option.some.inj hhead)

theorem as_ne_closeQuote (rest : List Char) :
    (" AS ".toList ++ rest).head? ≠ some d.closeQuote := cons_ne_closeQuote (.inl rfl) _

/-- A name and an alias are told apart from what follows them. -/
theorem nameChars_append_inj {name name' label label' : String} (ends : EndsTable rest)
    (ends' : EndsTable more)
    (h : d.quoteChars name.toList ++ (" AS ".toList ++ (d.quoteChars label.toList ++ rest)) =
      d.quoteChars name'.toList ++ (" AS ".toList ++ (d.quoteChars label'.toList ++ more))) :
    name = name' ∧ label = label' ∧ rest = more := by
  obtain ⟨hname, h⟩ := Sql.Dialect.quoteChars_append_inj (as_ne_closeQuote _) (as_ne_closeQuote _) h
  obtain ⟨hlabel, hrest⟩ := Sql.Dialect.quoteChars_append_inj ends.ne_closeQuote
    ends'.ne_closeQuote (List.append_cancel_left h)
  exact ⟨String.toList_inj.1 hname, String.toList_inj.1 hlabel, hrest⟩

/-- A table is told apart from what follows it: after the name in front there is
a dot if it is that of a schema, and a blank otherwise. -/
theorem tableChars_append_inj (ends : EndsTable rest) (ends' : EndsTable more)
    (h : r.tableChars d ++ rest = r'.tableChars d ++ more) :
    r.schema = r'.schema ∧ r.name = r'.name ∧ r.alias = r'.alias ∧ rest = more := by
  simp only [tableChars, List.append_assoc] at h
  cases hschema : r.schema with
  | none =>
      rw [hschema, Option.elim_none, List.nil_append] at h
      cases hschema' : r'.schema with
      | none =>
          rw [hschema', Option.elim_none, List.nil_append] at h
          exact ⟨rfl, nameChars_append_inj ends ends' h⟩
      | some schema' =>
          rw [hschema', Option.elim_some, List.append_assoc] at h
          obtain ⟨-, h⟩ := Sql.Dialect.quoteChars_append_inj
            (as_ne_closeQuote _) (cons_ne_closeQuote (.inr rfl) _) h
          cases h
  | some schema =>
      rw [hschema, Option.elim_some, List.append_assoc] at h
      cases hschema' : r'.schema with
      | none =>
          rw [hschema', Option.elim_none, List.nil_append] at h
          obtain ⟨-, h⟩ := Sql.Dialect.quoteChars_append_inj
            (cons_ne_closeQuote (.inr rfl) _) (as_ne_closeQuote _) h
          cases h
      | some schema' =>
          rw [hschema', Option.elim_some, List.append_assoc] at h
          obtain ⟨hschemas, h⟩ := Sql.Dialect.quoteChars_append_inj
            (cons_ne_closeQuote (.inr rfl) _) (cons_ne_closeQuote (.inr rfl) _) h
          exact ⟨congrArg some (String.toList_inj.1 hschemas),
            nameChars_append_inj ends ends' (List.cons.inj h).2⟩

/-- The words of a join are told apart from what follows them. -/
theorem kind_append_inj {kind kind' : JoinKind}
    (h : kind.text.toList ++ rest = kind'.text.toList ++ more) : kind = kind' ∧ rest = more := by
  -- their first letters differ
  have hkind : kind = kind' := by
    cases kind <;> cases kind' <;> first
      | rfl
      | exact absurd (List.cons.inj h).1 (by decide)
  subst hkind
  exact ⟨rfl, List.append_cancel_left h⟩

/-- What follows the condition of a line: the end of the line, or nothing. -/
def EndsLine (rest : List Char) : Prop := ∀ c ∈ rest.head?, c = '\n'

theorem EndsLine.endsTable (h : EndsLine rest) : EndsTable rest := fun c hc => .inr (h c hc)

theorem endsLine_cons (rest : List Char) : EndsLine ('\n' :: rest) := by
  rintro _ ⟨⟩
  rfl

theorem endsLine_linesChars (base : TableReading) (joined : List TableReading) :
    EndsLine (linesChars d base joined) := by
  cases joined with
  | nil =>
      rw [linesChars, conditionChars]
      cases base.condition with
      | none => exact fun _ hc => nomatch hc
      | some condition => exact endsLine_cons _
  | cons r rest => exact endsLine_cons _

theorem endsTable_conditionChars (r : TableReading) (ends : EndsLine rest) :
    EndsTable (r.conditionChars d ' ' "ON " ++ rest) := by
  rw [conditionChars]
  cases r.condition with
  | none => exact ends.endsTable
  | some condition =>
      rintro _ ⟨⟩
      exact .inl rfl

/-- Whether there is a condition, and which one, is told apart from what
follows, where that does not begin like the condition. -/
theorem conditionChars_append_inj {first : Char} {word : String} (h : r.IsReadable)
    (h' : r'.IsReadable) (ends : EndsLine rest) (ends' : EndsLine more)
    (first_ne : first ∉ rest.head?) (first_ne' : first ∉ more.head?)
    (heq : r.conditionChars d first word ++ rest = r'.conditionChars d first word ++ more) :
    r.condition = r'.condition ∧ rest = more := by
  rw [conditionChars, conditionChars] at heq
  cases hcondition : r.condition with
  | none =>
      cases hcondition' : r'.condition with
      | none =>
          rw [hcondition, hcondition'] at heq
          exact ⟨rfl, heq⟩
      | some condition' =>
          rw [hcondition, hcondition'] at heq
          exact absurd (congrArg List.head? heq) first_ne
  | some condition =>
      obtain ⟨tree, hreadable, rfl⟩ := h condition hcondition
      cases hcondition' : r'.condition with
      | none =>
          rw [hcondition, hcondition'] at heq
          exact absurd (congrArg List.head? heq).symm first_ne'
      | some condition' =>
          obtain ⟨tree', hreadable', rfl⟩ := h' condition' hcondition'
          simp only [hcondition, hcondition', Option.elim_some, List.cons_append,
            List.append_assoc, List.cons.injEq, true_and] at heq
          obtain ⟨hsettled, hrest⟩ := Condition.settled_append_inj hreadable hreadable'
            ends.endsTable.endsOperand ends'.endsTable.endsOperand (List.append_cancel_left heq)
          exact ⟨congrArg some hsettled, hrest⟩

theorem ext_of_eq (hschema : r.schema = r'.schema) (hname : r.name = r'.name)
    (halias : r.alias = r'.alias) (hkind : r.kind = r'.kind)
    (hcondition : r.condition = r'.condition) : r = r' := by
  cases r
  cases r'
  simp_all

/-- A line is told apart from the lines that follow it. -/
theorem joinChars_append_inj (h : r.IsReadable) (h' : r'.IsReadable) (ends : EndsLine rest)
    (ends' : EndsLine more) (heq : r.joinChars d ++ rest = r'.joinChars d ++ more) :
    r = r' ∧ rest = more := by
  simp only [joinChars, List.cons_append, List.append_assoc, List.cons.injEq, true_and] at heq
  obtain ⟨hkind, heq⟩ := kind_append_inj heq
  obtain ⟨hschema, hname, halias, heq⟩ := tableChars_append_inj
    (endsTable_conditionChars r ends) (endsTable_conditionChars r' ends') (List.cons.inj heq).2
  have blank_ne : ∀ {rest : List Char}, EndsLine rest → ' ' ∉ rest.head? :=
    fun hends hblank => absurd (hends ' ' hblank) (by decide)
  obtain ⟨hcondition, hrest⟩ := conditionChars_append_inj h h' ends ends' (blank_ne ends)
    (blank_ne ends') heq
  exact ⟨ext_of_eq hschema hname halias hkind hcondition, hrest⟩

theorem exists_kind_cons (kind : JoinKind) :
    ∃ c chars, kind.text.toList = c :: chars ∧ c ≠ 'W' := by
  cases kind with
  | inner => exact ⟨'I', "NNER JOIN".toList, by decide, by decide⟩
  | leftOuter => exact ⟨'L', "EFT OUTER JOIN".toList, by decide, by decide⟩
  | rightOuter => exact ⟨'R', "IGHT OUTER JOIN".toList, by decide, by decide⟩

/-- A join does not begin like the condition on the rows. -/
theorem joinChars_append_ne (r : TableReading) (rest : List Char) (base : TableReading) :
    r.joinChars d ++ rest ≠ base.conditionChars d '\n' "WHERE " := by
  obtain ⟨c, chars, hkind, hne⟩ := exists_kind_cons r.kind
  have hword : "WHERE ".toList = 'W' :: "HERE ".toList := by decide
  rw [conditionChars, joinChars, hkind]
  cases base.condition with
  | none => exact List.cons_ne_nil _ _
  | some condition =>
      rw [Option.elim_some, hword]
      intro h
      exact hne (List.cons.inj (List.cons.inj h).2).1

/-- The lines of joined tables say which tables they are, and what follows them
says whether there is a condition on the rows, and which one. -/
theorem linesChars_inj (h : ∀ r ∈ base :: joined, r.IsReadable)
    (h' : ∀ r ∈ base' :: joined', r.IsReadable)
    (heq : linesChars d base joined = linesChars d base' joined') :
    base.condition = base'.condition ∧ joined = joined' := by
  obtain ⟨hbase, hjoined⟩ := List.forall_mem_cons.1 h
  obtain ⟨hbase', hjoined'⟩ := List.forall_mem_cons.1 h'
  clear h h'
  induction joined generalizing joined' with
  | nil =>
      cases joined' with
      | nil =>
          have hnil : base.conditionChars d '\n' "WHERE " ++ [] =
              base'.conditionChars d '\n' "WHERE " ++ [] := by
            rw [List.append_nil, List.append_nil]
            exact heq
          have ends : EndsLine [] := fun _ hc => nomatch hc
          exact ⟨(conditionChars_append_inj hbase hbase' ends ends nofun nofun hnil).1, rfl⟩
      | cons r' rest' => exact absurd heq.symm (joinChars_append_ne r' _ base)
  | cons r rest ih =>
      cases joined' with
      | nil => exact absurd heq (joinChars_append_ne r _ base')
      | cons r' rest' =>
          obtain ⟨hr, hrest⟩ := List.forall_mem_cons.1 hjoined
          obtain ⟨hr', hrest'⟩ := List.forall_mem_cons.1 hjoined'
          obtain ⟨rfl, hlines⟩ := joinChars_append_inj hr hr' (endsLine_linesChars base rest)
            (endsLine_linesChars base' rest') heq
          obtain ⟨hcondition, rfl⟩ := ih hlines hrest hrest'
          exact ⟨hcondition, rfl⟩

/-- The text says which tables there are and all that is read of them. -/
theorem textChars_inj (h : ∀ r ∈ base :: joined, r.IsReadable)
    (h' : ∀ r ∈ base' :: joined', r.IsReadable) (kinds : base.kind = base'.kind)
    (heq : textChars d base joined = textChars d base' joined') :
    base :: joined = base' :: joined' := by
  obtain ⟨hschema, hname, halias, hlines⟩ := tableChars_append_inj
    (endsLine_linesChars base joined).endsTable (endsLine_linesChars base' joined').endsTable heq
  obtain ⟨hcondition, rfl⟩ := linesChars_inj h h' hlines
  rw [ext_of_eq hschema hname halias kinds hcondition]

end TableReading

/-! ### Readings of graphs -/

theorem Restriction.isSome_sql_of_ofCondition? {dialect : Sql.Dialect} {lookup : Dict String}
    {parameters : Parameters} {values : Values} {restriction : Restriction}
    {condition? : Option Json}
    (h : ofCondition? dialect lookup parameters condition? values = .ok restriction) :
    restriction.sql.isSome = condition?.any fun condition => !Condition.isBlank condition := by
  unfold ofCondition? at h
  split at h
  next =>
    cases h
    rfl
  next condition =>
    rw [Option.any_some]
    split at h
    next hblank =>
      cases h
      rw [hblank]
      rfl
    next hblank =>
      obtain ⟨_, _, -, -, -, -, hsql, -⟩ := exists_of_ofCondition h
      rw [hsql, Bool.eq_false_iff.2 hblank]
      rfl

namespace JoinGraph

variable {g g' : JoinGraph} {t : GraphTable}

/-- A table has a text exactly if its condition says something. -/
def IsWritten (g : JoinGraph) : Prop :=
  ∀ t ∈ g.tables, t.sql.isSome = t.condition.any fun condition => !Condition.isBlank condition

theorem isWritten_start {catalog : Catalog} {dialect : Sql.Dialect} {entity label : String}
    (h : start catalog dialect entity label = .ok g) : g.IsWritten := by
  obtain ⟨_, -, h⟩ := bind_eq_ok.1 h
  obtain ⟨table, -, h⟩ := bind_eq_ok.1 h
  obtain rfl := pure_eq_ok.1 h
  exact List.forall_mem_singleton.2 rfl

theorem IsWritten.perform (h : g.IsWritten) (call : GraphCall) : (g.perform call).IsWritten := by
  rcases perform_cases g call with ⟨spec, hcall⟩ | ⟨condition, values, hcall⟩ | ⟨_, -, hcall⟩
  · obtain ⟨table, link, restriction, -, -, -, -, hrestriction, heq⟩ := of_withTable hcall
    rw [heq]
    refine List.forall_mem_append.2 ⟨h, List.forall_mem_singleton.2 ?_⟩
    exact Restriction.isSome_sql_of_ofCondition? hrestriction
  · rcases of_withFilter hcall with ⟨-, heq⟩ | ⟨hblank, restriction, hrestriction, heq⟩
    · rw [heq]
      exact h
    · obtain ⟨_, _, -, -, -, -, hsql, -⟩ := Restriction.exists_of_ofCondition hrestriction
      rw [heq]
      refine List.forall_mem_cons.2 ⟨?_, (List.forall_mem_cons.1 h).2⟩
      simp [hsql, hblank]
  · rw [hcall]
    exact h

theorem isWritten_after (h : g.IsWritten) (calls : List GraphCall) :
    (g.after calls).IsWritten := by
  induction calls generalizing g with
  | nil => exact h
  | cons call calls ih => exact ih (h.perform call)

theorem dialect_perform (g : JoinGraph) (call : GraphCall) :
    (g.perform call).dialect = g.dialect := by
  rcases perform_cases g call with ⟨spec, hcall⟩ | ⟨condition, values, hcall⟩ | ⟨_, -, hcall⟩
  · obtain ⟨_, _, _, -, -, -, -, -, heq⟩ := of_withTable hcall
    rw [heq]
    rfl
  · rcases of_withFilter hcall with ⟨-, heq⟩ | ⟨-, _, -, heq⟩ <;> rw [heq]
  · rw [hcall]

theorem dialect_after (g : JoinGraph) (calls : List GraphCall) :
    (g.after calls).dialect = g.dialect := by
  induction calls generalizing g with
  | nil => rfl
  | cons call calls ih => exact (ih _).trans (g.dialect_perform call)

/-- The columns of conditions are under aliases. -/
theorem IsCoherent.isGenuine_of_lookup (h : g.IsCoherent) {property name : String}
    (hname : g.lookup.get? property = some name) : (Operand.column name).isGenuine = true := by
  obtain ⟨part, hpart, hname⟩ := (h.isDisjointUnion_lookup.get?_eq_some property name).1 hname
  obtain ⟨t, ht, rfl⟩ := List.mem_map.1 hpart
  rw [GraphTable.lookup, Dict.get?_ofList] at hname
  have hmem := List.mem_reverse.1 (Dict.mem_of_lookup hname)
  obtain ⟨c, hc, hpair⟩ := List.mem_map.1 hmem
  obtain ⟨column, -, rfl⟩ := List.mem_map.1 hc
  obtain ⟨-, rfl⟩ := Prod.mk.inj hpair
  exact Operand.isGenuine_column (h.isName_alias t ht) column.name

theorem IsCoherent.exists_compilesTo (h : g.IsCoherent) (ht : t ∈ g.tables) {sql : String}
    (hsql : sql ∈ t.sql) : ∃ condition ∈ t.condition, ∃ visible,
      Condition.CompilesTo g.dialect g.lookup g.parameters visible condition sql := by
  rcases List.mem_cons.1 ht with rfl | hjoined
  · obtain ⟨condition, hcondition, hcompiles⟩ := h.isCompiled_base sql hsql
    exact ⟨condition, hcondition, _, hcompiles⟩
  · obtain ⟨earlier, later, hsplit⟩ := List.append_of_mem hjoined
    obtain ⟨condition, hcondition, hcompiles⟩ := h.isCompiled earlier t later hsplit sql hsql
    exact ⟨condition, hcondition, _, hcompiles⟩

/-- The text of a table is that of its condition over columns. -/
theorem sql_eq_mapped (h : g.IsCoherent) (written : g.IsWritten) (ht : t ∈ g.tables) :
    t.sql = (g.mapped? t).map (Condition.sql g.dialect) ∧
      ((∀ condition ∈ t.condition, Condition.IsNamed condition) →
        ∀ condition ∈ g.mapped? t, condition.IsReadable) := by
  have hsome := written t ht
  cases hsql : t.sql with
  | none =>
      rw [hsql] at hsome
      have hnone : g.mapped? t = none := by
        rw [mapped?]
        cases hcondition : t.condition with
        | none => rfl
        | some condition =>
            rw [hcondition] at hsome
            have hblank : Condition.isBlank condition = true := by simpa using hsome.symm
            simp [hblank]
      rw [hnone]
      exact ⟨rfl, fun _ _ hmem => nomatch hmem⟩
  | some sql =>
      obtain ⟨condition, hcondition, _, tree, renamed, hread, hrename, hcompile, -⟩ :=
        h.exists_compilesTo ht hsql
      rw [hsql, hcondition] at hsome
      have hblank : Condition.isBlank condition = false := by simpa using hsome.symm
      have hmapped : g.mapped? t = some renamed := by
        rw [mapped?, hcondition]
        simp [hblank, hread, hrename, Except.toOption]
      obtain ⟨_, -, hcompiled⟩ := bind_eq_ok.1 hcompile
      rw [hmapped]
      refine ⟨congrArg some (pure_eq_ok.1 hcompiled).symm, fun named _ hmem => ?_⟩
      obtain rfl := Option.some.inj hmem
      exact Condition.isReadable_of_rename hread (named condition hcondition tree hread)
        (fun _ _ => h.isGenuine_of_lookup) hrename

/-! ### Texts of graphs -/

theorem toList_quote (d : Sql.Dialect) (name : String) :
    (d.quote name).toList = d.quoteChars name.toList := String.toList_ofList

theorem toList_intercalate_cons (first : String) (rest : List String) :
    ("\n".intercalate (first :: rest)).toList =
      first.toList ++ rest.flatMap fun line => '\n' :: line.toList := by
  induction rest generalizing first with
  | nil => simp
  | cons next rest ih =>
      rw [String.intercalate_cons_cons, String.toList_append, String.toList_append, ih,
        List.flatMap_cons, List.append_assoc]
      rfl

theorem toList_tableText (d : Sql.Dialect) (g : JoinGraph) (t : GraphTable) :
    (t.text d).toList = (g.reading t).tableChars d := by
  have hschema : (t.table.schema.elim "" fun schema => d.quote schema ++ ".").toList =
      t.table.schema.elim [] fun schema => d.quoteChars schema.toList ++ ['.'] := by
    cases t.table.schema with
    | none => rfl
    | some schema =>
        rw [Option.elim_some, Option.elim_some, String.toList_append, toList_quote]
        rfl
  rw [GraphTable.text, String.toList_append, String.toList_append, String.toList_append, hschema,
    toList_quote, toList_quote, List.append_assoc, List.append_assoc]
  rfl

/-- A condition in SQL is that of the reading. -/
theorem toList_conditionText (h : g.IsCoherent) (written : g.IsWritten) (ht : t ∈ g.tables)
    (first : Char) (word : String) :
    (t.sql.elim [] fun sql => first :: (word ++ sql).toList) =
      (g.reading t).conditionChars g.dialect first word := by
  rw [(sql_eq_mapped h written ht).1, TableReading.conditionChars, reading]
  cases g.mapped? t with
  | none => rfl
  | some condition =>
      have hsql : (condition.sql g.dialect).toList = condition.sqlChars g.dialect :=
        String.toList_ofList
      have hsettled : condition.settled.sqlChars g.dialect = condition.sqlChars g.dialect := by
        rw [Condition.sqlChars, Condition.sqlTokens_settled, Condition.sqlChars]
      simp only [Option.map_some, Option.elim_some, String.toList_append, hsql, hsettled]

theorem toList_joinText (h : g.IsCoherent) (written : g.IsWritten) (ht : t ∈ g.tables) :
    '\n' :: (t.joinText g.dialect).toList = (g.reading t).joinChars g.dialect := by
  have hcondition : (t.sql.elim "" fun sql => " ON " ++ sql).toList =
      (g.reading t).conditionChars g.dialect ' ' "ON " := by
    rw [← toList_conditionText h written ht]
    cases t.sql with
    | none => rfl
    | some sql => rw [Option.elim_some, Option.elim_some, String.toList_append,
        String.toList_append]; rfl
  rw [GraphTable.joinText, TableReading.joinChars, String.toList_append, String.toList_append,
    String.toList_append, toList_tableText _ g, hcondition, List.append_assoc, List.append_assoc]
  rfl

theorem linesChars_eq (d : Sql.Dialect) (base : TableReading) (joined : List TableReading) :
    TableReading.linesChars d base joined =
      joined.flatMap (TableReading.joinChars d) ++ base.conditionChars d '\n' "WHERE " := by
  induction joined with
  | nil => rfl
  | cons r rest ih => rw [TableReading.linesChars, ih, List.flatMap_cons, List.append_assoc]

/-- The text of a graph is made of the readings of its tables. -/
theorem toList_sql (h : g.IsCoherent) (written : g.IsWritten) :
    g.sql.toList = "FROM ".toList ++
      TableReading.textChars g.dialect (g.reading g.base) (g.joined.map g.reading) := by
  have hjoins : g.joinTexts.flatMap (fun line => '\n' :: line.toList) =
      (g.joined.map g.reading).flatMap (TableReading.joinChars g.dialect) := by
    rw [joinTexts, List.flatMap_map, List.flatMap_map]
    exact List.flatMap_congr fun t ht => toList_joinText h written (List.mem_cons_of_mem _ ht)
  have hwhere : g.whereText?.toList.flatMap (fun line => '\n' :: line.toList) =
      (g.reading g.base).conditionChars g.dialect '\n' "WHERE " := by
    rw [← toList_conditionText h written List.mem_cons_self, whereText?]
    cases g.base.sql <;> simp
  rw [sql_eq_text, text, List.cons_append, toList_intercalate_cons, List.flatMap_append, hjoins,
    hwhere, fromText, String.toList_append, toList_tableText _ g, TableReading.textChars,
    linesChars_eq, List.append_assoc]

/-- The readings of a graph whose placeholders are named are readable. -/
theorem isReadable_reading (h : g.IsCoherent) (written : g.IsWritten)
    (named : ∀ t ∈ g.tables, ∀ condition ∈ t.condition, Condition.IsNamed condition) :
    ∀ r ∈ g.reading g.base :: g.joined.map g.reading, r.IsReadable := by
  intro r hr
  obtain ⟨t, ht, rfl⟩ := List.mem_map.1 (show r ∈ g.tables.map g.reading from hr)
  intro condition hcondition
  obtain ⟨tree, htree, rfl⟩ := Option.map_eq_some_iff.1 hcondition
  exact ⟨tree, (sql_eq_mapped h written ht).2 (named t ht) tree htree, rfl⟩

theorem kind_reading_base (h : g.IsCoherent) : (g.reading g.base).kind = .inner := by
  rw [reading, h.link_base]
  rfl

/-- What holds of every graph that is reached. -/
theorem reached_after {catalog : Catalog} {dialect : Sql.Dialect} {entity label : String}
    (hg : start catalog dialect entity label = .ok g) (calls : List GraphCall) :
    (g.after calls).IsCoherent ∧ (g.after calls).IsWritten ∧
      (g.after calls).dialect = dialect := by
  refine ⟨(isCoherent_start hg).after calls, isWritten_after (isWritten_start hg) calls, ?_⟩
  obtain ⟨_, -, h⟩ := bind_eq_ok.1 hg
  obtain ⟨table, -, h⟩ := bind_eq_ok.1 h
  obtain rfl := pure_eq_ok.1 h
  exact dialect_after _ calls

/-- Graphs of a dialect are written alike exactly if their tables are read alike:
the same schemas, names and aliases in the same order, joins of the same kinds,
and the same conditions over columns. Their catalogs and the calls they were
made by may be any. -/
theorem sql_eq_iff_readings {dialect : Sql.Dialect} {catalog catalog' : Catalog}
    {entity entity' label label' : String} {g h : JoinGraph}
    (hg : start catalog dialect entity label = .ok g) (calls : List GraphCall)
    (hh : start catalog' dialect entity' label' = .ok h) (calls' : List GraphCall)
    (named : ∀ t ∈ (g.after calls).tables, ∀ condition ∈ t.condition, Condition.IsNamed condition)
    (named' : ∀ t ∈ (h.after calls').tables, ∀ condition ∈ t.condition,
      Condition.IsNamed condition) :
    (g.after calls).sql = (h.after calls').sql ↔
      (g.after calls).tables.map (g.after calls).reading =
        (h.after calls').tables.map (h.after calls').reading := by
  obtain ⟨coherent, written, hdialect⟩ := reached_after hg calls
  obtain ⟨coherent', written', hdialect'⟩ := reached_after hh calls'
  rw [← String.toList_inj, toList_sql coherent written, toList_sql coherent' written', hdialect,
    hdialect', List.append_cancel_left_eq]
  constructor
  · intro htexts
    refine TableReading.textChars_inj (isReadable_reading coherent written named)
      (isReadable_reading coherent' written' named') ?_ htexts
    rw [kind_reading_base coherent, kind_reading_base coherent']
  · intro hreadings
    obtain ⟨hbase, hjoined⟩ := List.cons.inj hreadings
    rw [hbase, hjoined]

/-- Users in a table whose name looks like a table, an alias and a join. -/
def oddBook : Catalog where
  tables := [
    { entity := "User", name := "a\" AS \"u\"\nINNER JOIN \"b",
      columns := [{ name := "id\" = 1 OR \"x", property := "id", isPrimary := true }] }]
  relationships := []
  sound := by decide

/-- Whether the identifier is the value of a placeholder. -/
def oddCalls : List GraphCall :=
  [.filter (.obj [("$eq", .obj [("u.id", .str ":p")])]) (.ofList [("p", .num "1")])]

/-- A join of phones, with the same condition. -/
def joinCalls : List GraphCall :=
  .join .inner { entity := "Phone", «alias» := "p", parentProperty := "u.phones" } :: oddCalls

/-- A name that looks like a join is told apart from a join. -/
theorem sql_eq_iff_readings_oddBook :
    ∃ g h, start oddBook .postgres "User" "u" = .ok g ∧
      start phoneBook .postgres "User" "u" = .ok h ∧
      (g.after oddCalls).sql =
        "FROM \"a\"\" AS \"\"u\"\"\nINNER JOIN \"\"b\" AS \"u\"\nWHERE " ++
          "\"u\".\"id\"\" = 1 OR \"\"x\" = :p" ∧
      (g.after oddCalls).sql ≠ (h.after joinCalls).sql := by
  have hname : checkAlias "u" = .ok () := if_pos (by decide +kernel)
  obtain ⟨g, hg, hsql, hone, hnamed⟩ : ∃ g, start oddBook .postgres "User" "u" = .ok g ∧
      (g.after oddCalls).sql =
        "FROM \"a\"\" AS \"\"u\"\"\nINNER JOIN \"\"b\" AS \"u\"\nWHERE " ++
          "\"u\".\"id\"\" = 1 OR \"\"x\" = :p" ∧
      (g.after oddCalls).tables.length = 1 ∧ ∀ t ∈ (g.after oddCalls).tables,
        ∀ condition ∈ t.condition, Condition.IsNamed condition := by
    rw [start, hname]
    exact ⟨_, rfl, by decide +kernel⟩
  obtain ⟨h, hh, htwo, hnamed'⟩ : ∃ h, start phoneBook .postgres "User" "u" = .ok h ∧
      (h.after joinCalls).tables.length = 2 ∧ ∀ t ∈ (h.after joinCalls).tables,
        ∀ condition ∈ t.condition, Condition.IsNamed condition := by
    rw [start, hname]
    exact ⟨_, rfl, by decide +kernel⟩
  refine ⟨g, h, hg, hh, hsql, fun heq => ?_⟩
  have hreadings := (sql_eq_iff_readings hg oddCalls hh joinCalls hnamed hnamed').1 heq
  have hlength := congrArg List.length hreadings
  rw [List.length_map, List.length_map, hone, htwo] at hlength
  cases hlength

end JoinGraph

end EntityQuery
