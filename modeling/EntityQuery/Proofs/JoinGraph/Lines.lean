import EntityQuery.JoinGraph.Sql
import EntityQuery.Proofs.JoinGraph.Coherence
import EntityQuery.Proofs.Sql.Rendering

/-!
# The lines of a join graph

A join graph is written as the line of its base table, a line for each joined
table and, if there is one, the line of the condition on the rows. The lines are
spelled here as texts (`JoinGraph.sql_eq_text`), and it is said which calls add
to them: each join that succeeds adds one line after the others, and the
condition has a line once a condition that says something has been accepted.
-/

namespace EntityQuery

variable {d : Sql.Dialect}

/-! ### Texts of tables -/

/-- The words of a join. -/
def JoinKind.text : JoinKind → String
  | inner => "INNER JOIN"
  | leftOuter => "LEFT OUTER JOIN"
  | rightOuter => "RIGHT OUTER JOIN"

theorem JoinKind.render_sqlTokens (kind : JoinKind) : Sql.render d kind.sqlTokens = kind.text := by
  cases kind <;> rfl

namespace GraphTable

/-- A table and its alias. -/
def text (d : Sql.Dialect) (t : GraphTable) : String :=
  (t.table.schema.elim "" fun schema => d.quote schema ++ ".") ++ d.quote t.table.name ++
    " AS " ++ d.quote t.alias

/-- The line of a joined table. -/
def joinText (d : Sql.Dialect) (t : GraphTable) : String :=
  ((t.link.bind Link.kind).getD .inner).text ++ " " ++ t.text d ++
    t.sql.elim "" fun sql => " ON " ++ sql

/-- The columns of the primary key under the alias of the table. -/
def keyTexts (d : Sql.Dialect) (t : GraphTable) : List String :=
  t.table.primaryKey.map fun key => d.quote t.alias ++ "." ++ d.quote key.name

theorem render_sqlTokens (t : GraphTable) : Sql.render d t.sqlTokens = t.text d := by
  simp only [sqlTokens, text, Sql.render_words, List.map_cons, List.map_nil, Sql.Token.text_table,
    Sql.Token.text_keyword, Sql.Token.text_ident, String.intercalate_cons_cons,
    String.intercalate_singleton, String.append_assoc]
  rfl

theorem render_joinLine (t : GraphTable) : Sql.render d t.joinLine = t.joinText d := by
  cases hsql : t.sql with
  | none =>
      simp [joinLine, joinText, hsql, JoinKind.render_sqlTokens, render_sqlTokens,
        String.append_assoc]
  | some sql =>
      simp only [joinLine, joinText, hsql, Sql.render_append, Sql.render_cons, Sql.render_words,
        JoinKind.render_sqlTokens, render_sqlTokens, Sql.Token.text_space, List.map_cons,
        List.map_nil, Sql.Token.text_keyword, Sql.Token.text_written,
        String.intercalate_cons_cons, String.intercalate_singleton, String.append_assoc]
      rfl

theorem render_keyColumns {t : GraphTable} (named : Text.isName t.alias = true) :
    (t.keyColumns.map fun c => [Sql.Token.column c.reference]).map (Sql.render d) =
      t.keyTexts d := by
  rw [keyColumns, keyTexts, List.map_map, List.map_map]
  refine List.map_congr_left fun key _ => ?_
  simp [GraphColumn.reference, Sql.quoteColumn_append (dot_notMem_of_isName named)]

end GraphTable

namespace JoinGraph

/-! ### Texts of graphs -/

/-- The line of the base table. -/
def fromText (g : JoinGraph) : String := "FROM " ++ g.base.text g.dialect

/-- The lines of the joined tables. -/
def joinTexts (g : JoinGraph) : List String := g.joined.map (GraphTable.joinText g.dialect)

/-- The line of the condition on the rows, if there is one. -/
def whereText? (g : JoinGraph) : Option String := g.base.sql.map fun sql => "WHERE " ++ sql

/-- All lines of the graph. -/
def text (g : JoinGraph) : String :=
  "\n".intercalate (g.fromText :: g.joinTexts ++ g.whereText?.toList)

variable {g g' : JoinGraph}

theorem render_fromLine (g : JoinGraph) : Sql.render g.dialect g.fromLine = g.fromText := by
  rw [fromLine, fromText, Sql.render_cons, Sql.render_cons, GraphTable.render_sqlTokens,
    ← String.append_assoc]
  rfl

theorem render_joinLines (g : JoinGraph) :
    g.joinLines.map (Sql.render g.dialect) = g.joinTexts := by
  rw [joinLines, joinTexts, List.map_map]
  exact List.map_congr_left fun t _ => GraphTable.render_joinLine t

theorem render_whereLine? (g : JoinGraph) :
    g.whereLine?.toList.map (Sql.render g.dialect) = g.whereText?.toList := by
  rw [whereLine?, whereText?]
  cases g.base.sql <;> simp [Sql.Keyword.text]

theorem render_lines (g : JoinGraph) :
    g.lines.map (Sql.render g.dialect) = g.fromText :: g.joinTexts ++ g.whereText?.toList := by
  rw [lines, List.map_append, List.map_cons, render_fromLine, render_joinLines, render_whereLine?]

theorem render_sqlTokens (g : JoinGraph) : Sql.render g.dialect g.sqlTokens = g.text := by
  rw [sqlTokens, Sql.render_stack, render_lines, text]

theorem sql_eq_text (g : JoinGraph) : g.sql = g.text := g.render_sqlTokens

/-! ### What calls add to the lines -/

/-- The alias that a call joins to a graph, if it joins one and succeeds. -/
def joinedBy (g : JoinGraph) : GraphCall → List String
  | .addTable spec => if ((GraphM.addTable spec).runOn g).1.isOk then [spec.alias] else []
  | .join kind spec => if ((GraphM.join kind spec).runOn g).1.isOk then [spec.alias] else []
  | .filter .. | .mint _ | .addParameter .. | .addParameters .. | .mergeParameters .. => []

/-- Whether a call gives the graph a condition on its rows that says something. -/
def isRestrictedBy (g : JoinGraph) : GraphCall → Bool
  | .filter condition values =>
      !Condition.isBlank condition && ((GraphM.filter condition values).runOn g).1.isOk
  | .addTable _ | .join .. | .mint _ | .addParameter .. | .addParameters ..
  | .mergeParameters .. => false

/-- The aliases that calls join to a graph, in the order of the calls. -/
def joinedByAll (g : JoinGraph) : List GraphCall → List String
  | [] => []
  | call :: rest => g.joinedBy call ++ (g.perform call).joinedByAll rest

/-- Whether one of some calls in turn gives the graph a condition on its rows. -/
def isRestrictedByAny (g : JoinGraph) : List GraphCall → Bool
  | [] => false
  | call :: rest => g.isRestrictedBy call || (g.perform call).isRestrictedByAny rest

theorem runOn_commit_of_ok {stage : JoinGraph → Except QueryError JoinGraph}
    (h : stage g = .ok g') : (GraphM.commit stage).runOn g = (.ok (), g') := by
  rw [GraphM.runOn_commit, h]

theorem runOn_commit_of_error {stage : JoinGraph → Except QueryError JoinGraph}
    {error : QueryError} (h : stage g = .error error) :
    (GraphM.commit stage).runOn g = (.error error, g) := by
  rw [GraphM.runOn_commit, h]

/-- A table that is added comes after the others, and the base table stays. -/
theorem joined_of_withTable {spec : TableSpec} (h : g.withTable spec = .ok g') :
    g'.joined.map GraphTable.alias = g.joined.map GraphTable.alias ++ [spec.alias] ∧
      g'.base = g.base := by
  obtain ⟨table, link, restriction, -, -, -, -, -, rfl⟩ := of_withTable h
  exact ⟨List.map_append, rfl⟩

theorem joined_of_withJoin {kind : JoinKind} {spec : JoinSpec} (h : g.withJoin kind spec = .ok g') :
    g'.joined.map GraphTable.alias = g.joined.map GraphTable.alias ++ [spec.alias] ∧
      g'.base = g.base := by
  obtain ⟨_, _, _, -, -, h⟩ := exists_withTable_of_withJoin h
  exact joined_of_withTable h

/-- A condition on the rows joins nothing. It has a line unless it is blank. -/
theorem joined_of_withFilter {condition : Json} {values : Values}
    (h : g.withFilter condition values = .ok g') :
    g'.joined = g.joined ∧
      g'.base.sql.isSome = (g.base.sql.isSome || !Condition.isBlank condition) := by
  rcases of_withFilter h with ⟨hblank, rfl⟩ | ⟨hblank, restriction, hrestriction, rfl⟩
  · exact ⟨rfl, by rw [hblank, Bool.not_true, Bool.or_false]⟩
  · obtain ⟨_, _, _, _, _, _, hsql, _⟩ := Restriction.exists_of_ofCondition hrestriction
    refine ⟨rfl, ?_⟩
    rw [hblank, hsql, Bool.not_false, Bool.or_true, Option.isSome_some]

/-- After a call there are the lines from before it and those that it has added. -/
theorem lines_perform (g : JoinGraph) (call : GraphCall) :
    (g.perform call).joined.map GraphTable.alias =
        g.joined.map GraphTable.alias ++ g.joinedBy call ∧
      (g.perform call).base.sql.isSome = (g.base.sql.isSome || g.isRestrictedBy call) := by
  have hnone : g.joined.map GraphTable.alias = g.joined.map GraphTable.alias ++ [] ∧
      g.base.sql.isSome = (g.base.sql.isSome || false) :=
    ⟨(List.append_nil _).symm, (Bool.or_false _).symm⟩
  cases call with
  | addTable spec =>
      rw [perform, joinedBy, isRestrictedBy, GraphM.addTable_eq_commit]
      cases h : g.withTable spec with
      | ok g' =>
          obtain ⟨hjoined, hbase⟩ := joined_of_withTable h
          rw [runOn_commit_of_ok h, hbase]
          exact ⟨hjoined, hnone.2⟩
      | error error => rw [runOn_commit_of_error h]; exact hnone
  | join kind spec =>
      rw [perform, joinedBy, isRestrictedBy, GraphM.join_eq_commit]
      cases h : g.withJoin kind spec with
      | ok g' =>
          obtain ⟨hjoined, hbase⟩ := joined_of_withJoin h
          rw [runOn_commit_of_ok h, hbase]
          exact ⟨hjoined, hnone.2⟩
      | error error => rw [runOn_commit_of_error h]; exact hnone
  | filter condition values =>
      rw [perform, joinedBy, isRestrictedBy, GraphM.filter_eq_commit]
      cases h : g.withFilter condition values with
      | ok g' =>
          obtain ⟨hjoined, hsql⟩ := joined_of_withFilter h
          rw [runOn_commit_of_ok h, hjoined, hsql]
          exact ⟨hnone.1, congrArg _ (Bool.and_true _).symm⟩
      | error error =>
          rw [runOn_commit_of_error h]
          exact ⟨hnone.1, by simp [Except.isOk, Except.toBool]⟩
  | addParameter overwrite name value =>
      rw [perform, GraphM.addParameter_eq_commit]
      rcases GraphM.eq_or_of_commit
        (fun g => return { g with parameters := ← g.parameters.add overwrite name value }) g
        with h | h
      · obtain ⟨parameters, -, h⟩ := bind_eq_ok.1 h
        rw [← pure_eq_ok.1 h]
        exact hnone
      · rw [h]
        exact hnone
  | mint | addParameters | mergeParameters => exact hnone

/-- After any calls, the joined tables are those that the calls have joined, and
there is a condition on the rows if one of the calls has given one. -/
theorem lines_after (g : JoinGraph) (calls : List GraphCall) :
    (g.after calls).joined.map GraphTable.alias =
        g.joined.map GraphTable.alias ++ g.joinedByAll calls ∧
      (g.after calls).base.sql.isSome = (g.base.sql.isSome || g.isRestrictedByAny calls) := by
  induction calls generalizing g with
  | nil => exact ⟨(List.append_nil _).symm, (Bool.or_false _).symm⟩
  | cons call calls ih =>
      obtain ⟨hjoined, hsql⟩ := g.lines_perform call
      rw [after, List.foldl_cons, ← after, (ih _).1, (ih _).2, hjoined, hsql, List.append_assoc,
        Bool.or_assoc]
      exact ⟨rfl, rfl⟩

theorem lines_start {catalog : Catalog} {dialect : Sql.Dialect} {entity label : String}
    (h : start catalog dialect entity label = .ok g) : g.joined = [] ∧ g.base.sql = none := by
  obtain ⟨_, -, h⟩ := bind_eq_ok.1 h
  obtain ⟨table, -, h⟩ := bind_eq_ok.1 h
  obtain rfl := pure_eq_ok.1 h
  exact ⟨rfl, rfl⟩

end JoinGraph

end EntityQuery
