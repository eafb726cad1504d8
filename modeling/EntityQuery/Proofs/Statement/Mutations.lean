import EntityQuery.Proofs.JoinGraph.Lines
import EntityQuery.Proofs.JoinGraph.Tables
import EntityQuery.Proofs.Statement.Assignments

/-!
# Mutations keep the lines of their graph

An update or a deletion changes the rows of one table that its graph reaches.
Dialects put the lines of the graph in different places: after the changed
table, after the assignments, or in a subquery for the keys of the changed
table. The lines are spelled here for each of them (`Update.sql_eq`,
`Delete.sql_eq`), and none of a join or a condition is ever lost
(`mutations_keep_lines`).
-/

namespace EntityQuery

/-- Expressions as one value: one alone, or several in parentheses. -/
def rowText : List String → String
  | [text] => text
  | texts => "(" ++ ", ".intercalate texts ++ ")"

namespace JoinGraph

variable {g : JoinGraph} {t : GraphTable}

/-- The line that narrows a table by its keys in the rows of the graph. -/
def keysText (g : JoinGraph) (t : GraphTable) : String :=
  "WHERE " ++ rowText (t.keyTexts g.dialect) ++ " IN (SELECT " ++
    ", ".intercalate (t.keyTexts g.dialect) ++ "\n" ++ g.text ++ ")"

theorem render_keyTokens (named : Text.isName t.alias = true) (keyed : t.table.primaryKey ≠ []) :
    Sql.render g.dialect (keyTokens t.keyColumns) = rowText (t.keyTexts g.dialect) := by
  have hcolumns : Sql.render g.dialect (Sql.commaSeparated
      (t.keyColumns.map fun c => [Sql.Token.column c.reference])) =
        ", ".intercalate (t.keyTexts g.dialect) := by
    rw [Sql.render_commaSeparated, GraphTable.render_keyColumns named]
  obtain ⟨first, rest, hkey⟩ := List.exists_cons_of_ne_nil keyed
  have htexts : ∃ text texts, t.keyTexts g.dialect = text :: texts ∧
      texts.length = rest.length := by
    rw [GraphTable.keyTexts, hkey]
    exact ⟨_, _, rfl, List.length_map _⟩
  obtain ⟨text, texts, htexts, hlength⟩ := htexts
  rw [keyTokens, GraphTable.keyColumns, List.length_map, ← GraphTable.keyColumns, hkey]
  rw [htexts] at hcolumns ⊢
  cases texts with
  | nil =>
      rw [if_neg (by simp [← hlength]), hcolumns, rowText, String.intercalate_singleton]
  | cons next more =>
      rw [if_pos (by simp [← hlength]), Sql.render_parenthesized, hcolumns]
      rfl

theorem render_keySubquery (named : Text.isName t.alias = true)
    (keyed : t.table.primaryKey ≠ []) :
    Sql.render g.dialect (g.keySubquery t) = g.keysText t := by
  have hwhere : "WHERE " = Sql.Keyword.where_.text ++ " " := rfl
  have hin : " IN (SELECT " =
      " " ++ Sql.Keyword.in_.text ++ " " ++ "(" ++ Sql.Keyword.select.text ++ " " := rfl
  simp only [keySubquery, keysText, Sql.render_append, Sql.render_cons, Sql.render_parenthesized,
    Sql.render_commaSeparated, render_keyTokens named keyed, GraphTable.render_keyColumns named,
    g.render_sqlTokens, Sql.Token.text_keyword, Sql.Token.text_space, hwhere, hin,
    String.append_assoc]
  rfl

end JoinGraph

/-! ### Lines of updates -/

namespace Update

/-- One assignment. Where the statement has a single table, its columns stand alone. -/
def assignmentText (d : Sql.Dialect) (a : Assignment) : String :=
  (match d with
    | .mysql | .tsql => d.quote a.column.alias ++ "." ++ d.quote a.column.column.name
    | .postgres | .duckdb => d.quote a.column.column.name) ++ " = :" ++ a.placeholder

/-- The line of assignments. -/
def setText (d : Sql.Dialect) (assignments : List Assignment) : String :=
  "SET " ++ ", ".intercalate (assignments.map (assignmentText d))

/-- The lines of an update of a graph with a line of assignments. -/
def lineTexts (g : JoinGraph) (setText : String) : List String :=
  match g.dialect with
  | .mysql =>
      ("UPDATE " ++ g.base.text g.dialect) :: g.joinTexts ++ setText :: g.whereText?.toList
  | .tsql => ["UPDATE " ++ g.dialect.quote g.base.alias, setText, g.text]
  | .postgres | .duckdb =>
      ("UPDATE " ++ g.base.text g.dialect) :: setText ::
        if g.joined = [] then g.whereText?.toList else [g.keysText g.base]

variable {d : Sql.Dialect} {a : Assignment} {u : Update}

theorem render_assignmentTokens (named : Text.isName a.column.alias = true) :
    Sql.render d (assignmentTokens d.mutationStyle a) = assignmentText d a := by
  have hcolumn : d.quoteColumn a.column.reference =
      d.quote a.column.alias ++ "." ++ d.quote a.column.column.name :=
    Sql.quoteColumn_append (dot_notMem_of_isName named)
  unfold assignmentText assignmentTokens
  rw [Sql.render_words]
  cases d <;>
    simp [Sql.Dialect.mutationStyle, hcolumn, Sql.equals_placeholder, String.append_assoc]

theorem render_setLine (named : ∀ a ∈ u.assignments, Text.isName a.column.alias = true) :
    Sql.render u.graph.dialect u.setLine = setText u.graph.dialect u.assignments := by
  have htexts : (u.assignments.map (assignmentTokens u.graph.dialect.mutationStyle)).map
      (Sql.render u.graph.dialect) = u.assignments.map (assignmentText u.graph.dialect) := by
    rw [List.map_map]
    exact List.map_congr_left fun a ha => render_assignmentTokens (named a ha)
  have hset : "SET " = Sql.Keyword.set.text ++ " " := rfl
  simp only [setLine, setText, Sql.render_cons, Sql.render_commaSeparated, htexts, hset,
    Sql.Token.text_keyword, Sql.Token.text_space, String.append_assoc]

theorem render_updateLine (g : JoinGraph) :
    Sql.render g.dialect (Sql.Token.keyword .update :: .space :: g.base.sqlTokens) =
      "UPDATE " ++ g.base.text g.dialect := by
  have hupdate : "UPDATE " = Sql.Keyword.update.text ++ " " := rfl
  simp only [Sql.render_cons, GraphTable.render_sqlTokens, hupdate, Sql.Token.text_keyword,
    Sql.Token.text_space, String.append_assoc]

theorem linesAround_of_multiTable (h : u.graph.dialect.mutationStyle = .multiTable)
    (line : List Sql.Token) :
    (u.linesAround line).map (Sql.render u.graph.dialect) =
      ("UPDATE " ++ u.graph.base.text u.graph.dialect) :: u.graph.joinTexts ++
        Sql.render u.graph.dialect line :: u.graph.whereText?.toList := by
  rw [linesAround, h]
  simp only [List.map_append, List.map_cons, render_updateLine, JoinGraph.render_joinLines,
    JoinGraph.render_whereLine?]

theorem linesAround_of_targetAlias (h : u.graph.dialect.mutationStyle = .targetAlias)
    (line : List Sql.Token) :
    (u.linesAround line).map (Sql.render u.graph.dialect) =
      ("UPDATE " ++ u.graph.dialect.quote u.graph.base.alias) ::
        Sql.render u.graph.dialect line :: u.graph.fromText ::
          (u.graph.joinTexts ++ u.graph.whereText?.toList) := by
  have hupdate : "UPDATE " = Sql.Keyword.update.text ++ " " := rfl
  rw [linesAround, h]
  simp only [List.map_cons, JoinGraph.render_lines, List.cons_append, Sql.render_words,
    List.map_nil, Sql.Token.text_keyword, Sql.Token.text_ident,
    String.intercalate_cons_cons, String.intercalate_singleton, hupdate,
    String.append_assoc]

theorem linesAround_of_keySubquery (h : u.graph.dialect.mutationStyle = .keySubquery)
    (named : Text.isName u.graph.base.alias = true)
    (keyed : u.graph.base.table.primaryKey ≠ []) (line : List Sql.Token) :
    (u.linesAround line).map (Sql.render u.graph.dialect) =
      ("UPDATE " ++ u.graph.base.text u.graph.dialect) :: Sql.render u.graph.dialect line ::
        if u.graph.joined = [] then u.graph.whereText?.toList
        else [u.graph.keysText u.graph.base] := by
  rw [linesAround, h]
  simp only [List.map_cons, render_updateLine, JoinGraph.hasJoins]
  by_cases hjoined : u.graph.joined = []
  · simp [hjoined, JoinGraph.render_whereLine?]
  · simp [hjoined, JoinGraph.render_keySubquery named keyed]

/-- The text of an update is the lines of its dialect. -/
theorem sql_eq (assigned : u.assignments ≠ [])
    (named : ∀ a ∈ u.assignments, Text.isName a.column.alias = true)
    (named_base : Text.isName u.graph.base.alias = true)
    (keyed : u.graph.base.table.primaryKey ≠ []) :
    u.sql =
      "\n".intercalate (lineTexts u.graph (setText u.graph.dialect u.assignments)) := by
  have hempty : ¬u.assignments.isEmpty = true := fun h => assigned (List.isEmpty_iff.1 h)
  rw [sql, sqlTokens, if_neg hempty, Sql.render_stack, ← render_setLine named]
  obtain ⟨dialect, hd⟩ : ∃ dialect, u.graph.dialect = dialect := ⟨_, rfl⟩
  cases dialect with
  | mysql =>
      rw [linesAround_of_multiTable (by rw [hd]; rfl), lineTexts, hd]
  | tsql =>
      rw [linesAround_of_targetAlias (by rw [hd]; rfl), lineTexts, hd]
      simp only [String.intercalate_cons_cons, String.intercalate_singleton]
      rfl
  | postgres | duckdb =>
      rw [linesAround_of_keySubquery (by rw [hd]; rfl) named_base keyed, lineTexts, hd]

end Update

/-! ### Lines of deletions -/

namespace Delete

/-- The lines of a deletion from a table of a graph, after the first word. -/
def lineTexts (g : JoinGraph) (target : GraphTable) : List String :=
  match g.dialect with
  | .mysql | .tsql => [g.dialect.quote target.alias, g.text]
  | .postgres | .duckdb =>
      if g.joined = [] then [g.text]
      else ["FROM " ++ target.text g.dialect, g.keysText target]

variable {e : Delete}

theorem linesAfter_of_ne_keySubquery (h : e.graph.dialect.mutationStyle ≠ .keySubquery) :
    e.linesAfter.map (Sql.render e.graph.dialect) =
      e.graph.dialect.quote e.target.alias :: e.graph.fromText ::
        (e.graph.joinTexts ++ e.graph.whereText?.toList) := by
  have hlines : e.linesAfter = [.ident e.target.alias] :: e.graph.lines := by
    rw [linesAfter]
    cases hstyle : e.graph.dialect.mutationStyle with
    | multiTable | targetAlias => rfl
    | keySubquery => exact absurd hstyle h
  rw [hlines, List.map_cons, JoinGraph.render_lines, List.cons_append, Sql.render_cons,
    Sql.render_nil, String.append_empty, Sql.Token.text_ident]

theorem linesAfter_of_keySubquery (h : e.graph.dialect.mutationStyle = .keySubquery)
    (named : Text.isName e.target.alias = true) (keyed : e.target.table.primaryKey ≠ []) :
    "\n".intercalate (e.linesAfter.map (Sql.render e.graph.dialect)) =
      "\n".intercalate (if e.graph.joined = [] then [e.graph.text]
        else ["FROM " ++ e.target.text e.graph.dialect, e.graph.keysText e.target]) := by
  have hfrom : "FROM " = Sql.Keyword.from_.text ++ " " := rfl
  rw [linesAfter, h]
  by_cases hjoined : e.graph.joined = []
  · simp [hjoined, JoinGraph.hasJoins, JoinGraph.render_lines, JoinGraph.text]
  · simp [hjoined, JoinGraph.hasJoins, JoinGraph.render_keySubquery named keyed,
      GraphTable.render_sqlTokens, hfrom, String.append_assoc]

/-- The text of a deletion is the lines of its dialect. -/
theorem sql_eq (named : Text.isName e.target.alias = true)
    (keyed : e.target.table.primaryKey ≠ []) :
    e.sql = "DELETE " ++ "\n".intercalate (lineTexts e.graph e.target) := by
  have hdelete : "DELETE " = Sql.Keyword.delete.text ++ " " := rfl
  rw [sql, sqlTokens, Sql.render_cons, Sql.render_cons, Sql.render_stack, hdelete,
    String.append_assoc]
  congr 2
  obtain ⟨dialect, hd⟩ : ∃ dialect, e.graph.dialect = dialect := ⟨_, rfl⟩
  cases dialect with
  | mysql | tsql =>
      rw [linesAfter_of_ne_keySubquery (by rw [hd]; decide), lineTexts, hd]
      simp only [String.intercalate_cons_cons, String.intercalate_singleton]
      rfl
  | postgres | duckdb =>
      rw [linesAfter_of_keySubquery (by rw [hd]; rfl) named keyed, lineTexts, hd]

end Delete

/-! ### No line is lost -/

theorem infix_intercalate {separator text : String} {texts : List String} (h : text ∈ texts) :
    text.toList <:+: (separator.intercalate texts).toList := by
  induction texts with
  | nil => cases h
  | cons first rest ih =>
      cases rest with
      | nil =>
          have hone : (separator.intercalate [first]).toList = text.toList := by
            rw [List.mem_singleton.1 h, String.intercalate_singleton]
          exact hone ▸ List.infix_rfl
      | cons next rest =>
          rw [String.intercalate_cons_cons, String.toList_append, String.toList_append]
          rcases List.mem_cons.1 h with rfl | hmem
          · rw [List.append_assoc]
            exact (List.prefix_append _ _).isInfix
          · exact (ih hmem).trans (List.suffix_append _ _).isInfix

namespace JoinGraph

/-- A statement has all lines of the joins of a graph and of the condition on its rows. -/
def KeepsLines (g : JoinGraph) (sql : String) : Prop :=
  ∀ line ∈ g.joinTexts ++ g.whereText?.toList, line.toList <:+: sql.toList

variable {g : JoinGraph}

theorem KeepsLines.mono {sql sql' : String} (h : g.KeepsLines sql)
    (h' : sql.toList <:+: sql'.toList) : g.KeepsLines sql' :=
  fun line hline => (h line hline).trans h'

theorem KeepsLines.of_mem {sql separator : String} {texts : List String} (h : g.KeepsLines sql)
    (hmem : sql ∈ texts) : g.KeepsLines (separator.intercalate texts) :=
  h.mono (infix_intercalate hmem)

theorem keepsLines_text (g : JoinGraph) : g.KeepsLines g.text := fun line hline =>
  infix_intercalate (by rw [List.cons_append]; exact List.mem_cons_of_mem _ hline)

theorem keepsLines_keysText (g : JoinGraph) (t : GraphTable) : g.KeepsLines (g.keysText t) := by
  refine g.keepsLines_text.mono ?_
  rw [keysText, String.toList_append, String.toList_append]
  exact List.infix_append _ _ _

theorem keepsLines_updateTexts (g : JoinGraph) (setText : String) :
    g.KeepsLines ("\n".intercalate (Update.lineTexts g setText)) := by
  unfold Update.lineTexts
  split
  next =>
    intro line hline
    apply infix_intercalate
    rcases List.mem_append.1 hline with hjoin | hwhere
    · exact List.mem_append_left _ (List.mem_cons_of_mem _ hjoin)
    · exact List.mem_append_right _ (List.mem_cons_of_mem _ hwhere)
  next => exact g.keepsLines_text.of_mem (by simp)
  all_goals
    split
    next hjoined =>
      intro line hline
      apply infix_intercalate
      rw [joinTexts, hjoined, List.map_nil, List.nil_append] at hline
      exact List.mem_cons_of_mem _ (List.mem_cons_of_mem _ hline)
    next => exact (g.keepsLines_keysText g.base).of_mem (by simp)

theorem keepsLines_deleteTexts (g : JoinGraph) (target : GraphTable) :
    g.KeepsLines ("DELETE " ++ "\n".intercalate (Delete.lineTexts g target)) := by
  have hlines : g.KeepsLines ("\n".intercalate (Delete.lineTexts g target)) := by
    unfold Delete.lineTexts
    split
    iterate 2 exact g.keepsLines_text.of_mem (by simp)
    all_goals
      split
      next => exact g.keepsLines_text.of_mem (by simp)
      next => exact (g.keepsLines_keysText target).of_mem (by simp)
  refine hlines.mono ?_
  rw [String.toList_append]
  exact (List.suffix_append _ _).isInfix

end JoinGraph

/-- Any number of choices of a target, one after the other, leave the graph. -/
theorem Delete.of_foldlM_fromAlias {d d' : Delete} {labels : List String}
    (h : labels.foldlM Delete.fromAlias d = .ok d') (hd : d.target ∈ d.graph.tables) :
    d'.graph = d.graph ∧ d'.target ∈ d.graph.tables ∧
      ∀ label ∈ labels.getLast?, d'.target.alias = label := by
  induction labels generalizing d with
  | nil =>
      obtain rfl := pure_eq_ok.1 h
      exact ⟨rfl, hd, fun _ hlabel => nomatch hlabel⟩
  | cons label labels ih =>
      rw [List.foldlM_cons] at h
      obtain ⟨next, hnext, h⟩ := bind_eq_ok.1 h
      obtain ⟨target, htarget, rfl⟩ := of_fromAlias hnext
      obtain ⟨hfound, halias⟩ := JoinGraph.of_table? htarget
      obtain ⟨hgraph, hmem, hlast⟩ := ih h hfound
      refine ⟨hgraph, hmem, fun last hlabel => ?_⟩
      cases labels with
      | nil =>
          obtain rfl := pure_eq_ok.1 h
          obtain rfl := Option.some.inj hlabel
          exact halias
      | cons second labels => exact hlast last hlabel

namespace JoinGraph

/-- Of an update or a deletion over a graph after any calls, the lines are those
of its dialect, and they include every join and the condition on the rows. -/
theorem mutations_keep_lines {catalog : Catalog} {dialect : Sql.Dialect} {entity label : String}
    {g : JoinGraph} (h : start catalog dialect entity label = .ok g) (calls : List GraphCall) :
    let reached := g.after calls
    reached.dialect = dialect ∧ reached.sql = reached.text ∧
      reached.joined.map GraphTable.alias = g.joinedByAll calls ∧
      reached.whereText?.isSome = g.isRestrictedByAny calls ∧
      (∀ t ∈ reached.tables, t.table.primaryKey ≠ []) ∧
      (∀ model u, Update.ofModel reached model = .ok u → model.entries ≠ [] →
        u.assignments.map (fun a => a.column.property) = model.keys ∧
        u.sql = "\n".intercalate
          (Update.lineTexts reached (Update.setText dialect u.assignments)) ∧
        reached.KeepsLines u.sql) ∧
      ∀ (labels : List String) (d : Delete),
        labels.foldlM Delete.fromAlias (Delete.ofGraph reached) = .ok d →
        d.target ∈ reached.tables ∧ (∀ label ∈ labels.getLast?, d.target.alias = label) ∧
        d.sql = "DELETE " ++ "\n".intercalate (Delete.lineTexts reached d.target) ∧
        reached.KeepsLines d.sql := by
  intro reached
  have hcoherent := (isCoherent_start h).after calls
  have hover := isOver_after h calls
  obtain ⟨hjoined, hwhere⟩ := g.lines_after calls
  obtain ⟨hstart, hstart'⟩ := lines_start h
  rw [hstart, List.map_nil, List.nil_append] at hjoined
  rw [hstart', Option.isSome_none, Bool.false_or] at hwhere
  refine ⟨hover.dialect_eq, reached.sql_eq_text, hjoined, ?_, fun t => hover.primaryKey_ne_nil,
    ?_, ?_⟩
  · rw [whereText?, Option.isSome_map, hwhere]
  · intro model u hu hmodel
    obtain ⟨assignments, after, hassign, rfl⟩ := Update.of_ofModel hu
    obtain ⟨hproperties, hcolumns⟩ := Update.columns_of_assign hassign
    have hassigned : assignments ≠ [] := by
      rintro rfl
      exact hmodel (List.map_eq_nil_iff.1 hproperties.symm)
    have hnamed : ∀ a ∈ assignments, Text.isName a.column.alias = true := fun a ha =>
      hcoherent.isName_of_mem_columns (hcolumns a ha)
    have hsql := Update.sql_eq
      (u := { graph := { reached with parameters := after }, assignments }) hassigned hnamed
      (hcoherent.isName_alias reached.base List.mem_cons_self)
      (hover.primaryKey_ne_nil List.mem_cons_self)
    rw [← hover.dialect_eq]
    exact ⟨hproperties, hsql, hsql ▸ keepsLines_updateTexts reached _⟩
  · intro labels d hd
    obtain ⟨hgraph, htarget, hlast⟩ := Delete.of_foldlM_fromAlias hd List.mem_cons_self
    have hsql := Delete.sql_eq (hcoherent.isName_alias _ htarget) (hover.primaryKey_ne_nil htarget)
    rw [hgraph] at hsql
    refine ⟨htarget, hlast, hsql, ?_⟩
    rw [hsql]
    exact keepsLines_deleteTexts reached d.target

/-- The update of a user and the deletion of phones, over the phones of the user
with one number, reach their rows through the keys of the joined query. -/
theorem mutations_keep_lines_phones :
    let calls : List GraphCall :=
      [.join .leftOuter { entity := "Phone", «alias» := "p", parentProperty := "u.phones" },
        .filter (.obj [("$eq", .obj [("p.no", .num "7")])]) ∅]
    ∃ g u d, start phoneBook .postgres "User" "u" = .ok g ∧
      g.joinedByAll calls = ["p"] ∧ g.isRestrictedByAny calls = true ∧
      Update.ofModel (g.after calls) (Dict.ofList [("u.id", .num "7")]) = .ok u ∧
      ["p"].foldlM Delete.fromAlias (Delete.ofGraph (g.after calls)) = .ok d ∧
      d.sql = "\n".intercalate ["DELETE FROM \"phones\" AS \"p\"",
        "WHERE \"p\".\"no\" IN (SELECT \"p\".\"no\"", "FROM \"users\" AS \"u\"",
        "LEFT OUTER JOIN \"phones\" AS \"p\" ON \"u\".\"user_id\" = \"p\".\"user_id\"",
        "WHERE \"p\".\"no\" = 7)"] ∧
      (g.after calls).KeepsLines u.sql ∧ (g.after calls).KeepsLines d.sql := by
  intro calls
  have hname : checkAlias "u" = .ok () := if_pos (by decide +kernel)
  obtain ⟨g, hg, hcalls, hwhere, hu, hd⟩ :
      ∃ g, start phoneBook .postgres "User" "u" = .ok g ∧
        g.joinedByAll calls = ["p"] ∧ g.isRestrictedByAny calls = true ∧
        (Update.ofModel (g.after calls) (Dict.ofList [("u.id", .num "7")])).map
          Update.requireAffected = .ok true ∧
        (["p"].foldlM Delete.fromAlias (Delete.ofGraph (g.after calls))).map Delete.sql =
          .ok ("\n".intercalate ["DELETE FROM \"phones\" AS \"p\"",
            "WHERE \"p\".\"no\" IN (SELECT \"p\".\"no\"", "FROM \"users\" AS \"u\"",
            "LEFT OUTER JOIN \"phones\" AS \"p\" ON \"u\".\"user_id\" = \"p\".\"user_id\"",
            "WHERE \"p\".\"no\" = 7)"]) := by
    rw [start, hname]
    exact ⟨_, rfl, by decide +kernel⟩
  obtain ⟨u, hu, -⟩ := map_eq_ok.1 hu
  obtain ⟨d, hd, hsql⟩ := map_eq_ok.1 hd
  obtain ⟨-, -, -, -, -, hupdate, hdelete⟩ := mutations_keep_lines hg calls
  exact ⟨g, u, d, hg, hcalls, hwhere, hu, hd, hsql, (hupdate _ u hu (by decide)).2.2,
    (hdelete _ d hd).2.2.2⟩

end JoinGraph

end EntityQuery
