import EntityQuery.Proofs.Engine
import EntityQuery.Proofs.Statement.Mutations

/-!
# Updates assign their model

An update of a graph whose tables have distinct properties assigns each property of
its model once, in ascending order: to the column of the property, by a placeholder
that is bound to the saved value (`AssignsModel`). What the graph has bound before
keeps its value.

It fails at the first property that has no column to assign, unless a made-up name
before it is bound to another value (`update_assigns_model`). Entries are assigned in
turn (`assign_append`), so those before that property either fail by themselves or
leave it to the property.
-/

namespace EntityQuery.Update

open JoinGraph (start checkAlias)

/-- The one column that an update of a graph may assign for a property. -/
structure IsTarget (g : JoinGraph) (property : String) (c : GraphColumn) : Prop where
  mem : c ∈ g.columns
  property_eq : c.property = property
  unique : ∀ other ∈ g.columns, other.property = property → other = c
  assignable : c.alias = g.base.alias ∨ g.dialect = .mysql

/-- Why a property of a graph has no column that an update may assign. -/
inductive Misses (g : JoinGraph) (property : String) : QueryError → Prop
  | notAvailable (h : ∀ c ∈ g.columns, c.property ≠ property) :
      Misses g property (.propertyNotAvailable property)
  | joined {c : GraphColumn} (mem : c ∈ g.columns) (property_eq : c.property = property)
      (other : c.alias ≠ g.base.alias) (dialect : g.dialect ≠ .mysql) :
      Misses g property (.joinedUpdateTarget g.dialect property)

/-- An update assigns a model to the columns of a graph. -/
structure AssignsModel (u : Update) (g : JoinGraph) (model : Model) : Prop where
  ascending : (model.entries.map Prod.fst).Pairwise (· < ·)
  /-- Each entry has one assignment, to its column and of its saved value. -/
  assigned : List.Forall₂ (fun entry a => IsTarget g entry.1 a.column ∧
    u.graph.parameters.get? a.placeholder = some (a.column.column.saved entry.2))
    model.entries u.assignments
  keepsTo : g.parameters.KeepsTo u.graph.parameters
  /-- The assignments make up the line that sets values. -/
  sql_eq : model.entries ≠ [] → u.sql = "\n".intercalate
    (lineTexts g ("SET " ++ ", ".intercalate (u.assignments.map (assignmentText g.dialect))))
  /-- The engine is called with the bound values. -/
  calls_eq : model.entries ≠ [] → ∀ {σ : Type} (engine : Engine σ) (state : σ),
    EngineM.callsOf (u.execute engine.recorded) state =
      [⟨.update, u.sql, u.graph.parameters.values⟩]

variable {g : JoinGraph} {property : String} {c : GraphColumn} {e : QueryError}
  {parameters after : Parameters} {entries more : List (String × Json)}
  {assignments : List Assignment}

/-! ### Targets -/

theorem assignsJoined_eq_true_iff {d : Sql.Dialect} :
    d.mutationStyle.assignsJoined = true ↔ d = .mysql := by
  cases d <;> decide

theorem isTarget_of_targetOf (distinct : (g.columns.map GraphColumn.property).Nodup)
    (h : targetOf g property = .ok c) : IsTarget g property c := by
  obtain ⟨hcolumn, hassignable⟩ := of_targetOf h
  obtain ⟨hmem, rfl⟩ := JoinGraph.of_column hcolumn
  exact ⟨hmem, rfl, fun other hother heq => List.inj_on_of_nodup_map distinct hother hmem heq,
    hassignable.imp_right assignsJoined_eq_true_iff.1⟩

theorem targetOf_eq_error_iff (distinct : (g.columns.map GraphColumn.property).Nodup) :
    targetOf g property = .error e ↔ Misses g property e := by
  constructor
  · intro h
    rcases of_targetOf_error h with hcolumn | ⟨c, hcolumn, hother, hstyle, rfl⟩
    · rw [JoinGraph.column] at hcolumn
      split at hcolumn
      next => cases hcolumn
      next hnone =>
        obtain rfl := Except.error.inj hcolumn
        exact .notAvailable fun c hc => by simpa using List.find?_eq_none.1 hnone c hc
    · obtain ⟨hmem, hproperty⟩ := JoinGraph.of_column hcolumn
      refine .joined hmem hproperty hother fun hmysql => ?_
      rw [assignsJoined_eq_true_iff.2 hmysql] at hstyle
      cases hstyle
  · rintro (hnone | ⟨hmem, rfl, hother, hdialect⟩)
    · have hfound : g.column? property = none :=
        List.find?_eq_none.2 fun c hc => by simpa using hnone c hc
      rw [targetOf, JoinGraph.column, hfound]
      rfl
    · have hjoined : g.dialect.mutationStyle.assignsJoined = false :=
        Bool.not_eq_true _ ▸ mt assignsJoined_eq_true_iff.1 hdialect
      rw [targetOf, JoinGraph.column_of_mem distinct hmem]
      exact if_pos ⟨hother, by rw [hjoined]; rfl⟩

theorem exists_targetOf_of_not_misses (distinct : (g.columns.map GraphColumn.property).Nodup)
    (h : ∀ e, ¬Misses g property e) : ∃ c, targetOf g property = .ok c := by
  cases htarget : targetOf g property with
  | ok c => exact ⟨c, rfl⟩
  | error e => exact absurd ((targetOf_eq_error_iff distinct).1 htarget) (h e)

/-! ### Entries in turn -/

variable {entry : String × Json}

/-- Entries after others are assigned with the parameters of those. -/
theorem assign_append : assign g parameters (entries ++ more) = do
    let (assignments, bound) ← assign g parameters entries
    let (others, after) ← assign g bound more
    return (assignments ++ others, after) := by
  induction entries generalizing parameters with
  | nil =>
      rw [List.nil_append, assign]
      exact (bind_pure _).symm
  | cons entry rest ih =>
      rw [List.cons_append, assign, assign]
      simp only [ih, bind_assoc, pure_bind, List.cons_append]

/-- An update that succeeds assigns its model. -/
theorem assignsModel_of_ofModel {catalog : Catalog} {dialect : Sql.Dialect} {model : Model}
    {u : Update} (coherent : g.IsCoherent) (sited : g.IsOver catalog dialect)
    (distinct : (g.columns.map GraphColumn.property).Nodup) (h : ofModel g model = .ok u) :
    AssignsModel u g model := by
  obtain ⟨assignments, after, hassign, rfl⟩ := of_ofModel h
  obtain ⟨hkept, hassigned⟩ := forall₂_of_assign hassign
  have hnonempty : model.entries ≠ [] → assignments ≠ [] := by
    rintro hmodel rfl
    exact hmodel (List.forall₂_nil_right_iff.1 hassigned)
  refine ⟨List.pairwise_map.2 model.ascending,
    hassigned.imp fun _ _ ha => ⟨isTarget_of_targetOf distinct ha.1, ha.2⟩, hkept,
    fun hmodel => ?_, fun hmodel σ engine state => ?_⟩
  · exact sql_eq (u := { graph := { g with parameters := after }, assignments })
      (hnonempty hmodel)
      (fun a ha => coherent.isName_of_mem_columns ((columns_of_assign hassign).2 a ha))
      (coherent.isName_alias g.base List.mem_cons_self)
      (sited.primaryKey_ne_nil List.mem_cons_self)
  · rw [callsOf_execute, if_neg]
    exact fun hempty => hnonempty hmodel (List.isEmpty_iff.1 hempty)

/-- An update of a graph after any calls, over tables with distinct properties,
assigns exactly its model.

If it succeeds, each entry is assigned to the column of its property, in ascending
order, and bound to the saved value. Otherwise the first property that has no
column to assign is reported, unless a name that is made up before it is in conflict. -/
theorem update_assigns_model {catalog : Catalog} {dialect : Sql.Dialect} {entity label : String}
    (h : start catalog dialect entity label = .ok g) (calls : List GraphCall)
    (distinct : ∀ t ∈ (g.after calls).tables, (t.table.columns.map Column.property).Nodup)
    (model : Model) :
    let reached := g.after calls
    let next := reached.parameters.next
    reached.dialect = dialect ∧
      (∀ u, ofModel reached model = .ok u → AssignsModel u reached model) ∧
      (∀ earlier entry later e, model.entries = earlier ++ entry :: later →
        Misses reached entry.1 e → (∀ other ∈ earlier, ∀ e, ¬Misses reached other.1 e) →
        IsConflictFree reached reached.parameters earlier ∧ ofModel reached model = .error e ∨
        ∃ before other after, earlier = before ++ other :: after ∧
          IsConflictFree reached reached.parameters before ∧
          Conflicts reached reached.parameters (next + before.length) other ∧
          ofModel reached model = .error (.parameterConflict
            (Parameters.mintedName other.1 (next + before.length)))) ∧
      ((∀ entry ∈ model.entries, ∀ e, ¬Misses reached entry.1 e) →
        IsConflictFree reached reached.parameters model.entries →
        ∃ u, ofModel reached model = .ok u) := by
  intro reached next
  have hcoherent := (JoinGraph.isCoherent_start h).after calls
  have hover := JoinGraph.isOver_after h calls
  have hcolumns := hcoherent.nodup_properties distinct
  refine ⟨hover.dialect_eq, fun u hu => assignsModel_of_ofModel hcoherent hover hcolumns hu,
    fun earlier entry later e hentries hmisses hearlier => ?_, fun htargets hfree => ?_⟩
  · have htargets : ∀ other ∈ earlier, ∃ c, targetOf reached other.1 = .ok c :=
      fun other hother => exists_targetOf_of_not_misses hcolumns (hearlier other hother)
    rw [ofModel, hentries, assign_append]
    rcases assign_cases reached.parameters htargets with ⟨hfree, assignments, bound, hassign⟩ |
      ⟨before, other, after, hsplit, hfree, hconflict, herror⟩
    · have hfails : assign reached bound (entry :: later) = .error e :=
        bind_eq_error.2 (.inl ((targetOf_eq_error_iff hcolumns).2 hmisses))
      refine .inl ⟨hfree, bind_eq_error.2 (.inl ?_)⟩
      exact bind_eq_error.2 (.inr ⟨(assignments, bound), hassign, bind_eq_error.2 (.inl hfails)⟩)
    · refine .inr ⟨before, other, after, hsplit, hfree, hconflict, ?_⟩
      rw [herror]
      rfl
  · rcases assign_cases reached.parameters fun entry hentry =>
        exists_targetOf_of_not_misses hcolumns (htargets entry hentry) with
      ⟨-, assignments, after, hassign⟩ | ⟨before, other, after, hsplit, -, hconflict, -⟩
    · exact ⟨_, bind_eq_ok.2 ⟨(assignments, after), hassign, rfl⟩⟩
    · refine absurd hconflict (hfree (other, next + before.length) ?_)
      rw [hsplit, List.zipIdx_append, List.zipIdx_cons]
      exact List.mem_append_right _ List.mem_cons_self

/-- Users and their phones, of which a letter in the database says whether they are listed. -/
def listedBook : Catalog where
  tables := [
    { entity := "User", name := "users",
      columns := [{ name := "user_id", property := "id", isPrimary := true }] },
    { entity := "Phone", name := "phones",
      columns := [{ name := "no", property := "no", isPrimary := true },
        { name := "user_id", property := "owner" },
        { name := "is_listed", property := "listed", converter := some .yesNo }] }]
  relationships := [
    { owner := "User", target := "Phone", property := "phones", cardinality := .oneToMany,
      keys := [["id", "owner"]] }]
  sound := by decide

/-- A phone and its user are assigned together, and nobody has a name. -/
theorem update_assigns_model_phones :
    let calls : List GraphCall :=
      [.join .inner { entity := "Phone", «alias» := "p", parentProperty := "u.phones" }]
    let model : Model :=
      Dict.ofList [("u.id", .num "7"), ("p.no", .str "1"), ("p.listed", .bool true)]
    ∃ g u, start listedBook .mysql "User" "u" = .ok g ∧
      ofModel (g.after calls) model = .ok u ∧ AssignsModel u (g.after calls) model ∧
      u.sql = "\n".intercalate ["UPDATE `users` AS `u`",
        "INNER JOIN `phones` AS `p` ON `u`.`user_id` = `p`.`user_id`",
        "SET `p`.`is_listed` = :p_listed_0, `p`.`no` = :p_no_1, `u`.`user_id` = :u_id_2"] ∧
      u.graph.parameters.values.entries =
        [("p_listed_0", .str "Y"), ("p_no_1", .str "1"), ("u_id_2", .num "7")] ∧
      ofModel (g.after calls) (Dict.ofList [("u.name", .str "Joe")]) =
        .error (.propertyNotAvailable "u.name") := by
  intro calls model
  have hname : checkAlias "u" = .ok () := if_pos (by decide +kernel)
  obtain ⟨g, hg, hproperties, hcolumns, hupdate⟩ :
      ∃ g, start listedBook .mysql "User" "u" = .ok g ∧
        ((g.after calls).tables.map fun t => t.table.columns.map Column.property) =
          [["id"], ["no", "owner", "listed"]] ∧
        (g.after calls).columns.map GraphColumn.property =
          ["u.id", "p.no", "p.owner", "p.listed"] ∧
        (ofModel (g.after calls) model).map (fun u => (u.sql, u.graph.parameters.values.entries)) =
          .ok ("\n".intercalate ["UPDATE `users` AS `u`",
              "INNER JOIN `phones` AS `p` ON `u`.`user_id` = `p`.`user_id`",
              "SET `p`.`is_listed` = :p_listed_0, `p`.`no` = :p_no_1, `u`.`user_id` = :u_id_2"],
            [("p_listed_0", .str "Y"), ("p_no_1", .str "1"), ("u_id_2", .num "7")]) := by
    rw [start, hname]
    exact ⟨_, rfl, by decide +kernel⟩
  obtain ⟨u, hu, hwritten⟩ := map_eq_ok.1 hupdate
  obtain ⟨hsql, hvalues⟩ := Prod.mk.inj hwritten
  have hdistinct : ∀ t ∈ (g.after calls).tables, (t.table.columns.map Column.property).Nodup := by
    intro t ht
    have hall : ∀ properties ∈ [["id"], ["no", "owner", "listed"]], properties.Nodup := by decide
    exact hall _ (hproperties ▸ List.mem_map.2 ⟨t, ht, rfl⟩)
  refine ⟨g, u, hg, hu, (update_assigns_model hg calls hdistinct model).2.1 u hu, hsql,
    hvalues, ?_⟩
  have hmisses : Misses (g.after calls) "u.name" (.propertyNotAvailable "u.name") := by
    refine .notAvailable fun c hc heq => ?_
    have hmem : "u.name" ∈ ["u.id", "p.no", "p.owner", "p.listed"] :=
      hcolumns ▸ List.mem_map.2 ⟨c, hc, heq⟩
    revert hmem
    decide
  obtain ⟨-, -, hfails, -⟩ := update_assigns_model hg calls hdistinct
    (Dict.ofList [("u.name", .str "Joe")])
  rcases hfails [] ("u.name", .str "Joe") [] _ rfl hmisses nofun with
    ⟨-, herror⟩ | ⟨before, other, after, hsplit, -⟩
  · exact herror
  · simp at hsplit

end EntityQuery.Update
