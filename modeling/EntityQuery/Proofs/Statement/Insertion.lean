import EntityQuery.Proofs.Catalog
import EntityQuery.Proofs.Dict
import EntityQuery.Proofs.Engine
import EntityQuery.Proofs.Except
import EntityQuery.Proofs.Parameters.Bindings
import EntityQuery.Proofs.Sql.Rendering

/-!
# Insertions write what a model has

Over a table with distinct properties, an insertion is always made. It writes the columns
whose property the model has, in order of declaration, each by a placeholder named after
its property and bound to the saved value. One call is made with them, or none if there is
no such column. What comes back is the model, with the identifier that the database made in
one entry and no other changed, or the reason why not (`Insert.Returns`).
-/

namespace EntityQuery

theorem Json.isNull_iff {value : Json} : value.isNull = true ↔ value = .null := by
  cases value <;> simp [isNull]

namespace Insert

open EngineM (callsOf)

/-- The columns of a table whose property a model has, be it null. -/
def presentColumns (table : Table) (model : Model) : List Column :=
  table.columns.filter fun c => model.contains c.property

/-- An insertion of columns in SQL. -/
def text (d : Sql.Dialect) (table : Table) (columns : List Column) : String :=
  "\n".intercalate
    ["INSERT INTO " ++ (table.schema.elim "" fun schema => d.quote schema ++ ".") ++
      d.quote table.name ++ " (" ++ ", ".intercalate (columns.map fun c => d.quote c.name) ++ ")",
    "VALUES (" ++ ", ".intercalate (columns.map fun c => ":" ++ c.property) ++ ")"]

/-- What an insertion of a model returns for an answer of the engine: its failure, the
model itself where no identifier was made, and otherwise the model with the identifier as
its only key, or an error if its key is another than one column. -/
inductive Returns (table : Table) (model : Model) :
    Except String (Option Json) → Except QueryError Model → Prop
  | failed (message : String) : Returns table model (.error message) (.error (.engine message))
  | kept {id? : Option Json} (unmade : ∀ id ∈ id?, id = .null) :
      Returns table model (.ok id?) (.ok model)
  | identified {id : Json} {key : Column} {result : Model} (made : id ≠ .null)
      (single : table.primaryKey = [key])
      (set : ∀ property, result.get? property =
        if property = key.property then some id else model.get? property) :
      Returns table model (.ok (some id)) (.ok result)
  | composite {id : Json} (made : id ≠ .null) (several : table.primaryKey.length ≠ 1) :
      Returns table model (.ok (some id)) (.error (.compositeGeneratedKey table.entity))

variable {σ : Type} {model : Model} {parameters : Parameters} {columns : List Column}

/-! ### Columns and values -/

/-- The properties of columns that a model has, with the values that are saved for them. -/
def savedValues (model : Model) (columns : List Column) : List (String × Json) :=
  columns.filterMap fun c => (model.get? c.property).map fun value => (c.property, c.saved value)

theorem mem_savedValues {name : String} {value : Json} :
    (name, value) ∈ savedValues model columns ↔
      ∃ c ∈ columns.filter fun c => model.contains c.property, c.property = name ∧
        ∃ given, model.get? name = some given ∧ value = c.saved given := by
  rw [savedValues, List.mem_filterMap]
  simp only [Option.map_eq_some_iff, Prod.mk.injEq, List.mem_filter]
  constructor
  · rintro ⟨c, hc, given, hgiven, rfl, rfl⟩
    exact ⟨c, ⟨hc, Option.isSome_iff_exists.2 ⟨given, hgiven⟩⟩, rfl, given, hgiven, rfl⟩
  · rintro ⟨c, ⟨hc, -⟩, rfl, given, hgiven, rfl⟩
    exact ⟨c, hc, given, hgiven, rfl, rfl⟩

theorem savedValues_sublist (model : Model) (columns : List Column) :
    ((savedValues model columns).map Prod.fst).Sublist (columns.map Column.property) := by
  induction columns with
  | nil => exact .slnil
  | cons c rest ih =>
      rw [savedValues, List.filterMap_cons]
      cases model.get? c.property with
      | none => exact ih.cons _
      | some value => exact ih.cons_cons _

/-- Where properties are distinct and none of them is bound, each that the model has is
bound, and nothing can be in conflict. -/
theorem bindColumns_of_distinct (distinct : (columns.map Column.property).Nodup)
    (unbound : ∀ c ∈ columns, parameters.get? c.property = none) :
    bindColumns model parameters columns =
      .ok (columns.filter fun c => model.contains c.property,
        { parameters with
          values := parameters.values.insertAll (savedValues model columns) }) := by
  induction columns generalizing parameters with
  | nil => rfl
  | cons c rest ih =>
      obtain ⟨hc, hrest⟩ := List.nodup_cons.1 distinct
      obtain ⟨hunbound, hothers⟩ := List.forall_mem_cons.1 unbound
      rw [bindColumns, savedValues, List.filterMap_cons, List.filter_cons, Dict.contains]
      cases model.get? c.property with
      | none => exact ih hrest hothers
      | some value =>
          dsimp only
          rw [c.save_eq_saved]
          have hstep : parameters.add false c.property (c.saved value) = _ :=
            Parameters.add_of_fresh _ hunbound
          have hnext : ∀ other ∈ rest, ({ parameters with
              values := parameters.values.insert c.property (c.saved value) } :
                Parameters).get? other.property = none := by
            intro other hother
            rw [Parameters.get?_insert, if_neg, hothers other hother]
            exact fun heq => hc (List.mem_map.2 ⟨other, hother, heq⟩)
          exact bind_eq_ok.2 ⟨_, hstep, bind_eq_ok.2 ⟨_, ih hrest hnext, rfl⟩⟩

/-! ### The statement -/

theorem sql_eq_empty {i : Insert} (h : i.columns = []) : i.sql = "" := by
  rw [sql, sqlTokens, if_pos (List.isEmpty_iff.2 h), Sql.render_nil]

theorem sql_eq_text {i : Insert} (h : i.columns ≠ []) :
    i.sql = text i.dialect i.table i.columns := by
  have hinto : "INSERT INTO " =
      Sql.Keyword.insert.text ++ (" " ++ (Sql.Keyword.into.text ++ " ")) := rfl
  have hvalues : "VALUES (" = Sql.Keyword.values.text ++ " (" := rfl
  have hopen (rest : String) : " (" ++ rest = " " ++ ("(" ++ rest) := by
    rw [← String.append_assoc]
    rfl
  rw [sql, sqlTokens, if_neg (mt List.isEmpty_iff.1 h), Sql.render_stack, text, hinto, hvalues]
  simp [Sql.Token.text_table, hopen, Function.comp_def, String.append_assoc]

/-! ### Execution -/

theorem returns_withId (i : Insert) {id : Json} (made : id ≠ .null) :
    Returns i.table i.model (.ok (some id)) (i.withId id) := by
  rw [withId]
  split
  next key hkey =>
    exact .identified made hkey fun property => Dict.get?_insert i.model key.property property id
  next hkeys =>
    refine .composite made fun hlength => ?_
    obtain ⟨key, hkey⟩ := List.length_eq_one_iff.1 hlength
    exact hkeys key hkey

/-- An insertion of no column leaves everything as it was. -/
theorem runFrom_execute_nil {i : Insert} (h : i.columns = []) (engine : Engine σ) (state : σ) :
    (i.execute engine).runFrom state = (.ok i.model, state) := by
  rw [execute, h]
  rfl

/-- To make use of an answer asks nothing more of the engine. -/
theorem returns_answer (i : Insert) (id? : Option Json) (state : σ) :
    let work : EngineM σ Model :=
      match id? with
      | none => pure i.model
      | some id => if id.isNull then pure i.model else liftM (i.withId id)
    ∃ outcome, work.runFrom state = (outcome, state) ∧
      Returns i.table i.model (.ok id?) outcome := by
  cases id? with
  | none => exact ⟨_, rfl, .kept nofun⟩
  | some id =>
      dsimp only
      split
      next hnull =>
        refine ⟨_, rfl, .kept ?_⟩
        rintro _ ⟨⟩
        exact Json.isNull_iff.1 hnull
      next hmade =>
        exact ⟨_, EngineM.runFrom_liftM _ state, returns_withId i (mt Json.isNull_iff.2 hmade)⟩

theorem returns_execute {i : Insert} (h : i.columns ≠ []) (engine : Engine σ) (state : σ) :
    let answered := ((engine.insert i.sql i.parameters.values).run state).run
    ∃ outcome, (i.execute engine).runFrom state = (outcome, answered.2) ∧
      Returns i.table i.model answered.1 outcome := by
  dsimp only
  rw [execute, if_neg (mt List.isEmpty_iff.1 h), EngineM.runFrom_bind, EngineM.runFrom_ofCall]
  rcases ((engine.insert i.sql i.parameters.values).run state).run with ⟨message | id?, next⟩
  · exact ⟨_, rfl, .failed message⟩
  · exact returns_answer i id? next

/-- An insertion writes the columns that its model has, and returns the model with nothing
else changed than the identifier that was made for it. -/
theorem insert_writes_present_columns {table : Table}
    (distinct : (table.columns.map Column.property).Nodup) (dialect : Sql.Dialect)
    (model : Model) :
    let columns := presentColumns table model
    ∃ i, ofModel table dialect model = .ok i ∧
      (columns = [] → i.sql = "" ∧ ∀ {σ : Type} (engine : Engine σ) (state : σ),
        callsOf (i.execute engine.recorded) state = [] ∧
          (i.execute engine).runFrom state = (.ok model, state)) ∧
      (columns ≠ [] → i.sql = text dialect table columns ∧
        (∀ name value, i.parameters.get? name = some value ↔
          ∃ c ∈ columns, c.property = name ∧ ∃ given, model.get? name = some given ∧
            value = c.saved given) ∧
        ∀ {σ : Type} (engine : Engine σ) (state : σ),
          let answered := ((engine.insert i.sql i.parameters.values).run state).run
          callsOf (i.execute engine.recorded) state = [⟨.insert, i.sql, i.parameters.values⟩] ∧
            ∃ outcome, (i.execute engine).runFrom state = (outcome, answered.2) ∧
              Returns table model answered.1 outcome) := by
  intro columns
  let i : Insert := {
    table, dialect, model, columns
    parameters := { Parameters.empty with
      values := Dict.ofList (savedValues model table.columns) } }
  have hmade : ofModel table dialect model = .ok i :=
    bind_eq_ok.2 ⟨_, bindColumns_of_distinct distinct fun _ _ => rfl, rfl⟩
  refine ⟨i, hmade, fun hnil => ⟨?_, fun engine state => ⟨?_, ?_⟩⟩, fun hnonempty => ⟨?_, ?_, ?_⟩⟩
  · exact sql_eq_empty hnil
  · rw [callsOf_execute, if_pos (List.isEmpty_iff.2 hnil)]
  · exact runFrom_execute_nil hnil engine state
  · exact sql_eq_text hnonempty
  · intro name value
    exact (Dict.get?_ofList_eq_some_iff (distinct.sublist (savedValues_sublist model _))).trans
      mem_savedValues
  · intro σ engine state
    refine ⟨?_, returns_execute hnonempty engine state⟩
    rw [callsOf_execute, if_neg (mt List.isEmpty_iff.1 hnonempty)]

/-- Members with numbers that the database makes. -/
def memberTable : Table where
  entity := "Member"
  name := "members"
  columns := [{ name := "member_no", property := "no", isPrimary := true },
    { name := "is_on", property := "on", converter := some .bit },
    { name := "full_name", property := "name" }]

/-- A member without a name, and with a property that has no column. -/
theorem insert_writes_present_columns_member :
    let model : Model := Dict.ofList [("name", .null), ("nick", .str "Al"), ("on", .bool true)]
    (memberTable.columns.map Column.property).Nodup ∧
      ∃ i, ofModel memberTable .postgres model = .ok i ∧
        i.sql = "\n".intercalate ["INSERT INTO \"members\" (\"is_on\", \"full_name\")",
          "VALUES (:on, :name)"] ∧
        i.parameters.get? "on" = some (.num "1") ∧ i.parameters.get? "nick" = none ∧
        ((i.execute (Script.engine { insertIds := [.num "7"] })).runFrom {}).1 =
          .ok (model.insert "no" (.num "7")) := by
  intro model
  have hdistinct : (memberTable.columns.map Column.property).Nodup := by decide
  obtain ⟨i, hi, -, hpresent⟩ := insert_writes_present_columns hdistinct .postgres model
  have hnonempty : presentColumns memberTable model ≠ [] := List.ne_nil_of_length_pos (by decide)
  obtain ⟨hsql, hvalues, hexecute⟩ := hpresent hnonempty
  obtain ⟨-, outcome, hrun, hreturns⟩ := hexecute (Script.engine { insertIds := [.num "7"] }) {}
  refine ⟨hdistinct, i, hi, ?_, ?_, ?_, ?_⟩
  · rw [hsql]
    decide +kernel
  · refine (hvalues "on" _).2 ⟨{ name := "is_on", property := "on", converter := some .bit },
      List.mem_filter.2 ⟨List.mem_cons_of_mem _ List.mem_cons_self, by decide⟩, rfl, .bool true,
      by decide, rfl⟩
  · refine Option.eq_none_iff_forall_ne_some.2 fun value hvalue => ?_
    obtain ⟨c, hc, hproperty, -⟩ := (hvalues "nick" value).1 hvalue
    have hmem : "nick" ∈ memberTable.columns.map Column.property :=
      List.mem_map.2 ⟨c, (List.mem_filter.1 hc).1, hproperty⟩
    revert hmem
    decide
  · rw [hrun]
    change Returns memberTable model (.ok (some (.num "7"))) outcome at hreturns
    cases hreturns with
    | kept unmade => cases unmade _ rfl
    | identified _ single set =>
        have hkey := congrArg (List.map Column.property) single
        rw [List.map_singleton] at hkey
        refine congrArg Except.ok (Dict.ext_get? fun property => ?_)
        rw [set, Dict.get?_insert, ← List.head_eq_of_cons_eq hkey]
    | composite _ several => exact absurd rfl several

end Insert

end EntityQuery
