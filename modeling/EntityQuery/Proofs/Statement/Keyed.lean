import EntityQuery.Proofs.Condition.Naming
import EntityQuery.Proofs.JoinGraph.GivenNames
import EntityQuery.Proofs.Statement.KeyConditions
import EntityQuery.Proofs.Statement.Mutations

/-!
# Statements on the row of a model

The update and the deletion of a model succeed exactly if it has its key, and
then reach the one row that the key names: the condition on the key is the last
line of either, with a placeholder for each key column (`keyed_statements_reach_row`).
The update assigns the other properties that the model has.

Names that the key uses up are made up before those of the assignments, so no
placeholder is used twice.
-/

namespace EntityQuery

open JoinGraph (start checkAlias)

namespace Keyed

variable {catalog : Catalog} {dialect : Sql.Dialect} {entity label : String} {table : Table}
  {model : Model}

/-! ### Names -/

theorem isLegible_bindingsOf (named : Text.isName label = true) {keys : List Column}
    (plain : ∀ key ∈ keys, Json.isPlain key.property = true) {next : Nat} {b : Binding}
    (hb : b ∈ bindingsOf label model next keys) : b.IsLegible := by
  induction keys generalizing next with
  | nil => cases hb
  | cons key rest ih =>
      obtain ⟨hkey, hrest⟩ := List.forall_mem_cons.1 plain
      rcases List.mem_cons.1 hb with rfl | hmem
      · exact ⟨Operand.isGenuine_column named _, Operand.isPlain_column named hkey,
          Parameters.isName_mintedName _ _⟩
      · exact ih hrest hmem

/-! ### The graph of the row -/

/-- The graph of one table before anything is asked of it. -/
def tableGraph (catalog : Catalog) (dialect : Sql.Dialect) (table : Table) (label : String) :
    JoinGraph where
  catalog := catalog
  dialect := dialect
  base := { table, «alias» := label }
  joined := []
  columns := table.columns.map (⟨label, ·⟩)
  lookup := JoinGraph.extendLookup ∅ (table.columns.map (⟨label, ·⟩))
  mappings := []
  parameters := .empty
  filtered := false

theorem start_eq (named : Text.isName label = true)
    (registered : catalog.table entity = .ok table) :
    start catalog dialect entity label = .ok (tableGraph catalog dialect table label) := by
  have halias : checkAlias label = .ok () := if_pos named
  rw [start, halias, registered]
  rfl

/-- Where properties are distinct, each of them stands for its column. -/
theorem get?_lookup (distinct : (table.columns.map Column.property).Nodup) {c : Column}
    (hc : c ∈ table.columns) :
    (tableGraph catalog dialect table label).lookup.get? (label ++ "." ++ c.property) =
      some (label ++ "." ++ c.name) :=
  GraphTable.get?_lookup (t := { table, «alias» := label }) distinct (List.mem_map_of_mem hc)

/-- The equality of a key column and its placeholder in SQL. -/
def equalityText (d : Sql.Dialect) (label : String) (key : Column) (placeholder : String) :
    String :=
  d.quote label ++ "." ++ d.quote key.name ++ " = :" ++ placeholder

/-- The condition on a key in SQL, with a placeholder for each key column. -/
def rowCondition (d : Sql.Dialect) (label : String) (keys : List Column)
    (placeholders : List String) : String :=
  conjunctionText (List.zipWith (equalityText d label) keys placeholders)

theorem texts_bindingsOf (d : Sql.Dialect) (named : Text.isName label = true)
    (lookup : String → Option String) {keys : List Column}
    (known : ∀ key ∈ keys,
      lookup (label ++ "." ++ key.property) = some (label ++ "." ++ key.name)) (next : Nat) :
    ((bindingsOf label model next keys).map (Binding.renamed lookup)).map (Binding.text d) =
      List.zipWith (equalityText d label) keys
        ((bindingsOf label model next keys).map Binding.placeholder) := by
  induction keys generalizing next with
  | nil => rfl
  | cons key rest ih =>
      obtain ⟨hkey, hrest⟩ := List.forall_mem_cons.1 known
      rw [bindingsOf, List.map_cons, List.map_cons, List.map_cons, ih hrest, List.zipWith_cons_cons,
        Binding.renamed, Binding.text, hkey, Option.getD_some,
        Sql.quoteColumn_append (dot_notMem_of_isName named), equalityText]

/-- The key values of a model, bound to made-up names. -/
def keyBindings (label : String) (table : Table) (model : Model) : List Binding :=
  bindingsOf label model 0 table.primaryKey

/-- The graph of the row that a model names. -/
def rowGraph (catalog : Catalog) (dialect : Sql.Dialect) (table : Table) (label : String)
    (model : Model) : JoinGraph :=
  let g := tableGraph catalog dialect table label
  let bindings := keyBindings label table model
  { g with
    base := { g.base with
      condition := some (conditionOf bindings).toJson
      sql := some (rowCondition dialect label table.primaryKey
        (bindings.map Binding.placeholder)) }
    parameters := bound { g.parameters with next := table.primaryKey.length } bindings
    filtered := true }

theorem bindKeys_tableGraph
    (complete : ∀ key ∈ table.primaryKey, model.hasValue key.property = true) :
    let g := tableGraph catalog dialect table label
    bindKeys g.base.alias model g.parameters g.base.table.primaryKey =
      (.ok (keyBindings label table model),
        { g.parameters with next := table.primaryKey.length }) := by
  refine (bindKeys_eq complete).trans ?_
  rw [tableGraph, Parameters.empty, Nat.zero_add]
  rfl

theorem withFilter_of_restriction {g : JoinGraph} {condition : Json} {values : Dict Json}
    {restriction : Restriction} (first : g.filtered = false)
    (given : Condition.isBlank condition = false)
    (h : Restriction.ofCondition g.dialect g.lookup g.parameters condition values =
      .ok restriction) :
    g.withFilter condition values =
      .ok { g with
        base := { g.base with condition := some condition, sql := restriction.sql }
        parameters := restriction.parameters
        filtered := true } := by
  rw [JoinGraph.withFilter_eq_map first given, h]
  rfl

theorem properties_bindingsOf (label : String) (model : Model) (next : Nat) (keys : List Column) :
    (bindingsOf label model next keys).map Binding.property =
      keys.map fun key => label ++ "." ++ key.property := by
  induction keys generalizing next with
  | nil => rfl
  | cons key rest ih => rw [bindingsOf, List.map_cons, ih, List.map_cons]

theorem ofCondition_keyBindings (named : Text.isName label = true)
    (keyed : table.primaryKey ≠ [])
    (distinct : (table.columns.map Column.property).Nodup)
    (plain : ∀ c ∈ table.columns, Json.isPlain c.property = true) {parameters : Parameters}
    (unbound : parameters.values = ∅) :
    let g := tableGraph catalog dialect table label
    let bindings := keyBindings label table model
    Restriction.ofCondition dialect g.lookup parameters (conditionOf bindings).toJson
        (valuesOf bindings) =
      .ok ⟨some (rowCondition dialect label table.primaryKey (bindings.map Binding.placeholder)),
        bound parameters bindings⟩ := by
  intro g bindings
  have hcolumns : ∀ key ∈ table.primaryKey, key ∈ table.columns := fun key hkey =>
    (List.mem_filter.1 hkey).1
  have hlookup : ∀ key ∈ table.primaryKey,
      g.lookup.get? (label ++ "." ++ key.property) = some (label ++ "." ++ key.name) :=
    fun key hkey => get?_lookup distinct (hcolumns key hkey)
  have hproperties : bindings.map Binding.property =
      table.primaryKey.map fun key => label ++ "." ++ key.property :=
    properties_bindingsOf label model 0 table.primaryKey
  have htexts : (bindings.map (Binding.renamed g.lookup.get?)).map (Binding.text dialect) =
      List.zipWith (equalityText dialect label) table.primaryKey
        (bindings.map Binding.placeholder) :=
    texts_bindingsOf dialect named g.lookup.get? hlookup 0
  rw [rowCondition, ← htexts]
  apply ofCondition_conditionOf
  · intro hnil
    have hlength := congrArg List.length hproperties
    rw [show bindings = [] from hnil, List.length_map, List.length_map] at hlength
    exact keyed (List.eq_nil_of_length_eq_zero hlength.symm)
  · exact fun b hb => isLegible_bindingsOf named (fun key hkey => plain key (hcolumns key hkey)) hb
  · intro b hb
    have hmem : b.property ∈ bindings.map Binding.property := List.mem_map_of_mem hb
    rw [hproperties] at hmem
    obtain ⟨key, hkey, hproperty⟩ := List.mem_map.1 hmem
    rw [Dict.contains, ← hproperty, hlookup key hkey]
    rfl
  · intro name _
    rw [Parameters.get?, unbound]
    rfl

theorem graph_of_start {g : JoinGraph} (h : start catalog dialect entity («alias» entity) = .ok g) :
    graph catalog dialect entity model =
      (keyCondition g.base.table g.base.alias model g.parameters).1 >>= fun found =>
        JoinGraph.withFilter
          { g with parameters := (keyCondition g.base.table g.base.alias model g.parameters).2 }
          found.1 found.2 := by
  rw [graph_eq_bind, h]
  rfl

/-- The values of made-up names are gone through in any order: nothing is bound yet, so none of
them is refused. -/
theorem withFilter_of_order {g : JoinGraph} (h : start catalog dialect entity label = .ok g)
    (condition : Json) {values values' : Values} (same : values.bindings = values'.bindings) :
    let parameters := (keyCondition g.base.table g.base.alias model g.parameters).2
    { g with parameters }.withFilter condition values =
      { g with parameters }.withFilter condition values' := by
  intro parameters
  have hunbound : ∀ name, parameters.get? name = none := by
    intro name
    rw [Parameters.get?, values_keyCondition, JoinGraph.parameters_start h]
    rfl
  have hextend : parameters.extend values = parameters.extend values' := by
    rw [Parameters.extend_of_fresh fun name _ => hunbound name,
      Parameters.extend_of_fresh fun name _ => hunbound name, same]
  dsimp only [JoinGraph.withFilter, Restriction.ofCondition]
  rw [hextend]

/-- The graph of a row is the same, in whatever order the key values are gone through. -/
theorem graph_eq_of_order (order : Dict Json → Values)
    (same : ∀ values, (order values).bindings = values) (catalog : Catalog)
    (dialect : Sql.Dialect) (entity : String) (model : Model) :
    graph catalog dialect entity model =
      start catalog dialect entity («alias» entity) >>= fun g =>
        (keyCondition g.base.table g.base.alias model g.parameters).1 >>= fun found =>
          JoinGraph.withFilter
            { g with parameters := (keyCondition g.base.table g.base.alias model g.parameters).2 }
            found.1 (order found.2) := by
  cases hstart : start catalog dialect entity («alias» entity) with
  | error error =>
      rw [graph_eq_bind, hstart]
      rfl
  | ok g =>
      rw [graph_of_start hstart]
      show _ = (keyCondition g.base.table g.base.alias model g.parameters).1 >>= _
      exact bind_congr fun found => withFilter_of_order hstart found.1 (same found.2).symm

/-- The graph of a row, where the model has its key. -/
theorem graph_eq (named : entity ≠ "") (registered : catalog.table entity = .ok table)
    (distinct : (table.columns.map Column.property).Nodup)
    (plain : ∀ c ∈ table.columns, Json.isPlain c.property = true)
    (complete : ∀ key ∈ table.primaryKey, model.hasValue key.property = true) :
    graph catalog dialect entity model =
      .ok (rowGraph catalog dialect table («alias» entity) model) := by
  have hname : Text.isName («alias» entity) = true := Text.isName_toName named
  have hkeyed := Catalog.primaryKey_ne_nil (Catalog.of_table registered).1
  have hrestriction : Restriction.ofCondition dialect
      (tableGraph catalog dialect table («alias» entity)).lookup ⟨∅, table.primaryKey.length⟩
      (conditionOf (keyBindings («alias» entity) table model)).toJson
      (valuesOf (keyBindings («alias» entity) table model)) = .ok _ :=
    ofCondition_keyBindings hname hkeyed distinct plain rfl
  rw [graph_of_start (start_eq hname registered), keyCondition, bindKeys_tableGraph complete]
  exact withFilter_of_restriction
    (g := { tableGraph catalog dialect table («alias» entity) with
      parameters := ⟨∅, table.primaryKey.length⟩ })
    rfl (Condition.isBlank_toJson _) hrestriction

/-- A key value that the model lacks is reported, the first one of several. -/
theorem graph_eq_error (named : entity ≠ "") (registered : catalog.table entity = .ok table)
    {key : Column}
    (missing : table.primaryKey.find? (fun key => !model.hasValue key.property) = some key) :
    graph catalog dialect entity model = .error (.missingModelKey key.property) := by
  have hname : Text.isName («alias» entity) = true := Text.isName_toName named
  have hbind : (bindKeys («alias» entity) model .empty table.primaryKey).1 =
    .error (.missingModelKey key.property) := bindKeys_eq_error missing
  rw [graph_of_start (start_eq hname registered), keyCondition]
  cases hkeys : bindKeys («alias» entity) model .empty table.primaryKey with
  | mk outcome after =>
      rw [hkeys] at hbind
      obtain rfl : outcome = _ := hbind
      rw [show bindKeys (tableGraph catalog dialect table («alias» entity)).base.alias model
        (tableGraph catalog dialect table («alias» entity)).parameters
        (tableGraph catalog dialect table («alias» entity)).base.table.primaryKey = _ from hkeys]
      rfl

/-! ### What is bound -/

section Bound

variable {next : Nat} {keys : List Column} {parameters : Parameters}

theorem forall₂_bindingsOf (complete : ∀ key ∈ keys, model.hasValue key.property = true)
    (hbound : ∀ b ∈ bindingsOf label model next keys,
      parameters.get? b.placeholder = some b.value) :
    List.Forall₂ (fun key placeholder => ∃ value, model.get? key.property = some value ∧
      value ≠ .null ∧ parameters.get? placeholder = some (key.saved value))
      keys ((bindingsOf label model next keys).map Binding.placeholder) := by
  induction keys generalizing next with
  | nil => exact .nil
  | cons key rest ih =>
      obtain ⟨hkey, hrest⟩ := List.forall_mem_cons.1 complete
      obtain ⟨hfirst, hothers⟩ := List.forall_mem_cons.1 hbound
      obtain ⟨value, hvalue, hne⟩ := Model.hasValue_iff.1 hkey
      rw [hvalue, Option.getD_some] at hfirst
      exact .cons ⟨value, hvalue, hne, hfirst⟩ (ih hrest hothers)

end Bound

theorem nodup_placeholders (label : String) (table : Table) (model : Model) :
    ((keyBindings label table model).map Binding.placeholder).Nodup := by
  rw [keyBindings, placeholders_bindingsOf]
  exact Parameters.nodup_mintedNames _ _

theorem get?_parameters_rowGraph (name : String) :
    (rowGraph catalog dialect table label model).parameters.get? name =
      Dict.lookup name ((keyBindings label table model).map fun b => (b.placeholder, b.value)) :=
  (get?_bound (nodup_placeholders label table model) name).trans Option.or_none

theorem get?_placeholder {b : Binding} (hb : b ∈ keyBindings label table model) :
    (rowGraph catalog dialect table label model).parameters.get? b.placeholder = some b.value := by
  rw [get?_parameters_rowGraph]
  apply Dict.lookup_of_mem
  · rw [List.map_map]
    exact nodup_placeholders label table model
  · exact List.mem_map.2 ⟨b, hb, rfl⟩

/-- The names made up for the key are used up, and no others are. -/
theorem isFresh_rowGraph :
    (rowGraph catalog dialect table label model).parameters.IsFresh := by
  intro base n hn
  have hnext : table.primaryKey.length ≤ n := hn
  rw [get?_parameters_rowGraph, Dict.lookup_eq_none_iff, List.map_map]
  change Parameters.mintedName base n ∉ (keyBindings label table model).map Binding.placeholder
  rw [keyBindings, placeholders_bindingsOf]
  intro hmem
  obtain ⟨base', n', -, hhigh, heq⟩ := Parameters.exists_of_mem_mintedNames hmem
  have hnumber := Parameters.mintedName_inj heq
  rw [List.length_map] at hhigh
  omega

/-! ### What is changed -/

/-- The columns that an update of a row assigns: those of the properties that
the model has, null among their values, except for the key. -/
def changed (table : Table) (model : Model) : List Column :=
  table.columns.filter fun c => !c.isPrimary && (model.get? c.property).isSome

theorem mem_changed {c : Column} : c ∈ changed table model ↔
    c ∈ table.columns ∧ c.isPrimary = false ∧ ∃ value, model.get? c.property = some value := by
  rw [changed, List.mem_filter, Bool.and_eq_true, Bool.not_eq_true', Option.isSome_iff_exists]

theorem changes_eq :
    changes (rowGraph catalog dialect table label model) model =
      Dict.ofList ((changed table model).map fun c =>
        (label ++ "." ++ c.property, (model.get? c.property).getD .null)) := by
  have hpairs : ∀ columns : List Column,
      (columns.map (GraphColumn.mk label)).filterMap (fun c =>
        if c.column.isPrimary then none
        else (model.get? c.column.property).map fun value => (c.property, value)) =
      (columns.filter fun c => !c.isPrimary && (model.get? c.property).isSome).map fun c =>
        (label ++ "." ++ c.property, (model.get? c.property).getD .null) := by
    intro columns
    induction columns with
    | nil => rfl
    | cons c columns ih =>
        rw [List.map_cons, List.filterMap_cons, ih, List.filter_cons]
        cases c.isPrimary with
        | true => rfl
        | false => cases h : model.get? c.property <;> simp [h, GraphColumn.property]
  exact congrArg Dict.ofList (hpairs table.columns)

section Update

variable {u : Update}

theorem nodup_changed (label : String) (model : Model)
    (distinct : (table.columns.map Column.property).Nodup) :
    (((changed table model).map fun c =>
      (label ++ "." ++ c.property, (model.get? c.property).getD .null)).map Prod.fst).Nodup := by
  have hsublist : ((changed table model).map fun c => label ++ "." ++ c.property).Sublist
      (table.columns.map fun c => label ++ "." ++ c.property) := List.filter_sublist.map _
  have hdistinct := GraphColumn.nodup_properties label distinct
  rw [List.map_map] at hdistinct ⊢
  exact hsublist.nodup hdistinct

theorem mem_entries_changes (distinct : (table.columns.map Column.property).Nodup)
    {e : String × Json} :
    e ∈ (changes (rowGraph catalog dialect table label model) model).entries ↔
      ∃ c ∈ changed table model, ∃ value, model.get? c.property = some value ∧
        e = (label ++ "." ++ c.property, value) := by
  rw [changes_eq, Dict.mem_entries_ofList (nodup_changed label model distinct), List.mem_map]
  refine exists_congr fun c => and_congr_right fun hc => ?_
  obtain ⟨-, -, value, hvalue⟩ := mem_changed.1 hc
  simp [hvalue, eq_comm]

theorem targetOf_rowGraph (distinct : (table.columns.map Column.property).Nodup) {c : Column}
    (hc : c ∈ changed table model) :
    Update.targetOf (rowGraph catalog dialect table label model) (label ++ "." ++ c.property) =
      .ok ⟨label, c⟩ := by
  have hcolumn : (rowGraph catalog dialect table label model).column (label ++ "." ++ c.property) =
      .ok ⟨label, c⟩ :=
    JoinGraph.column_of_mem (c := ⟨label, c⟩) (GraphColumn.nodup_properties label distinct)
      (List.mem_map_of_mem (mem_changed.1 hc).1)
  exact Update.targetOf_of_base hcolumn rfl

/-- An update of a row that names its key succeeds. -/
theorem exists_ofModel (distinct : (table.columns.map Column.property).Nodup) :
    let g := rowGraph catalog dialect table label model
    ∃ u, Update.ofModel g (changes g model) = .ok u := by
  intro g
  have htargets : ∀ e ∈ (changes g model).entries, ∃ c, Update.targetOf g e.1 = .ok c := by
    intro e he
    obtain ⟨c, hc, value, -, rfl⟩ := (mem_entries_changes distinct).1 he
    exact ⟨_, targetOf_rowGraph distinct hc⟩
  obtain ⟨assignments, after, hassign⟩ := Update.exists_assign isFresh_rowGraph htargets
  exact ⟨_, bind_eq_ok.2 ⟨_, hassign, rfl⟩⟩

section Assigned

variable {assignments : List Assignment} {after : Parameters}
  (distinct : (table.columns.map Column.property).Nodup)
  (h : let g := rowGraph catalog dialect table label model
    Update.assign g g.parameters (changes g model).entries = .ok (assignments, after))

include distinct h

/-- What is assigned is a changed column, to its saved value. -/
theorem exists_changed_of_mem {a : Assignment} (ha : a ∈ assignments) :
    ∃ c ∈ changed table model, a.column = ⟨label, c⟩ ∧
      ∃ value, model.get? c.property = some value ∧
        after.get? a.placeholder = some (a.column.column.saved value) := by
  obtain ⟨-, hassigned⟩ := Update.forall₂_of_assign h
  obtain ⟨e, he, htarget, hbound⟩ := exists_of_mem_forall₂ hassigned ha
  obtain ⟨c, hc, value, hvalue, rfl⟩ := (mem_entries_changes distinct).1 he
  rw [targetOf_rowGraph distinct hc] at htarget
  exact ⟨c, hc, (Except.ok.inj htarget).symm, value, hvalue, hbound⟩

/-- A changed column is assigned. -/
theorem exists_assignment_of_changed {c : Column} (hc : c ∈ changed table model) :
    ∃ a ∈ assignments, a.column = ⟨label, c⟩ := by
  obtain ⟨-, hassigned⟩ := Update.forall₂_of_assign h
  obtain ⟨-, -, value, hvalue⟩ := mem_changed.1 hc
  have he : (label ++ "." ++ c.property, value) ∈
      (changes (rowGraph catalog dialect table label model) model).entries :=
    (mem_entries_changes distinct).2 ⟨c, hc, value, hvalue, rfl⟩
  obtain ⟨a, ha, htarget, -⟩ := exists_of_mem_forall₂ hassigned.flip he
  rw [targetOf_rowGraph distinct hc] at htarget
  exact ⟨a, ha, (Except.ok.inj htarget).symm⟩

theorem perm_changed :
    (assignments.map Assignment.column).Perm ((changed table model).map (⟨label, ·⟩)) := by
  have hassigned_distinct : (assignments.map Assignment.column).Nodup := by
    have hkeys := Dict.nodup_keys (changes (rowGraph catalog dialect table label model) model)
    rw [← (Update.columns_of_assign h).1] at hkeys
    apply List.Nodup.of_map GraphColumn.property
    rwa [List.map_map]
  have hchanged_distinct : ((changed table model).map (GraphColumn.mk label)).Nodup := by
    have hkeys := nodup_changed label model distinct
    apply List.Nodup.of_map GraphColumn.property
    rwa [List.map_map] at hkeys ⊢
  rw [List.perm_ext_iff_of_nodup hassigned_distinct hchanged_distinct]
  intro column
  constructor
  · intro hcolumn
    obtain ⟨a, ha, rfl⟩ := List.mem_map.1 hcolumn
    obtain ⟨c, hc, hcolumn, -⟩ := exists_changed_of_mem distinct h ha
    exact List.mem_map.2 ⟨c, hc, hcolumn.symm⟩
  · intro hcolumn
    obtain ⟨c, hc, rfl⟩ := List.mem_map.1 hcolumn
    obtain ⟨a, ha, hcolumn⟩ := exists_assignment_of_changed distinct h hc
    exact List.mem_map.2 ⟨a, ha, hcolumn⟩

end Assigned

/-- The columns of the changed properties are assigned, each to its saved value. -/
theorem of_ofModel (distinct : (table.columns.map Column.property).Nodup)
    (h : let g := rowGraph catalog dialect table label model
      Update.ofModel g (changes g model) = .ok u) :
    (u.assignments.map Assignment.column).Perm ((changed table model).map (⟨label, ·⟩)) ∧
      ∀ a ∈ u.assignments, ∃ value, model.get? a.column.column.property = some value ∧
        u.graph.parameters.get? a.placeholder = some (a.column.column.saved value) := by
  obtain ⟨assignments, after, hassign, rfl⟩ := Update.of_ofModel h
  refine ⟨perm_changed distinct hassign, fun a ha => ?_⟩
  obtain ⟨c, -, hcolumn, value, hvalue, hbound⟩ := exists_changed_of_mem distinct hassign ha
  rw [hcolumn] at hbound ⊢
  exact ⟨value, hvalue, hbound⟩

end Update

/-! ### The statements -/

/-- A graph reaches the row that a model names: it has the table alone, and its
condition equates each key column with a placeholder, bound to the saved value
of the key. -/
structure IsRowOf (g : JoinGraph) (table : Table) (label : String) (model : Model)
    (placeholders : List String) : Prop where
  table_eq : g.base.table = table
  alias_eq : g.base.alias = label
  joined_eq : g.joined = []
  whereText?_eq :
    g.whereText? = some ("WHERE " ++ rowCondition g.dialect label table.primaryKey placeholders)
  nodup : placeholders.Nodup
  bound : List.Forall₂ (fun key placeholder => ∃ value, model.get? key.property = some value ∧
    value ≠ .null ∧ g.parameters.get? placeholder = some (key.saved value))
    table.primaryKey placeholders

theorem isRowOf_rowGraph (complete : ∀ key ∈ table.primaryKey, model.hasValue key.property = true) :
    IsRowOf (rowGraph catalog dialect table label model) table label model
      ((keyBindings label table model).map Binding.placeholder) where
  table_eq := rfl
  alias_eq := rfl
  joined_eq := rfl
  whereText?_eq := rfl
  nodup := nodup_placeholders label table model
  bound := forall₂_bindingsOf complete fun _ hb => get?_placeholder hb

/-- More parameters do not change which row is reached. -/
theorem IsRowOf.withParameters {g : JoinGraph} {placeholders : List String}
    (h : IsRowOf g table label model placeholders) {parameters : Parameters}
    (kept : g.parameters.KeepsTo parameters) :
    IsRowOf { g with parameters := parameters } table label model placeholders :=
  { h with
    bound := h.bound.imp fun _ _ ⟨value, hvalue, hne, hbound⟩ =>
      ⟨value, hvalue, hne, kept _ _ hbound⟩ }

theorem intercalate_concat (separator first : String) (rest : List String) (text : String) :
    separator.intercalate (first :: rest ++ [text]) =
      separator.intercalate (first :: rest) ++ (separator ++ text) := by
  induction rest generalizing first with
  | nil =>
      rw [List.cons_append, List.nil_append, String.intercalate_cons_cons,
        String.intercalate_singleton, String.intercalate_singleton, String.append_assoc]
  | cons next rest ih =>
      rw [List.cons_append, List.cons_append, String.intercalate_cons_cons, ← List.cons_append, ih,
        String.intercalate_cons_cons, String.append_assoc, String.append_assoc, String.append_assoc]

/-- A text has a line as the last one of several. -/
def EndsInLine (text line : String) : Prop := ∃ before, text = before ++ ("\n" ++ line)

theorem endsInLine_intercalate (first : String) (rest : List String) (line : String) :
    EndsInLine ("\n".intercalate (first :: rest ++ [line])) line :=
  ⟨_, intercalate_concat "\n" first rest line⟩

theorem EndsInLine.append {text line : String} (h : EndsInLine text line) (more : String) :
    EndsInLine (more ++ text) line := by
  obtain ⟨before, rfl⟩ := h
  exact ⟨more ++ before, String.append_assoc.symm⟩

theorem EndsInLine.intercalate {text line : String} (h : EndsInLine text line) (first : String)
    (rest : List String) : EndsInLine ("\n".intercalate (first :: rest ++ [text])) line := by
  rw [intercalate_concat]
  exact (h.append "\n").append _

section

variable {g : JoinGraph} {placeholders : List String}
  (h : IsRowOf g table label model placeholders)

include h

theorem IsRowOf.endsInLine_text : EndsInLine g.text
    ("WHERE " ++ rowCondition g.dialect label table.primaryKey placeholders) := by
  rw [JoinGraph.text, JoinGraph.joinTexts, h.joined_eq, h.whereText?_eq]
  exact endsInLine_intercalate g.fromText [] _

/-- The condition is the last line of a deletion of the row. -/
theorem IsRowOf.endsInLine_deleteTexts :
    EndsInLine ("DELETE " ++ "\n".intercalate (Delete.lineTexts g g.base))
      ("WHERE " ++ rowCondition g.dialect label table.primaryKey placeholders) := by
  apply EndsInLine.append
  unfold Delete.lineTexts
  rw [if_pos h.joined_eq]
  split
  iterate 2 exact h.endsInLine_text.intercalate (g.dialect.quote g.base.alias) []
  all_goals
    rw [String.intercalate_singleton]
    exact h.endsInLine_text

/-- The condition is the last line of an update of the row. -/
theorem IsRowOf.endsInLine_updateTexts (setText : String) :
    EndsInLine ("\n".intercalate (Update.lineTexts g setText))
      ("WHERE " ++ rowCondition g.dialect label table.primaryKey placeholders) := by
  unfold Update.lineTexts
  rw [if_pos h.joined_eq, JoinGraph.joinTexts, h.joined_eq, h.whereText?_eq]
  split
  next => exact endsInLine_intercalate _ [setText] _
  next => exact h.endsInLine_text.intercalate _ [setText]
  all_goals exact endsInLine_intercalate _ [setText] _

end

theorem complete_or_missing (model : Model) (keys : List Column) :
    (∀ key ∈ keys, model.hasValue key.property = true) ∨
      ∃ key, keys.find? (fun key => !model.hasValue key.property) = some key := by
  cases hfound : keys.find? fun key => !model.hasValue key.property with
  | none => exact .inl fun key hkey => by simpa using List.find?_eq_none.1 hfound key hkey
  | some key => exact .inr ⟨key, rfl⟩

theorem not_complete_of_missing {keys : List Column} {key : Column}
    (missing : keys.find? (fun key => !model.hasValue key.property) = some key) :
    ¬∀ key ∈ keys, model.hasValue key.property = true := by
  intro complete
  have hnone := List.find?_some missing
  rw [complete key (List.mem_of_find?_eq_some missing)] at hnone
  cases hnone

section

variable (named : entity ≠ "") (registered : catalog.table entity = .ok table)

include named registered

theorem delete_eq_error {key : Column}
    (missing : table.primaryKey.find? (fun key => !model.hasValue key.property) = some key) :
    delete catalog dialect entity model = .error (.missingModelKey key.property) := by
  rw [delete, graph_eq_error named registered missing]
  rfl

theorem update_eq_error {key : Column}
    (missing : table.primaryKey.find? (fun key => !model.hasValue key.property) = some key) :
    update catalog dialect entity model = .error (.missingModelKey key.property) := by
  rw [update, graph_eq_error named registered missing]
  rfl

variable (distinct : (table.columns.map Column.property).Nodup)
  (plain : ∀ c ∈ table.columns, Json.isPlain c.property = true)

include distinct plain

theorem delete_eq (complete : ∀ key ∈ table.primaryKey, model.hasValue key.property = true) :
    delete catalog dialect entity model =
      .ok (.ofGraph (rowGraph catalog dialect table («alias» entity) model)) := by
  rw [delete, graph_eq named registered distinct plain complete]
  rfl

theorem update_eq (complete : ∀ key ∈ table.primaryKey, model.hasValue key.property = true) :
    let g := rowGraph catalog dialect table («alias» entity) model
    update catalog dialect entity model = Update.ofModel g (changes g model) := by
  rw [update, graph_eq named registered distinct plain complete]
  rfl

end

/-- What a deletion does to the row that a model names. -/
structure DeletesRow (d : Delete) (dialect : Sql.Dialect) (table : Table) (label : String)
    (model : Model) (placeholders : List String) : Prop where
  isRowOf : IsRowOf d.graph table label model placeholders
  sql_eq : d.sql = "DELETE " ++ "\n".intercalate (Delete.lineTexts d.graph d.graph.base)
  endsInLine :
    EndsInLine d.sql ("WHERE " ++ rowCondition dialect label table.primaryKey placeholders)

/-- What an update does to the row that a model names. -/
structure UpdatesRow (u : Update) (dialect : Sql.Dialect) (table : Table) (label : String)
    (model : Model) (placeholders : List String) : Prop where
  isRowOf : IsRowOf u.graph table label model placeholders
  nodup_placeholders : (placeholders ++ u.assignments.map Assignment.placeholder).Nodup
  columns_perm : (u.assignments.map Assignment.column).Perm
    ((changed table model).map (⟨label, ·⟩))
  bound : ∀ a ∈ u.assignments, ∃ value, model.get? a.column.column.property = some value ∧
    u.graph.parameters.get? a.placeholder = some (a.column.column.saved value)
  sql_eq_empty_iff : u.sql = "" ↔ changed table model = []
  sql_eq : changed table model ≠ [] →
    u.sql = "\n".intercalate (Update.lineTexts u.graph (Update.setText dialect u.assignments)) ∧
    EndsInLine u.sql ("WHERE " ++ rowCondition dialect label table.primaryKey placeholders)

theorem deletesRow (hlabel : Text.isName label = true) (keyed : table.primaryKey ≠ [])
    (complete : ∀ key ∈ table.primaryKey, model.hasValue key.property = true) :
    DeletesRow (.ofGraph (rowGraph catalog dialect table label model)) dialect table label model
      ((keyBindings label table model).map Binding.placeholder) := by
  have hrow : IsRowOf (rowGraph catalog dialect table label model) table label model _ :=
    isRowOf_rowGraph complete
  have hsql := Delete.sql_eq (e := .ofGraph (rowGraph catalog dialect table label model)) hlabel
    keyed
  exact ⟨hrow, hsql, hsql ▸ hrow.endsInLine_deleteTexts⟩

/-- The placeholders of the key and of the assignments are made up in one row. -/
theorem nodup_assigned {g : JoinGraph} {entries : List (String × Json)}
    {assignments : List Assignment} {after : Parameters}
    (h : Update.assign g (rowGraph catalog dialect table label model).parameters entries =
      .ok (assignments, after)) :
    ((keyBindings label table model).map Binding.placeholder ++
      assignments.map Assignment.placeholder).Nodup := by
  have hnext : (rowGraph catalog dialect table label model).parameters.next =
      0 + (table.primaryKey.map fun key => label ++ "." ++ key.property).length := by
    rw [List.length_map, Nat.zero_add]
    rfl
  rw [(Update.placeholders_of_assign h).1, keyBindings, placeholders_bindingsOf, hnext,
    ← Parameters.mintedNames_append]
  exact Parameters.nodup_mintedNames _ _

theorem EndsInLine.ne_empty {text line : String} (h : EndsInLine text line) : text ≠ "" := by
  obtain ⟨before, rfl⟩ := h
  intro hempty
  have hlist := congrArg String.toList hempty
  simp at hlist

theorem updatesRow (hlabel : Text.isName label = true) (keyed : table.primaryKey ≠ [])
    (distinct : (table.columns.map Column.property).Nodup)
    (complete : ∀ key ∈ table.primaryKey, model.hasValue key.property = true) {u : Update}
    (h : let g := rowGraph catalog dialect table label model
      Update.ofModel g (changes g model) = .ok u) :
    UpdatesRow u dialect table label model
      ((keyBindings label table model).map Binding.placeholder) := by
  obtain ⟨hperm, hbound⟩ := of_ofModel distinct h
  obtain ⟨assignments, after, hassign, rfl⟩ := Update.of_ofModel h
  obtain ⟨hkept, -⟩ := Update.forall₂_of_assign hassign
  have hrow : IsRowOf { rowGraph catalog dialect table label model with parameters := after }
      table label model _ := (isRowOf_rowGraph complete).withParameters hkept
  have hlength : assignments.length = (changed table model).length := by
    simpa using hperm.length_eq
  have hnamed : ∀ a ∈ assignments, Text.isName a.column.alias = true := by
    intro a ha
    obtain ⟨c, -, hcolumn⟩ := List.mem_map.1 (hperm.mem_iff.1 (List.mem_map_of_mem ha))
    rwa [← hcolumn]
  have hsql : changed table model ≠ [] → Update.sql _ = _ := fun hchanged =>
    Update.sql_eq (u := { graph := { rowGraph catalog dialect table label model with
      parameters := after }, assignments }) (List.ne_nil_of_length_pos
        (hlength ▸ List.length_pos_of_ne_nil hchanged)) hnamed hlabel keyed
  refine ⟨hrow, nodup_assigned hassign, hperm, hbound, ?_, ?_⟩
  · constructor
    · intro hempty
      by_contra hchanged
      have hends := hrow.endsInLine_updateTexts (Update.setText dialect assignments)
      exact hends.ne_empty ((hsql hchanged).symm.trans hempty)
    · intro hchanged
      rw [hchanged, List.length_nil, List.length_eq_zero_iff] at hlength
      subst hlength
      rfl
  · intro hchanged
    refine ⟨hsql hchanged, ?_⟩
    rw [hsql hchanged]
    exact hrow.endsInLine_updateTexts _

/-- The update and the deletion of a model reach the row that its key names, or
fail for the first key value that the model lacks. -/
theorem keyed_statements_reach_row (named : entity ≠ "")
    (registered : catalog.table entity = .ok table)
    (distinct : (table.columns.map Column.property).Nodup)
    (plain : ∀ c ∈ table.columns, Json.isPlain c.property = true) (model : Model) :
    ((∃ d, delete catalog dialect entity model = .ok d) ↔
      ∀ key ∈ table.primaryKey, model.hasValue key.property = true) ∧
    ((∃ u, update catalog dialect entity model = .ok u) ↔
      ∀ key ∈ table.primaryKey, model.hasValue key.property = true) ∧
    (∀ key, table.primaryKey.find? (fun key => !model.hasValue key.property) = some key →
      delete catalog dialect entity model = .error (.missingModelKey key.property) ∧
      update catalog dialect entity model = .error (.missingModelKey key.property)) ∧
    (∀ d, delete catalog dialect entity model = .ok d → ∃ placeholders,
      DeletesRow d dialect table («alias» entity) model placeholders) ∧
    ∀ u, update catalog dialect entity model = .ok u → ∃ placeholders,
      UpdatesRow u dialect table («alias» entity) model placeholders := by
  have hlabel : Text.isName («alias» entity) = true := Text.isName_toName named
  have hkeyed := Catalog.primaryKey_ne_nil (Catalog.of_table registered).1
  rcases complete_or_missing model table.primaryKey with complete | ⟨key, missing⟩
  · have hdelete : delete catalog dialect entity model = _ :=
      delete_eq named registered distinct plain complete
    have hupdate : update catalog dialect entity model = _ :=
      update_eq named registered distinct plain complete
    refine ⟨iff_of_true ⟨_, hdelete⟩ complete,
      iff_of_true (hupdate ▸ exists_ofModel distinct) complete, ?_, ?_, ?_⟩
    · exact fun key missing => absurd complete (not_complete_of_missing missing)
    · intro d hd
      obtain rfl := Except.ok.inj (hdelete.symm.trans hd)
      exact ⟨_, deletesRow hlabel hkeyed complete⟩
    · intro u hu
      exact ⟨_, updatesRow hlabel hkeyed distinct complete (hupdate.symm.trans hu)⟩
  · have hdelete : delete catalog dialect entity model = _ :=
      delete_eq_error named registered missing
    have hupdate : update catalog dialect entity model = _ :=
      update_eq_error named registered missing
    have hincomplete := not_complete_of_missing missing
    rw [hdelete, hupdate]
    refine ⟨iff_of_false (fun ⟨_, h⟩ => nomatch h) hincomplete,
      iff_of_false (fun ⟨_, h⟩ => nomatch h) hincomplete, ?_, fun _ h => (nomatch h),
      fun _ h => (nomatch h)⟩
    intro other hother
    obtain rfl := Option.some.inj (missing.symm.trans hother)
    exact ⟨rfl, rfl⟩

/-- Pairs, by a key of which one column holds letters, each with a flag that is stored as a bit. -/
def pairBook : Catalog where
  tables := [
    { entity := "a/b", name := "pairs",
      columns := [{ name := "a", property := "a", isPrimary := true, converter := some .yesNo },
        { name := "is_on", property := "on", converter := some .bit },
        { name := "b_no", property := "b", isPrimary := true },
        { name := "tag", property := "tag" }] }]
  relationships := []
  sound := by decide

/-- The update and the deletion of a pair, by a key of two columns. -/
theorem keyed_statements_reach_row_pairBook :
    let model : Model := Dict.ofList
      [("b", .num "7"), ("a", .bool false), ("tag", .null), ("on", .bool true)]
    ∃ table u d, "a/b" ≠ "" ∧ pairBook.table "a/b" = .ok table ∧
      (table.columns.map Column.property).Nodup ∧
      (∀ c ∈ table.columns, Json.isPlain c.property = true) ∧
      update pairBook .postgres "a/b" model = .ok u ∧
      delete pairBook .postgres "a/b" model = .ok d ∧
      u.sql = "\n".intercalate ["UPDATE \"pairs\" AS \"a_b\"",
        "SET \"is_on\" = :a_b_on_2, \"tag\" = :a_b_tag_3",
        "WHERE (\"a_b\".\"a\" = :a_b_a_0 AND \"a_b\".\"b_no\" = :a_b_b_1)"] ∧
      u.graph.parameters.values.entries = [("a_b_a_0", .str "N"), ("a_b_b_1", .num "7"),
        ("a_b_on_2", .num "1"), ("a_b_tag_3", .null)] ∧
      (∃ placeholders, UpdatesRow u .postgres table "a_b" model placeholders) ∧
      d.graph.parameters.values.entries = [("a_b_a_0", .str "N"), ("a_b_b_1", .num "7")] ∧
      ∃ placeholders, DeletesRow d .postgres table "a_b" model placeholders := by
  intro model
  obtain ⟨table, hne, htable, hdistinct, hplain⟩ : ∃ table, "a/b" ≠ "" ∧
      pairBook.table "a/b" = .ok table ∧ (table.columns.map Column.property).Nodup ∧
      ∀ c ∈ table.columns, Json.isPlain c.property = true :=
    ⟨_, by decide, rfl, by decide, by decide⟩
  obtain ⟨u, hu, hwritten⟩ := map_eq_ok.1 <|
    show (update pairBook .postgres "a/b" model).map
        (fun u => (u.sql, u.graph.parameters.values.entries)) =
      .ok ("\n".intercalate ["UPDATE \"pairs\" AS \"a_b\"",
          "SET \"is_on\" = :a_b_on_2, \"tag\" = :a_b_tag_3",
          "WHERE (\"a_b\".\"a\" = :a_b_a_0 AND \"a_b\".\"b_no\" = :a_b_b_1)"],
        [("a_b_a_0", .str "N"), ("a_b_b_1", .num "7"), ("a_b_on_2", .num "1"),
          ("a_b_tag_3", .null)]) by decide +kernel
  obtain ⟨hsql, hvalues⟩ := Prod.mk.inj hwritten
  obtain ⟨d, hd, hkey⟩ := map_eq_ok.1 <|
    show (delete pairBook .postgres "a/b" model).map (·.graph.parameters.values.entries) =
      .ok [("a_b_a_0", .str "N"), ("a_b_b_1", .num "7")] by decide +kernel
  obtain ⟨-, -, -, hdeletes, hupdates⟩ :=
    @keyed_statements_reach_row pairBook .postgres "a/b" table hne htable hdistinct hplain
      model
  have hlabel : «alias» "a/b" = "a_b" := by decide +kernel
  exact ⟨table, u, d, hne, htable, hdistinct, hplain, hu, hd, hsql, hvalues,
    hlabel ▸ hupdates u hu, hkey, hlabel ▸ hdeletes d hd⟩

end Keyed

end EntityQuery
