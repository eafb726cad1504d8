import EntityQuery.Proofs.Values.Graph
import EntityQuery.Statement.Count
import EntityQuery.Statement.Insert
import EntityQuery.Statement.Keyed
import EntityQuery.Statement.Select

/-!
# Values in statements

Selections, counts and deletions take no values of their own. Updates and
insertions bind the values of a model to names that its keys alone decide, and
so do the conditions that pick the row of a model, though they look at whether
a value is null.
-/

namespace EntityQuery

variable {g h : JoinGraph}

/-! ### Selections and counts -/

namespace Select

/-- The same selection, with other values under the same names. -/
inductive SameButValues (s : Select) : Select → Prop
  | of (g : JoinGraph) (h : s.graph.SameButValues g) : SameButValues s { s with graph := g }

variable {s t s' t' : Select}

theorem nestTables_parameters (parameters : Parameters) (label : String) (shape : Shape)
    (tables : List GraphTable) :
    nestTables { s with graph := { s.graph with parameters } } label shape tables =
      nestTables s label shape tables := by
  induction tables generalizing label shape with
  | nil => rfl
  | cons t later ih =>
      rw [nestTables, nestTables]
      simp only [ih]
      rfl

theorem SameButValues.sql_eq (same : s.SameButValues t) : s.sql = t.sql := by
  obtain ⟨_, _, _⟩ := same
  rfl

theorem SameButValues.names (same : s.SameButValues t) :
    s.graph.parameters.SameNames t.graph.parameters := by
  obtain ⟨_, same⟩ := same
  exact same.names

theorem SameButValues.shape_eq (same : s.SameButValues t) : s.shape = t.shape := by
  obtain ⟨_, parameters, _⟩ := same
  rw [shape, shape]
  simp only [nestTables_parameters]
  rfl

theorem eq_of_select {properties : List String} (h : s.select properties = .ok s') :
    s' = { s with selected := some properties } := by
  unfold select at h
  dsimp only at h
  split at h
  next => cases h
  next =>
    obtain ⟨_, _, h⟩ := bind_eq_ok.1 h
    split at h
    next =>
      obtain ⟨_, _, h⟩ := bind_eq_ok.1 h
      exact (pure_eq_ok.1 h).symm
    next => exact (pure_eq_ok.1 h).symm

theorem SameButValues.select {properties : List String} (same : s.SameButValues t)
    (hs : s.select properties = .ok s') (ht : t.select properties = .ok t') :
    s'.SameButValues t' := by
  obtain ⟨_, same⟩ := same
  rw [eq_of_select hs, eq_of_select ht]
  exact .of _ same

theorem SameButValues.orderBy {items : List (String × SortDirection)} (same : s.SameButValues t)
    (hs : s.orderBy items = .ok s') (ht : t.orderBy items = .ok t') : s'.SameButValues t' := by
  obtain ⟨_, parameters, names⟩ := same
  obtain ⟨order, horder, hs⟩ := bind_eq_ok.1 hs
  obtain ⟨order', horder', ht⟩ := bind_eq_ok.1 ht
  obtain rfl : order = order' := Except.ok.inj (horder.symm.trans horder')
  obtain rfl := pure_eq_ok.1 hs
  obtain rfl := pure_eq_ok.1 ht
  exact .of _ (.of parameters names)

theorem SameButValues.take {count : UInt64} {offset : Option UInt64} (same : s.SameButValues t)
    (hs : s.take count offset = .ok s') (ht : t.take count offset = .ok t') :
    s'.SameButValues t' := by
  obtain ⟨_, same⟩ := same
  unfold Select.take at hs ht
  split at hs
  next => cases hs
  next hlimit =>
    rw [if_neg hlimit] at ht
    cases hs
    cases ht
    exact .of _ same

end Select

namespace Count

/-- The same count, with other values under the same names. -/
inductive SameButValues (c : Count) : Count → Prop
  | of (g : JoinGraph) (h : c.graph.SameButValues g) : SameButValues c { c with graph := g }

variable {c d c' d' : Count}

theorem SameButValues.sql_eq (same : c.SameButValues d) : c.sql = d.sql := by
  obtain ⟨_, _, _⟩ := same
  rfl

theorem SameButValues.names (same : c.SameButValues d) :
    c.graph.parameters.SameNames d.graph.parameters := by
  obtain ⟨_, same⟩ := same
  exact same.names

theorem SameButValues.count {property : Option String} (same : c.SameButValues d)
    (hc : c.count property = .ok c') (hd : d.count property = .ok d') : c'.SameButValues d' := by
  obtain ⟨_, parameters, names⟩ := same
  unfold Count.count at hc hd
  split at hc
  next => cases hc
  next hcounted =>
    rw [if_neg hcounted] at hd
    cases property with
    | none =>
        cases hc
        cases hd
        exact .of _ (.of parameters names)
    | some property =>
        obtain ⟨column, hcolumn, hc⟩ := bind_eq_ok.1 hc
        obtain ⟨column', hcolumn', hd⟩ := bind_eq_ok.1 hd
        obtain rfl : column = column' := Except.ok.inj (hcolumn.symm.trans hcolumn')
        obtain rfl := pure_eq_ok.1 hc
        obtain rfl := pure_eq_ok.1 hd
        exact .of _ (.of parameters names)

theorem SameButValues.orderBy {items : List (String × SortDirection)} (same : c.SameButValues d)
    (hc : c.orderBy items = .ok c') (hd : d.orderBy items = .ok d') : c'.SameButValues d' := by
  obtain ⟨_, parameters, names⟩ := same
  obtain ⟨order, horder, hc⟩ := bind_eq_ok.1 hc
  obtain ⟨order', horder', hd⟩ := bind_eq_ok.1 hd
  obtain rfl : order = order' := Except.ok.inj (horder.symm.trans horder')
  obtain rfl := pure_eq_ok.1 hc
  obtain rfl := pure_eq_ok.1 hd
  exact .of _ (.of parameters names)

end Count

/-! ### Updates and deletions -/

namespace Update

/-- The same update, with other values under the same names. -/
inductive SameButValues (u : Update) : Update → Prop
  | of (g : JoinGraph) (h : u.graph.SameButValues g) : SameButValues u { u with graph := g }

variable {u v : Update}

theorem SameButValues.sql_eq (same : u.SameButValues v) : u.sql = v.sql := by
  obtain ⟨_, _, _⟩ := same
  rfl

theorem SameButValues.names (same : u.SameButValues v) :
    u.graph.parameters.SameNames v.graph.parameters := by
  obtain ⟨_, same⟩ := same
  exact same.names

theorem targetOf_eq (same : g.SameButValues h) (property : String) :
    targetOf g property = targetOf h property := by
  obtain ⟨_, _⟩ := same
  rfl

theorem SameButValues.assignments_eq (same : u.SameButValues v) :
    u.assignments = v.assignments := by
  obtain ⟨_, _⟩ := same
  rfl

/-- A property has no target if it has no column, or one of a joined table where only
the base table is updated. -/
theorem of_targetOf_error {property : String} {e : QueryError}
    (h : targetOf g property = .error e) :
    g.column property = .error e ∨
      ∃ c, g.column property = .ok c ∧ c.alias ≠ g.base.alias ∧
        g.dialect.mutationStyle.assignsJoined = false ∧
        e = .joinedUpdateTarget g.dialect property := by
  rcases bind_eq_error.1 h with hcolumn | ⟨c, hcolumn, h⟩
  · exact .inl hcolumn
  · dsimp only at h
    split at h
    next hother =>
      obtain ⟨halias, hstyle⟩ := hother
      exact .inr ⟨c, hcolumn, halias, by simpa using hstyle, (Except.error.inj h).symm⟩
    next => cases h

/-- A value is bound to a name made up for its property, before those after it. -/
theorem of_assign_cons {parameters after : Parameters} {property : String} {value : Json}
    {rest : List (String × Json)} {assignments : List Assignment}
    (hassign : assign g parameters ((property, value) :: rest) = .ok (assignments, after)) :
    ∃ column bound others, targetOf g property = .ok column ∧
      (parameters.mint property).2.add false (parameters.mint property).1
        (column.column.saved value) = .ok bound ∧
      assign g bound rest = .ok (others, after) ∧
      assignments = ⟨column, (parameters.mint property).1⟩ :: others := by
  obtain ⟨column, hcolumn, hassign⟩ := bind_eq_ok.1 hassign
  obtain ⟨bound, hadd, hassign⟩ := bind_eq_ok.1 hassign
  obtain ⟨⟨others, last⟩, hothers, hassign⟩ := bind_eq_ok.1 hassign
  cases hassign
  rw [column.column.save_eq_saved] at hadd
  exact ⟨column, bound, others, hcolumn, hadd, hothers, rfl⟩

/-- What is assigned, and to which names, is decided by the properties. -/
theorem sameNames_of_assign {parameters other after after' : Parameters}
    {entries entries' : List (String × Json)} {assignments assignments' : List Assignment}
    (same : g.SameButValues h) (names : parameters.SameNames other)
    (hkeys : entries.map Prod.fst = entries'.map Prod.fst)
    (hassign : assign g parameters entries = .ok (assignments, after))
    (hassign' : assign h other entries' = .ok (assignments', after')) :
    assignments = assignments' ∧ after.SameNames after' := by
  induction entries generalizing entries' parameters other assignments assignments' with
  | nil =>
      obtain rfl := List.map_eq_nil_iff.1 hkeys.symm
      cases hassign
      cases hassign'
      exact ⟨rfl, names⟩
  | cons entry rest ih =>
      cases entries' with
      | nil => cases hkeys
      | cons entry' rest' =>
          obtain ⟨property, value⟩ := entry
          obtain ⟨property', value'⟩ := entry'
          obtain ⟨rfl, hrest⟩ : property = property' ∧ rest.map Prod.fst = rest'.map Prod.fst :=
            List.cons.inj hkeys
          obtain ⟨column, bound, others, hcolumn, hadd, hothers, rfl⟩ := of_assign_cons hassign
          obtain ⟨column', bound', others', hcolumn', hadd', hothers', rfl⟩ :=
            of_assign_cons hassign'
          rw [targetOf_eq same] at hcolumn
          obtain rfl : column = column' := Except.ok.inj (hcolumn.symm.trans hcolumn')
          obtain ⟨hminted, hmint⟩ := names.mint property
          rw [← hminted] at hadd' ⊢
          obtain ⟨rfl, hafter⟩ := ih (hmint.add hadd hadd') hrest hothers hothers'
          exact ⟨rfl, hafter⟩

theorem sameButValues_of_ofModel {model model' : Model} (same : g.SameButValues h)
    (hkeys : model.keys = model'.keys) (hu : ofModel g model = .ok u)
    (hv : ofModel h model' = .ok v) : u.SameButValues v := by
  obtain ⟨⟨assignments, after⟩, hassign, hu⟩ := bind_eq_ok.1 hu
  obtain ⟨⟨assignments', after'⟩, hassign', hv⟩ := bind_eq_ok.1 hv
  obtain ⟨rfl, names⟩ := sameNames_of_assign same same.names hkeys hassign hassign'
  obtain rfl := pure_eq_ok.1 hu
  obtain rfl := pure_eq_ok.1 hv
  obtain ⟨_, _⟩ := same
  exact .of _ (.of after' names)

end Update

namespace Delete

/-- The same deletion, with other values under the same names. -/
inductive SameButValues (d : Delete) : Delete → Prop
  | of (g : JoinGraph) (h : d.graph.SameButValues g) : SameButValues d { d with graph := g }

variable {d e d' e' : Delete}

theorem SameButValues.sql_eq (same : d.SameButValues e) : d.sql = e.sql := by
  obtain ⟨_, _, _⟩ := same
  rfl

theorem SameButValues.names (same : d.SameButValues e) :
    d.graph.parameters.SameNames e.graph.parameters := by
  obtain ⟨_, same⟩ := same
  exact same.names

theorem sameButValues_ofGraph (same : g.SameButValues h) :
    (ofGraph g).SameButValues (ofGraph h) := by
  obtain ⟨parameters, names⟩ := same
  exact .of _ (.of parameters names)

theorem of_fromAlias {label : String} (hd : d.fromAlias label = .ok d') :
    ∃ target, d.graph.table? label = some target ∧ d' = { d with target } := by
  unfold Delete.fromAlias at hd
  split at hd
  next target htarget => exact ⟨target, htarget, (Except.ok.inj hd).symm⟩
  next => cases hd

theorem SameButValues.fromAlias {label : String} (same : d.SameButValues e)
    (hd : d.fromAlias label = .ok d') (he : e.fromAlias label = .ok e') :
    d'.SameButValues e' := by
  obtain ⟨_, parameters, names⟩ := same
  obtain ⟨target, htarget, rfl⟩ := of_fromAlias hd
  obtain ⟨target', htarget', rfl⟩ := of_fromAlias he
  obtain rfl : target = target' := Option.some.inj (htarget.symm.trans htarget')
  exact .of _ (.of parameters names)

end Delete

/-! ### Insertions -/

namespace Insert

/-- The same insertion, with other values under the same names. -/
inductive SameButValues (i : Insert) : Insert → Prop
  | of (model : Model) (parameters : Parameters) (h : i.parameters.SameNames parameters) :
      SameButValues i { i with model, parameters }

variable {i j : Insert}

theorem SameButValues.sql_eq (same : i.SameButValues j) : i.sql = j.sql := by
  obtain ⟨_, _, _⟩ := same
  rfl

theorem SameButValues.names (same : i.SameButValues j) :
    i.parameters.SameNames j.parameters := by
  obtain ⟨_, _, names⟩ := same
  exact names

theorem SameButValues.columns_eq (same : i.SameButValues j) : i.columns = j.columns := by
  obtain ⟨_, _, _⟩ := same
  rfl

/-- Which columns are written is decided by the properties of the model. -/
theorem sameNames_of_bindColumns {model model' : Model} {parameters other after after' : Parameters}
    {columns written written' : List Column} (names : parameters.SameNames other)
    (hkeys : model.keys = model'.keys)
    (hbind : bindColumns model parameters columns = .ok (written, after))
    (hbind' : bindColumns model' other columns = .ok (written', after')) :
    written = written' ∧ after.SameNames after' := by
  induction columns generalizing parameters other written written' with
  | nil =>
      cases hbind
      cases hbind'
      exact ⟨rfl, names⟩
  | cons column rest ih =>
      rw [bindColumns] at hbind hbind'
      rcases Dict.get?_cases_of_keys_eq hkeys column.property with
        ⟨hnone, hnone'⟩ | ⟨value, value', hvalue, hvalue'⟩
      · rw [hnone] at hbind
        rw [hnone'] at hbind'
        exact ih names hbind hbind'
      · rw [hvalue] at hbind
        rw [hvalue'] at hbind'
        obtain ⟨bound, hadd, hbind⟩ := bind_eq_ok.1 hbind
        obtain ⟨bound', hadd', hbind'⟩ := bind_eq_ok.1 hbind'
        obtain ⟨⟨others, last⟩, hothers, hbind⟩ := bind_eq_ok.1 hbind
        obtain ⟨⟨others', last'⟩, hothers', hbind'⟩ := bind_eq_ok.1 hbind'
        cases hbind
        cases hbind'
        obtain ⟨rfl, hafter⟩ := ih (names.add hadd hadd') hothers hothers'
        exact ⟨rfl, hafter⟩

theorem sameButValues_of_ofModel {table : Table} {dialect : Sql.Dialect} {model model' : Model}
    (hkeys : model.keys = model'.keys) (hi : ofModel table dialect model = .ok i)
    (hj : ofModel table dialect model' = .ok j) : i.SameButValues j := by
  obtain ⟨⟨columns, after⟩, hbind, hi⟩ := bind_eq_ok.1 hi
  obtain ⟨⟨columns', after'⟩, hbind', hj⟩ := bind_eq_ok.1 hj
  obtain ⟨rfl, names⟩ := sameNames_of_bindColumns ⟨rfl, rfl⟩ hkeys hbind hbind'
  obtain rfl := pure_eq_ok.1 hi
  obtain rfl := pure_eq_ok.1 hj
  exact .of model' after' names

end Insert

/-! ### Statements on the row of a model -/

namespace Keyed

/-- The same property and placeholder, with any value. -/
def Binding.names (b : Binding) : String × String := (b.property, b.placeholder)

theorem of_bindKeys_cons {label : String} {model : Model} {parameters after : Parameters}
    {key : Column} {rest : List Column} {bindings : List Binding}
    (h : bindKeys label model parameters (key :: rest) = (.ok bindings, after)) :
    ∃ value others,
      bindKeys label model (parameters.mint (label ++ "." ++ key.property)).2 rest =
        (.ok others, after) ∧
      bindings = ⟨label ++ "." ++ key.property,
        (parameters.mint (label ++ "." ++ key.property)).1, key.saved value⟩ :: others := by
  rw [bindKeys] at h
  split at h
  next => cases h
  next => cases h
  next value _ _ =>
    dsimp only at h
    split at h
    next others after' hothers =>
      cases h
      exact ⟨value, others, hothers, by rw [← key.save_eq_saved]⟩
    next => cases h

/-- Which placeholders stand for the keys does not depend on the values of a
model that has them all. -/
theorem sameNames_of_bindKeys {label : String} {model model' : Model}
    {parameters other after after' : Parameters} {keys : List Column}
    {bindings bindings' : List Binding} (names : parameters.SameNames other)
    (hbind : bindKeys label model parameters keys = (.ok bindings, after))
    (hbind' : bindKeys label model' other keys = (.ok bindings', after')) :
    bindings.map Binding.names = bindings'.map Binding.names ∧ after.SameNames after' := by
  induction keys generalizing parameters other bindings bindings' with
  | nil =>
      cases hbind
      cases hbind'
      exact ⟨rfl, names⟩
  | cons key rest ih =>
      obtain ⟨value, others, hothers, rfl⟩ := of_bindKeys_cons hbind
      obtain ⟨value', others', hothers', rfl⟩ := of_bindKeys_cons hbind'
      obtain ⟨hminted, hmint⟩ := names.mint (label ++ "." ++ key.property)
      obtain ⟨hnames, hafter⟩ := ih hmint hothers hothers'
      rw [List.map_cons, List.map_cons, Binding.names, Binding.names, hminted, hnames]
      exact ⟨rfl, hafter⟩

theorem conditionOf_eq (bindings : List Binding) :
    conditionOf bindings =
      match bindings.map Binding.condition with
      | [condition] => condition
      | conditions => .boolean .and conditions := by
  rcases bindings with _ | ⟨first, _ | ⟨second, rest⟩⟩ <;> rfl

theorem conditionOf_congr {bindings bindings' : List Binding}
    (h : bindings.map Binding.names = bindings'.map Binding.names) :
    conditionOf bindings = conditionOf bindings' := by
  have hconditions := congrArg (List.map fun names : String × String =>
    Condition.comparison .eq names.1 (.parameter names.2)) h
  rw [List.map_map, List.map_map] at hconditions
  have hconditions : bindings.map Binding.condition = bindings'.map Binding.condition :=
    hconditions
  rw [conditionOf_eq, conditionOf_eq, hconditions]

theorem keys_valuesOf_congr {bindings bindings' : List Binding}
    (h : bindings.map Binding.names = bindings'.map Binding.names) :
    (valuesOf bindings).keys = (valuesOf bindings').keys := by
  have hplaceholders := congrArg (List.map Prod.snd) h
  rw [List.map_map, List.map_map] at hplaceholders
  apply Dict.keys_ofList_congr
  rw [List.map_map, List.map_map]
  exact hplaceholders

/-- The graph of a row is a graph of one table, filtered by the condition on the keys. -/
theorem graph_eq_bind (catalog : Catalog) (dialect : Sql.Dialect) (entity : String)
    (model : Model) :
    graph catalog dialect entity model =
      JoinGraph.start catalog dialect entity («alias» entity) >>= fun g =>
        (keyCondition g.base.table g.base.alias model g.parameters).1 >>= fun found =>
          JoinGraph.withFilter
            { g with parameters := (keyCondition g.base.table g.base.alias model g.parameters).2 }
            found.1 found.2 := by
  rw [graph]
  refine bind_congr fun g => bind_congr fun found => ?_
  exact (GraphM.filter_comesTo found.1 found.2 _).bind_eq

/-- The row of a model is picked by a condition on its keys, in a graph of one table. -/
theorem exists_withFilter_of_graph {catalog : Catalog} {dialect : Sql.Dialect} {entity : String}
    {model : Model} (hg : graph catalog dialect entity model = .ok g) :
    ∃ base bindings after, JoinGraph.start catalog dialect entity («alias» entity) = .ok base ∧
      bindKeys base.base.alias model base.parameters base.base.table.primaryKey =
        (.ok bindings, after) ∧
      { base with parameters := after }.withFilter (conditionOf bindings).toJson
        (valuesOf bindings) = .ok g := by
  rw [graph_eq_bind] at hg
  obtain ⟨base, hbase, hg⟩ := bind_eq_ok.1 hg
  dsimp only [keyCondition] at hg
  cases hbind : bindKeys base.base.alias model base.parameters base.base.table.primaryKey with
  | mk outcome after =>
      rw [hbind] at hg
      cases outcome with
      | error error => cases hg
      | ok bindings => exact ⟨base, bindings, after, hbase, hbind, hg⟩

theorem sameButValues_of_graph {catalog : Catalog} {dialect : Sql.Dialect} {entity : String}
    {model model' : Model} (hg : graph catalog dialect entity model = .ok g)
    (hh : graph catalog dialect entity model' = .ok h) : g.SameButValues h := by
  obtain ⟨base, bindings, after, hbase, hbind, hg⟩ := exists_withFilter_of_graph hg
  obtain ⟨base', bindings', after', hbase', hbind', hh⟩ := exists_withFilter_of_graph hh
  obtain rfl : base = base' := Except.ok.inj (hbase.symm.trans hbase')
  obtain ⟨hbindings, names⟩ := sameNames_of_bindKeys ⟨rfl, rfl⟩ hbind hbind'
  rw [← conditionOf_congr hbindings] at hh
  exact JoinGraph.SameButValues.withFilter (.of after' names) (keys_valuesOf_congr hbindings) hg hh

/-- Which properties are changed is decided by the properties of the model. -/
theorem keys_changes_congr {model model' : Model} (same : g.SameButValues h)
    (hkeys : model.keys = model'.keys) : (changes g model).keys = (changes h model').keys := by
  obtain ⟨_, _⟩ := same
  apply Dict.keys_ofList_congr
  rw [List.map_filterMap, List.map_filterMap]
  refine List.filterMap_congr fun c _ => ?_
  by_cases hprimary : c.column.isPrimary = true
  · rw [if_pos hprimary, if_pos hprimary]
  · rw [if_neg hprimary, if_neg hprimary, Option.map_map, Option.map_map]
    rcases Dict.get?_cases_of_keys_eq hkeys c.column.property with
      ⟨hnone, hnone'⟩ | ⟨value, value', hvalue, hvalue'⟩
    · rw [hnone, hnone']
    · rw [hvalue, hvalue']
      rfl

theorem sameButValues_of_update {catalog : Catalog} {dialect : Sql.Dialect} {entity : String}
    {model model' : Model} {u v : Update} (hkeys : model.keys = model'.keys)
    (hu : update catalog dialect entity model = .ok u)
    (hv : update catalog dialect entity model' = .ok v) : u.SameButValues v := by
  obtain ⟨g, hg, hu⟩ := bind_eq_ok.1 hu
  obtain ⟨h, hh, hv⟩ := bind_eq_ok.1 hv
  have same := sameButValues_of_graph hg hh
  exact Update.sameButValues_of_ofModel same (keys_changes_congr same hkeys) hu hv

theorem sameButValues_of_delete {catalog : Catalog} {dialect : Sql.Dialect} {entity : String}
    {model model' : Model} {d e : Delete} (hd : delete catalog dialect entity model = .ok d)
    (he : delete catalog dialect entity model' = .ok e) : d.SameButValues e := by
  obtain ⟨g, hg, hd⟩ := bind_eq_ok.1 hd
  obtain ⟨h, hh, he⟩ := bind_eq_ok.1 he
  obtain rfl := pure_eq_ok.1 hd
  obtain rfl := pure_eq_ok.1 he
  exact Delete.sameButValues_ofGraph (sameButValues_of_graph hg hh)

end Keyed

end EntityQuery
