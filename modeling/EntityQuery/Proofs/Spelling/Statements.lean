import EntityQuery.Proofs.JoinGraph.Columns
import EntityQuery.Proofs.Spelling.Graph
import EntityQuery.Proofs.Values.Statements

/-!
# Statements in two dialects

Statements on graphs that differ in their dialect only are built alike. An
update is the exception: one that assigns a property of a joined table is
refused in some dialects (`Update.of_assign_refused`), and where it is refused
in neither of two, it is built alike too. The update of a row never is, since
its graph has one table.
-/

namespace EntityQuery

variable {g h : JoinGraph}

theorem Order.isCommon_set (order : Order) (g : JoinGraph)
    (items : List (String × SortDirection)) : IsCommon (order.set g items) := by
  unfold set
  split
  next => exact isCommon_error rfl
  next =>
    refine (isCommon_mapM fun item _ => ?_).bind fun _ _ => isCommon_ok _
    exact (g.isCommon_column item.1).bind fun _ _ => isCommon_ok _

/-! ### Selections -/

namespace Shape

theorem isCommon_claim (shape : Shape) (property : String) : IsCommon (shape.claim property) := by
  unfold claim
  split
  next => exact isCommon_error rfl
  next => exact isCommon_ok _

theorem isCommon_addColumn (shape : Shape) (column : ShapeColumn) :
    IsCommon (shape.addColumn column) :=
  (shape.isCommon_claim column.property).bind fun _ _ => isCommon_ok _

theorem isCommon_addChild (shape : Shape) (relationship : Relationship) (child : Shape) :
    IsCommon (shape.addChild relationship child) :=
  (shape.isCommon_claim relationship.property).bind fun _ _ => isCommon_ok _

end Shape

namespace Select

/-- The same selection in another dialect. -/
inductive SameButSpelling (s : Select) : Select → Prop
  | of (g : JoinGraph) (h : s.graph.SameButSpelling g) : SameButSpelling s { s with graph := g }

variable {s t : Select}

theorem SameButSpelling.graph (same : s.SameButSpelling t) :
    s.graph.SameButSpelling t.graph := by
  obtain ⟨_, same⟩ := same
  exact same

theorem sameOutcome_checkProperties (same : g.SameButSpelling h) (seen properties : List String) :
    SameOutcome Eq (checkProperties g seen properties) (checkProperties h seen properties) := by
  induction properties generalizing seen with
  | nil => exact .ok rfl
  | cons property rest ih =>
      have hcolumn : h.column property = g.column property := by
        obtain ⟨_, _, _, -, -⟩ := same
        rfl
      rw [checkProperties, checkProperties, hcolumn]
      refine (g.isCommon_column property).same_bind fun _ _ => ?_
      split
      next => exact .error rfl
      next => exact ih (property :: seen)

theorem sameOutcome_checkKeys (chosen : List String) {tables tables' : List GraphTable}
    (same : List.Forall₂ GraphTable.SameButSpelling tables tables') :
    SameOutcome Eq (checkKeys chosen tables) (checkKeys chosen tables') := by
  induction same with
  | nil => exact .ok rfl
  | cons related _ ih =>
      obtain ⟨_, _⟩ := related
      exact .ite ih (.error rfl)

theorem SameButSpelling.select (same : s.SameButSpelling t) (properties : List String) :
    SameOutcome SameButSpelling (s.select properties) (t.select properties) := by
  obtain ⟨graph, same⟩ := same
  unfold Select.select
  dsimp only
  split
  next => exact .error rfl
  next =>
    refine (sameOutcome_checkProperties same [] properties).bind fun _ _ _ => ?_
    split
    next =>
      refine (sameOutcome_checkKeys properties same.tables).bind fun _ _ _ => ?_
      exact .ok (.of graph same)
    next => exact .ok (.of graph same)

theorem SameButSpelling.orderBy (same : s.SameButSpelling t)
    (items : List (String × SortDirection)) :
    SameOutcome SameButSpelling (s.orderBy items) (t.orderBy items) := by
  obtain ⟨_, dialect, base, joined, hbase, hjoined⟩ := same
  refine (s.order.isCommon_set s.graph items).same_bind fun order _ => ?_
  exact .ok (.of _ (.of dialect base joined hbase hjoined))

theorem SameButSpelling.take (same : s.SameButSpelling t) (count : UInt64)
    (offset : Option UInt64) :
    SameOutcome SameButSpelling (s.take count offset) (t.take count offset) := by
  obtain ⟨graph, same⟩ := same
  unfold Select.take
  dsimp only
  split
  next => exact .error rfl
  next => exact .ok (.of graph same)

theorem isCommon_addColumns (shape : Shape) (columns : List GraphColumn) :
    IsCommon (addColumns shape columns) := by
  induction columns generalizing shape with
  | nil => exact isCommon_ok shape
  | cons c rest ih => exact (shape.isCommon_addColumn _).bind fun shape _ => ih shape

theorem SameButSpelling.tableShape {u v : GraphTable} (same : s.SameButSpelling t)
    (related : u.SameButSpelling v) : SameOutcome Eq (s.tableShape u) (t.tableShape v) := by
  obtain ⟨_, _, _, _, -, -⟩ := same
  obtain ⟨_, _⟩ := related
  exact IsCommon.same (isCommon_addColumns _ _)

theorem SameButSpelling.nestTables (same : s.SameButSpelling t)
    {tables tables' : List GraphTable} (label : String) (shape : Shape)
    (related : List.Forall₂ GraphTable.SameButSpelling tables tables') :
    SameOutcome Eq (s.nestTables label shape tables) (t.nestTables label shape tables') := by
  induction related generalizing label shape with
  | nil => exact .ok rfl
  | @cons u v later later' related _ ih =>
      have hshape := same.tableShape related
      obtain ⟨_, _⟩ := related
      unfold Select.nestTables
      dsimp only
      split
      next => exact ih label shape
      next link _ =>
        split
        next =>
          refine hshape.bind ?_
          rintro own _ rfl
          refine (ih u.alias own).bind ?_
          rintro child _ rfl
          refine (shape.isCommon_addChild link.relationship child).same_bind fun extended _ => ?_
          exact ih label extended
        next => exact ih label shape

theorem SameButSpelling.shape (same : s.SameButSpelling t) : SameOutcome Eq s.shape t.shape := by
  have hgraph := same.graph
  unfold Select.shape
  rw [hgraph.base.alias_eq]
  refine (same.tableShape hgraph.base).bind ?_
  rintro own _ rfl
  exact same.nestTables t.graph.base.alias own hgraph.joined

end Select

/-! ### Counts -/

namespace Count

/-- The same count in another dialect. -/
inductive SameButSpelling (c : Count) : Count → Prop
  | of (g : JoinGraph) (h : c.graph.SameButSpelling g) : SameButSpelling c { c with graph := g }

variable {c d : Count}

theorem SameButSpelling.count (same : c.SameButSpelling d) (property : Option String) :
    SameOutcome SameButSpelling (c.count property) (d.count property) := by
  obtain ⟨_, dialect, base, joined, hbase, hjoined⟩ := same
  unfold Count.count
  dsimp only
  split
  next => exact .error rfl
  next =>
    cases property with
    | none => exact .ok (.of _ (.of dialect base joined hbase hjoined))
    | some property =>
        refine (c.graph.isCommon_column property).same_bind fun column _ => ?_
        exact .ok (.of _ (.of dialect base joined hbase hjoined))

theorem SameButSpelling.orderBy (same : c.SameButSpelling d)
    (items : List (String × SortDirection)) :
    SameOutcome SameButSpelling (c.orderBy items) (d.orderBy items) := by
  obtain ⟨_, dialect, base, joined, hbase, hjoined⟩ := same
  refine (c.order.isCommon_set c.graph items).same_bind fun order _ => ?_
  exact .ok (.of _ (.of dialect base joined hbase hjoined))

end Count

/-! ### Updates and deletions -/

namespace Update

/-- The same update in another dialect. -/
inductive SameButSpelling (u : Update) : Update → Prop
  | of (g : JoinGraph) (h : u.graph.SameButSpelling g) : SameButSpelling u { u with graph := g }

/-- A property of a joined table, in a dialect that updates the base table only. -/
theorem of_targetOf_refused {property : String} {e : QueryError}
    (refused : targetOf g property = .error e) (joined : e.isJoinedTarget = true) :
    e = .joinedUpdateTarget g.dialect property ∧ g.dialect.mutationStyle.assignsJoined = false ∧
      ∃ c, g.column property = .ok c ∧ c.alias ≠ g.base.alias := by
  rcases of_targetOf_error refused with hcolumn | ⟨c, hc, halias, hstyle, he⟩
  · rw [g.isCommon_column property e hcolumn] at joined
    cases joined
  · exact ⟨he, hstyle, c, hc, halias⟩

/-- What is refused is the assignment of some property. -/
theorem of_assign_refused {parameters : Parameters} {entries : List (String × Json)}
    {e : QueryError} (refused : assign g parameters entries = .error e)
    (joined : e.isJoinedTarget = true) :
    ∃ property ∈ entries.map Prod.fst, targetOf g property = .error e := by
  induction entries generalizing parameters with
  | nil => cases refused
  | cons entry rest ih =>
      obtain ⟨property, value⟩ := entry
      rw [assign] at refused
      rcases bind_eq_error.1 refused with htarget | ⟨column, -, refused⟩
      · exact ⟨property, List.mem_cons_self, htarget⟩
      · rcases bind_eq_error.1 refused with hadd | ⟨bound, -, refused⟩
        · rw [Parameters.isCommon_add _ _ _ _ e hadd] at joined
          cases joined
        · rcases bind_eq_error.1 refused with hrest | ⟨others, -, refused⟩
          · obtain ⟨property', hmem, htarget⟩ := ih hrest
            exact ⟨property', List.mem_cons_of_mem _ hmem, htarget⟩
          · cases refused

theorem of_ofModel_refused {model : Model} {e : QueryError} (refused : ofModel g model = .error e)
    (joined : e.isJoinedTarget = true) :
    ∃ property ∈ model.keys, targetOf g property = .error e := by
  rcases bind_eq_error.1 refused with hassign | ⟨_, -, refused⟩
  · exact of_assign_refused hassign joined
  · cases refused

/-- Where no table is joined, no update is refused for it. -/
theorem isCommon_ofModel (single : ∀ c ∈ g.columns, c.alias = g.base.alias) (model : Model) :
    IsCommon (ofModel g model) := by
  intro e he
  refine Bool.eq_false_iff.2 fun joined => ?_
  obtain ⟨property, -, refused⟩ := of_ofModel_refused he joined
  obtain ⟨-, -, c, hc, hne⟩ := of_targetOf_refused refused joined
  exact hne (single c (JoinGraph.of_column hc).1)

/-- A target that is not refused is the column of the property. -/
theorem targetOf_of_isCommon {property : String} (h : IsCommon (targetOf g property)) :
    targetOf g property = g.column property := by
  cases hcolumn : g.column property with
  | error e => exact bind_eq_error.2 (.inl hcolumn)
  | ok c =>
      refine bind_eq_ok.2 ⟨c, hcolumn, ?_⟩
      have h := h.of_bind_ok hcolumn
      split at h
      next => exact Bool.noConfusion (h _ rfl)
      next hbase => rw [if_neg hbase]; rfl

theorem sameOutcome_assign (same : g.SameButSpelling h) {parameters : Parameters}
    {entries : List (String × Json)} (hg : IsCommon (assign g parameters entries))
    (hh : IsCommon (assign h parameters entries)) :
    SameOutcome Eq (assign g parameters entries) (assign h parameters entries) := by
  induction entries generalizing parameters with
  | nil => exact .ok rfl
  | cons entry rest ih =>
      obtain ⟨property, value⟩ := entry
      have htarget := targetOf_of_isCommon hg.of_bind
      have htarget' := targetOf_of_isCommon hh.of_bind
      have hcolumn : h.column property = g.column property := by
        obtain ⟨_, _, _, -, -⟩ := same
        rfl
      rw [hcolumn] at htarget'
      rw [assign, htarget] at hg
      rw [assign, htarget'] at hh
      rw [assign, assign, htarget, htarget']
      refine (g.isCommon_column property).same_bind fun column hcolumn => ?_
      have hg := hg.of_bind_ok hcolumn
      have hh := hh.of_bind_ok hcolumn
      refine (Parameters.isCommon_add _ _ _ _).same_bind fun bound hbound => ?_
      refine (ih (hg.of_bind_ok hbound).of_bind (hh.of_bind_ok hbound).of_bind).bind ?_
      rintro others _ rfl
      exact .ok rfl

/-- An update that is refused in neither dialect is the same in both. -/
theorem sameOutcome_ofModel (same : g.SameButSpelling h) {model : Model}
    (hg : IsCommon (ofModel g model)) (hh : IsCommon (ofModel h model)) :
    SameOutcome SameButSpelling (ofModel g model) (ofModel h model) := by
  obtain ⟨dialect, base, joined, hbase, hjoined⟩ := same
  refine (sameOutcome_assign (.of dialect base joined hbase hjoined) hg.of_bind hh.of_bind).bind ?_
  rintro assigned _ rfl
  exact .ok (.of _ (.of dialect base joined hbase hjoined))

end Update

namespace Delete

/-- The same deletion in another dialect. -/
inductive SameButSpelling (d : Delete) : Delete → Prop
  | of (g : JoinGraph) (target : GraphTable) (hgraph : d.graph.SameButSpelling g)
      (htarget : d.target.SameButSpelling target) :
      SameButSpelling d { d with graph := g, target }

variable {d e : Delete}

theorem sameButSpelling_ofGraph (same : g.SameButSpelling h) :
    (ofGraph g).SameButSpelling (ofGraph h) :=
  .of h h.base same same.base

theorem SameButSpelling.fromAlias (same : d.SameButSpelling e) (label : String) :
    SameOutcome SameButSpelling (d.fromAlias label) (e.fromAlias label) := by
  obtain ⟨graph, target, hgraph, -⟩ := same
  unfold Delete.fromAlias
  rcases hgraph.table?_cases label with ⟨hd, he⟩ | ⟨t, u, hd, he, related⟩
  · rw [hd]
    dsimp only
    rw [he]
    exact .error rfl
  · rw [hd]
    dsimp only
    rw [he]
    exact .ok (.of graph u hgraph related)

end Delete

/-! ### Insertions -/

namespace Insert

/-- The same insertion in another dialect. -/
inductive SameButSpelling (i : Insert) : Insert → Prop
  | of (dialect : Sql.Dialect) : SameButSpelling i { i with dialect }

theorem isCommon_bindColumns (model : Model) (parameters : Parameters) (columns : List Column) :
    IsCommon (bindColumns model parameters columns) := by
  induction columns generalizing parameters with
  | nil => exact isCommon_ok _
  | cons column rest ih =>
      rw [bindColumns]
      split
      next => exact ih parameters
      next =>
        refine (Parameters.isCommon_add _ _ _ _).bind fun bound _ => ?_
        exact (ih bound).bind fun _ _ => isCommon_ok _

theorem sameOutcome_ofModel (table : Table) (d d' : Sql.Dialect) (model : Model) :
    SameOutcome SameButSpelling (ofModel table d model) (ofModel table d' model) :=
  (isCommon_bindColumns model .empty table.columns).same_bind fun _ _ => .ok (.of d')

theorem isCommon_withId (i : Insert) (id : Json) : IsCommon (i.withId id) := by
  unfold withId
  split
  next => exact isCommon_ok _
  next => exact isCommon_error rfl

end Insert

/-! ### Statements on the row of a model -/

namespace Keyed

theorem isCommon_bindKeys (label : String) (model : Model) (parameters : Parameters)
    (keys : List Column) : IsCommon (bindKeys label model parameters keys).1 := by
  induction keys generalizing parameters with
  | nil => exact isCommon_ok _
  | cons key rest ih =>
      rw [bindKeys]
      split
      next => exact isCommon_error rfl
      next => exact isCommon_error rfl
      next =>
        have hrest := ih (parameters.mint (label ++ "." ++ key.property)).2
        dsimp only
        split
        next => exact isCommon_ok _
        next error _ heq =>
          rw [heq] at hrest
          exact isCommon_error (hrest error rfl)

theorem isCommon_keyCondition (table : Table) (label : String) (model : Model)
    (parameters : Parameters) : IsCommon (keyCondition table label model parameters).1 := by
  have hkeys := isCommon_bindKeys label model parameters table.primaryKey
  unfold keyCondition
  split
  next => exact isCommon_ok _
  next error _ heq =>
    rw [heq] at hkeys
    exact isCommon_error (hkeys error rfl)

theorem changes_eq_of_sameButSpelling (same : g.SameButSpelling h) (model : Model) :
    changes h model = changes g model := by
  obtain ⟨_, _, _, ⟨_, _⟩, -⟩ := same
  rfl

variable {catalog : Catalog} {entity : String} {model : Model}

theorem sameOutcome_graph (d d' : Sql.Dialect) :
    SameOutcome JoinGraph.SameButSpelling (graph catalog d entity model)
      (graph catalog d' entity model) := by
  rw [graph_eq_bind, graph_eq_bind]
  refine (JoinGraph.sameOutcome_start catalog d d' entity _).bind fun g h same => ?_
  have hcondition := isCommon_keyCondition g.base.table g.base.alias model g.parameters
  have hpair : keyCondition h.base.table h.base.alias model h.parameters =
      keyCondition g.base.table g.base.alias model g.parameters := by
    obtain ⟨_, _, _, ⟨_, _⟩, -⟩ := same
    rfl
  rw [hpair]
  generalize keyCondition g.base.table g.base.alias model g.parameters = pair at hcondition ⊢
  refine hcondition.same_bind fun (condition, values) _ => ?_
  exact (same.withParameters pair.2).withFilter condition values

/-- The graph of a row has one table. -/
theorem alias_eq_of_graph {d : Sql.Dialect} (hg : graph catalog d entity model = .ok g) :
    ∀ c ∈ g.columns, c.alias = g.base.alias := by
  obtain ⟨start, bindings, after, hstart, -, hfilter⟩ := exists_withFilter_of_graph hg
  have hsingle : ∀ c ∈ start.columns, c.alias = start.base.alias := by
    obtain ⟨_, -, hstart⟩ := bind_eq_ok.1 hstart
    obtain ⟨table, -, hstart⟩ := bind_eq_ok.1 hstart
    obtain rfl := pure_eq_ok.1 hstart
    intro c hc
    obtain ⟨column, -, rfl⟩ := List.mem_map.1 hc
    rfl
  rcases JoinGraph.of_withFilter hfilter with ⟨-, rfl⟩ | ⟨-, restriction, -, rfl⟩ <;>
    exact hsingle

theorem sameOutcome_update (d d' : Sql.Dialect) :
    SameOutcome Update.SameButSpelling (update catalog d entity model)
      (update catalog d' entity model) := by
  refine (sameOutcome_graph d d').attach.bind fun g h ⟨same, hg, hh⟩ => ?_
  rw [changes_eq_of_sameButSpelling same]
  exact Update.sameOutcome_ofModel same (Update.isCommon_ofModel (alias_eq_of_graph hg) _)
    (Update.isCommon_ofModel (alias_eq_of_graph hh) _)

theorem sameOutcome_delete (d d' : Sql.Dialect) :
    SameOutcome Delete.SameButSpelling (delete catalog d entity model)
      (delete catalog d' entity model) :=
  (sameOutcome_graph d d').bind fun _ _ same => .ok (Delete.sameButSpelling_ofGraph same)

end Keyed

end EntityQuery
