import EntityQuery.Proofs.JoinGraph.Tables
import EntityQuery.Proofs.Sql.Rendering
import EntityQuery.Proofs.Statement.Choices
import EntityQuery.Proofs.Statement.Nesting

/-!
# The list of a selection and its shape

A selection lists its columns in one line, and folds the rows by a shape that is
built table by table. Both say the same (`list_agrees_with_shape`): each listed
column is a column of exactly one node, that of its own table, nodes have no
other columns, and the key by which rows are told apart is listed for every node.
-/

namespace EntityQuery

/-- Elements whose labels are among some different ones are those of each label in turn. -/
theorem perm_flatMap_filter {α β : Type} [DecidableEq β] {labels : List β} {f : α → β}
    {xs : List α} (nodup : labels.Nodup) (known : ∀ x ∈ xs, f x ∈ labels) :
    (labels.flatMap fun label => xs.filter fun x => f x = label).Perm xs := by
  induction xs with
  | nil => exact .of_eq (List.flatMap_eq_nil_iff.2 fun _ _ => rfl)
  | cons x xs ih =>
      obtain ⟨hx, hxs⟩ := List.forall_mem_cons.1 known
      have hmore : (x :: xs).filter (fun y => f y = f x) = [x] ++ xs.filter fun y => f y = f x :=
        List.filter_cons_of_pos (decide_eq_true rfl)
      refine (perm_flatMap_of_eq_append nodup hx hmore fun label _ hne => ?_).trans
        ((ih hxs).append_left [x])
      exact List.filter_cons_of_neg (by simpa using hne.symm)

namespace Select

open JoinGraph (start checkAlias phoneBook)

variable {s : Select} {t : GraphTable}

/-- The properties that the node of a table uses: those of its selected columns
and those of the relationships to the tables joined to it. -/
def propertiesOf (s : Select) (t : GraphTable) : List String :=
  (s.columnsOf t).map (fun c => c.column.property) ++
    (s.graph.children t.alias).filterMap fun child =>
      child.link.map fun link => link.relationship.property

/-- The line of the selected columns, each under its name. -/
def listText (s : Select) : String :=
  "SELECT " ++ ", ".intercalate (s.columns.map fun c =>
    s.graph.dialect.quoteColumn c.reference ++ " AS " ++ s.graph.dialect.quote c.property)

/-- A shape says of the selected columns what the list says of them. -/
structure FoldsInto (s : Select) (shape : Shape) : Prop where
  root : shape = s.nodeOf s.graph.base
  nodes : shape.nodes.Perm (s.graph.tables.map s.nodeOf)
  nodup_nodes : shape.nodes.Nodup
  children : ∀ t ∈ s.graph.tables,
    (s.nodeOf t).children.map (fun child => (some child.1, child.2)) =
      (s.graph.children t.alias).map fun child => (child.link.map Link.relationship, s.nodeOf child)
  parent : ∀ t ∈ s.graph.joined, ∃ parent ∈ s.graph.tables, t.parent? = some parent.alias
  table : ∀ t ∈ s.graph.tables, (s.nodeOf t).table = t.table
  columns : ∀ t ∈ s.graph.tables, (s.nodeOf t).columns.map ShapeColumn.name =
    (s.columns.filter fun c => c.alias = t.alias).map GraphColumn.property
  nodup_names : s.names.Nodup
  rowColumns : shape.rowColumns.Perm s.names
  keys : ∀ t ∈ s.graph.tables, (s.nodeOf t).keys = t.keyColumns.map GraphColumn.property
  keyed : ∀ node ∈ shape.nodes, node.keys ≠ [] ∧
    ∀ key ∈ node.keys, key ∈ node.columns.map ShapeColumn.name ∧ key ∈ s.names

/-! ### The list -/

theorem exists_lines (s : Select) : ∃ lines, s.sql = "\n".intercalate (s.listText :: lines) := by
  have hline : Sql.render s.graph.dialect (.keyword .select :: .space ::
      Sql.commaSeparated (s.columns.map columnTokens)) = s.listText := by
    rw [Sql.render_cons, Sql.render_cons, Sql.render_commaSeparated, List.map_map, listText,
      ← String.append_assoc]
    refine congrArg ("SELECT " ++ ", ".intercalate ·) (List.map_congr_left fun c _ => ?_)
    have has : " AS " = " " ++ (Sql.Keyword.as.text ++ " ") := rfl
    simp only [Function.comp_apply, columnTokens, Sql.render_words, List.map_cons, List.map_nil,
      Sql.Token.text_column, Sql.Token.text_keyword, Sql.Token.text_ident,
      String.intercalate_cons_cons, String.intercalate_singleton, String.append_assoc, has]
  rw [sql, sqlTokens, Sql.render_stack, List.append_assoc, List.append_assoc,
    List.singleton_append, List.map_cons, hline]
  exact ⟨_, rfl⟩

theorem map_name_shapeColumn (columns : List GraphColumn) :
    (columns.map shapeColumn).map ShapeColumn.name = columns.map GraphColumn.property := by
  rw [List.map_map]
  rfl

section coherent

variable (h : s.graph.IsCoherent)

include h

/-- Names repeat only within a table. -/
theorem nodup_names
    (distinct : ∀ t ∈ s.graph.tables, ((s.columnsOf t).map fun c => c.column.property).Nodup) :
    s.names.Nodup := by
  refine List.nodup_iff_sublist.2 fun name hpair => ?_
  obtain ⟨pair, hsub, hnames⟩ := List.sublist_map_iff.1 hpair
  obtain ⟨c, rest, rfl, hc, hrest⟩ := List.map_eq_cons_iff.1 hnames.symm
  obtain ⟨c', rest, rfl, hc', hrest⟩ := List.map_eq_cons_iff.1 hrest
  obtain rfl := List.map_eq_nil_iff.1 hrest
  have hmem : c ∈ s.columns ∧ c' ∈ s.columns := ⟨hsub.subset (by simp), hsub.subset (by simp)⟩
  obtain ⟨halias, hproperty⟩ := h.eq_of_property_eq (mem_graph_columns hmem.1)
    (mem_graph_columns hmem.2) (hc.trans hc'.symm)
  obtain ⟨t, ht, hcolumn⟩ := h.exists_of_mem_columns (mem_graph_columns hmem.1)
  obtain ⟨_, -, rfl⟩ := List.mem_map.1 hcolumn
  have hown := (hsub.filter fun c => c.alias = t.alias).map fun c => c.column.property
  simp only [List.filter_cons, halias.symm, decide_true, if_true, List.filter_nil,
    List.map_cons, List.map_nil] at hown
  rw [hproperty] at hown
  exact List.nodup_iff_sublist.1 (distinct t ht) _ hown

theorem perm_columns : (s.graph.tables.flatMap s.columnsOf).Perm s.columns := by
  have hknown : ∀ c ∈ s.columns, c.alias ∈ s.graph.tables.map GraphTable.alias := by
    intro c hc
    obtain ⟨t, ht, hcolumn⟩ := h.exists_of_mem_columns (mem_graph_columns hc)
    obtain ⟨_, -, rfl⟩ := List.mem_map.1 hcolumn
    exact List.mem_map_of_mem ht
  have hperm := perm_flatMap_filter h.nodup_aliases hknown
  rwa [List.flatMap_map] at hperm

/-! ### The nodes -/

theorem children_nodeOf (t : GraphTable) :
    (s.nodeOf t).children.map (fun child => (some child.1, child.2)) =
      (s.graph.children t.alias).map fun child =>
        (child.link.map Link.relationship, s.nodeOf child) := by
  rw [h.children_eq_filter]
  exact nested_eq h (List.nil_append _).symm

theorem properties_nodeOf (t : GraphTable) : (s.nodeOf t).properties = s.propertiesOf t := by
  have hchildren := congrArg (List.filterMap fun child => child.1.map Relationship.property)
    (children_nodeOf h t)
  rw [List.filterMap_map, List.filterMap_map] at hchildren
  have hown : (s.nodeOf t).columns.map ShapeColumn.property =
      (s.columnsOf t).map fun c => c.column.property := List.map_map
  rw [Shape.properties, hown, propertiesOf]
  refine congrArg ((s.columnsOf t).map _ ++ ·) ?_
  rw [← List.filterMap_eq_map]
  refine Eq.trans hchildren (List.filterMap_congr fun child _ => ?_)
  exact Option.map_map _ _ _

theorem isDistinct_nodeOf_base : (s.nodeOf s.graph.base).IsDistinct ↔
    ∀ t ∈ s.graph.tables, (s.propertiesOf t).Nodup := by
  have hnodes := fun node => (perm_nodes h).mem_iff (a := node)
  simp only [Shape.IsDistinct, hnodes, List.forall_mem_map, properties_nodeOf h]

/-- The shape cannot be built exactly if some table uses a property twice. -/
theorem shape_eq_error_iff : (∃ error, s.shape = .error error) ↔
    ∃ t ∈ s.graph.tables, ¬(s.propertiesOf t).Nodup := by
  have hok : (∃ error, s.shape = .error error) ↔ ¬(s.nodeOf s.graph.base).IsDistinct := by
    constructor
    · rintro ⟨error, herror⟩ hdistinct
      rw [shape_eq_ok.2 ⟨rfl, hdistinct⟩] at herror
      cases herror
    · intro hrepeats
      cases hshape : s.shape with
      | error error => exact ⟨error, rfl⟩
      | ok shape =>
          obtain ⟨rfl, hdistinct⟩ := shape_eq_ok.1 hshape
          exact absurd hdistinct hrepeats
  rw [hok, isDistinct_nodeOf_base h]
  simp only [not_forall, exists_prop]

/-- Nodes of different tables have different keys. -/
theorem nodup_nodeOf (keyed : ∀ t ∈ s.graph.tables, t.table.primaryKey ≠ []) :
    (s.graph.tables.map s.nodeOf).Nodup := by
  refine List.Nodup.map_on (fun t ht t' ht' heq => ?_) (List.Nodup.of_map _ h.nodup_aliases)
  have hkeys : t.keyColumns.map GraphColumn.property = t'.keyColumns.map GraphColumn.property :=
    congrArg Shape.keys heq
  obtain ⟨key, hkey⟩ := List.exists_mem_of_ne_nil _ (keyed t ht)
  have hmem : (GraphColumn.mk t.alias key).property ∈ t.keyColumns.map GraphColumn.property :=
    List.mem_map_of_mem (List.mem_map_of_mem hkey)
  rw [hkeys] at hmem
  obtain ⟨c, hc, hproperty⟩ := List.mem_map.1 hmem
  have halias := (h.eq_of_property_eq (h.mem_columns_of_keyColumns ht' hc)
    (h.mem_columns_of_keyColumns ht (List.mem_map_of_mem hkey)) hproperty).1
  obtain ⟨_, -, rfl⟩ := List.mem_map.1 hc
  exact List.inj_on_of_nodup_map h.nodup_aliases ht ht' halias.symm

theorem keys_nodeOf (sound : s.IsSound) (ht : t ∈ s.graph.tables) {key : String}
    (hkey : key ∈ (s.nodeOf t).keys) :
    key ∈ (s.nodeOf t).columns.map ShapeColumn.name ∧ key ∈ s.names := by
  obtain ⟨column, hcolumn, rfl⟩ := List.mem_map.1 hkey
  obtain ⟨c, hc, halias, hproperty⟩ := exists_keyColumn sound h ht hcolumn
  rw [← hproperty]
  refine ⟨?_, List.mem_map_of_mem hc⟩
  have hown : (s.nodeOf t).columns.map ShapeColumn.name =
      (s.columnsOf t).map GraphColumn.property := map_name_shapeColumn _
  rw [hown]
  exact List.mem_map_of_mem (List.mem_filter.2 ⟨hc, decide_eq_true halias⟩)

/-- A shape that has been built agrees with the list. -/
theorem foldsInto (sound : s.IsSound) (keyed : ∀ t ∈ s.graph.tables, t.table.primaryKey ≠ [])
    {shape : Shape} (hshape : s.shape = .ok shape) : s.FoldsInto shape := by
  obtain ⟨rfl, hdistinct⟩ := shape_eq_ok.1 hshape
  have hnodes := perm_nodes h
  have hown := fun t ht => List.Nodup.of_append_left ((isDistinct_nodeOf_base h).1 hdistinct t ht)
  constructor
  case root => rfl
  case nodes => exact hnodes
  case nodup_nodes => exact hnodes.nodup_iff.2 (nodup_nodeOf h keyed)
  case children => exact fun t _ => children_nodeOf h t
  case parent =>
      intro t ht
      obtain ⟨earlier, later, hsplit⟩ := List.append_of_mem ht
      obtain ⟨link, hlink, hparent⟩ := h.exists_parent hsplit
      obtain ⟨parent, hmem, halias⟩ := List.mem_map.1 hparent
      refine ⟨parent, ?_, ?_⟩
      · rw [JoinGraph.tables, hsplit, ← List.cons_append]
        exact List.mem_append_left _ hmem
      · rw [GraphTable.parent?, hlink, Option.map_some, halias]
  case table => exact fun _ _ => rfl
  case columns => exact fun t _ => map_name_shapeColumn _
  case nodup_names => exact nodup_names h hown
  case rowColumns =>
      have hcolumns := (perm_columns h).map GraphColumn.property
      rw [List.map_flatMap] at hcolumns
      rw [Shape.rowColumns_eq_nodes]
      refine (hnodes.flatMap_right _).trans (.trans (.of_eq ?_) hcolumns)
      rw [List.flatMap_map]
      exact List.flatMap_congr fun t _ => map_name_shapeColumn _
  case keys => exact fun _ _ => rfl
  case keyed =>
      intro node hnode
      obtain ⟨t, ht, rfl⟩ := List.mem_map.1 (hnodes.mem_iff.1 hnode)
      refine ⟨fun hnil => ?_, fun key => keys_nodeOf h sound ht⟩
      have hkeys := List.map_eq_nil_iff.1 hnil
      exact keyed t ht (List.map_eq_nil_iff.1 hkeys)

end coherent

/-- Whatever calls have made the graph and the selection, the list and the shape
agree, and it is known which choices are accepted and when there is a shape. -/
theorem list_agrees_with_shape {catalog : Catalog} {dialect : Sql.Dialect} {entity label : String}
    {g : JoinGraph} (hg : start catalog dialect entity label = .ok g) (calls : List GraphCall)
    {choices : List Select.Call}
    (hs : choices.foldlM Select.call { graph := g.after calls } = .ok s) :
    s.graph = g.after calls ∧
    (s.selected = none → ∀ properties, properties ≠ [] →
      ((∃ s', s.select properties = .ok s') ↔ s.graph.IsChoice properties)) ∧
    (∀ depth, s.graph.tables.length ≤ depth →
      s.shapeWithin depth s.graph.base = s.shape.mapError some) ∧
    ((∃ error, s.shape = .error error) ↔ ∃ t ∈ s.graph.tables, ¬(s.propertiesOf t).Nodup) ∧
    (∃ lines, s.sql = "\n".intercalate (s.listText :: lines)) ∧
    ∀ shape, s.shape = .ok shape → s.FoldsInto shape := by
  have hfresh : IsSound { graph := g.after calls } := fun _ hselected => nomatch hselected
  obtain ⟨hgraph, hsound⟩ := hfresh.foldlM_call ((JoinGraph.isCoherent_start hg).after calls) hs
  have hcoherent : s.graph.IsCoherent := hgraph ▸ (JoinGraph.isCoherent_start hg).after calls
  have hover : s.graph.IsOver catalog dialect := hgraph ▸ JoinGraph.isOver_after hg calls
  refine ⟨hgraph, fun first properties given => select_eq_ok_iff hcoherent first given,
    fun depth deep => shapeWithin_base hcoherent deep, shape_eq_error_iff hcoherent,
    s.exists_lines, fun shape hshape => ?_⟩
  exact foldsInto hcoherent hsound (fun t ht => hover.primaryKey_ne_nil ht) hshape

/-- The keys of users and of their phones, chosen in the opposite order. -/
theorem list_agrees_with_shape_phones :
    let calls : List GraphCall :=
      [.join .leftOuter { entity := "Phone", «alias» := "p", parentProperty := "u.phones" }]
    let choices : List Select.Call :=
      [.orderBy [("p.owner", .descending)], .select ["p.no", "u.id"], .take 10 none]
    ∃ g s shape, start phoneBook .mysql "User" "u" = .ok g ∧
      choices.foldlM Select.call { graph := g.after calls } = .ok s ∧
      s.listText = "SELECT `p`.`no` AS `p.no`, `u`.`user_id` AS `u.id`" ∧
      s.shape = .ok shape ∧ shape.rowColumns = ["u.id", "p.no"] ∧ s.FoldsInto shape := by
  intro calls choices
  have hname : checkAlias "u" = .ok () := if_pos (by decide +kernel)
  obtain ⟨g, hg, hmade⟩ : ∃ g, start phoneBook .mysql "User" "u" = .ok g ∧
      (choices.foldlM Select.call { graph := g.after calls }).map
          (fun s => (s.listText, (s.shape.map Shape.rowColumns).toOption)) =
        .ok ("SELECT `p`.`no` AS `p.no`, `u`.`user_id` AS `u.id`", some ["u.id", "p.no"]) := by
    rw [start, hname]
    exact ⟨_, rfl, by decide +kernel⟩
  obtain ⟨s, hs, hpair⟩ := map_eq_ok.1 hmade
  obtain ⟨hlist, hcolumns⟩ := Prod.mk.inj hpair
  cases hshape : s.shape with
  | error error =>
      rw [hshape] at hcolumns
      cases hcolumns
  | ok shape =>
      rw [hshape] at hcolumns
      obtain ⟨-, -, -, -, -, hfolds⟩ := list_agrees_with_shape hg calls hs
      exact ⟨g, s, shape, hg, hs, hlist, hshape, Option.some.inj hcolumns, hfolds shape hshape⟩

end Select

end EntityQuery
