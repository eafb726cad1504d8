import EntityQuery.Proofs.JoinGraph.Columns
import EntityQuery.Proofs.Shape.Nodes
import EntityQuery.Statement.Select

/-!
# Nesting the tables of a graph

The shape of a selection is built along the tables of its graph, each table
looking for those joined to it among the tables that came after it. What comes
of it is described here by the graph alone: there is one node for each table
(`perm_nodes`), its children are the nodes of the tables joined to it
(`children_nodeOf`), and the shape can be built exactly if no node uses a
property twice (`shape_eq_ok`). A recursion that asks the graph for the
children of each table, as far down as they go, ends with the same outcome
(`shapeWithin_base`).

All of it rests on the order of the tables: a table is joined to one that came
before it, so what is joined to it comes after it (`IsCoherent.children_eq`).
-/

namespace EntityQuery

/-- Where one element of a list gives more than before, there is that much more in all. -/
theorem perm_flatMap_of_eq_append {α β : Type} {xs : List α} {x : α} {f g : α → List β}
    {more : List β} (nodup : xs.Nodup) (hx : x ∈ xs) (hmore : f x = more ++ g x)
    (hsame : ∀ y ∈ xs, y ≠ x → f y = g y) : (xs.flatMap f).Perm (more ++ xs.flatMap g) := by
  induction xs with
  | nil => cases hx
  | cons y ys ih =>
      obtain ⟨hy, hys⟩ := List.nodup_cons.1 nodup
      rw [List.flatMap_cons, List.flatMap_cons]
      by_cases heq : y = x
      · subst heq
        have hrest : ys.flatMap f = ys.flatMap g := by
          refine List.flatMap_congr fun z hz => hsame z (List.mem_cons_of_mem _ hz) ?_
          rintro rfl
          exact hy hz
        rw [hmore, hrest, List.append_assoc]
      · have hrest := ih hys ((List.mem_cons.1 hx).resolve_left (Ne.symm heq))
          fun z hz => hsame z (List.mem_cons_of_mem _ hz)
        rw [hsame y List.mem_cons_self heq]
        refine (hrest.append_left _).trans ?_
        rw [← List.append_assoc, ← List.append_assoc]
        exact List.perm_append_comm.append_right _

namespace JoinGraph.IsCoherent

variable {g : JoinGraph} {t other : GraphTable} {earlier later : List GraphTable}

/-- A table is joined to one of those before it. -/
theorem exists_parent (h : g.IsCoherent) (hsplit : g.joined = earlier ++ t :: later) :
    ∃ link, t.link = some link ∧ link.parent ∈ (g.base :: earlier).map GraphTable.alias := by
  obtain ⟨link, hlink, -, hparent, -⟩ := h.isLinkedTo earlier t later hsplit
  obtain ⟨parent, hmem, hpair⟩ := List.mem_map.1 hparent
  exact ⟨link, hlink, List.mem_map.2 ⟨parent, hmem, congrArg Prod.fst hpair⟩⟩

/-- A table is joined neither to itself nor to one after it. -/
theorem parent?_ne (h : g.IsCoherent) (hsplit : g.joined = earlier ++ other :: later)
    (ht : t ∈ other :: later) : other.parent? ≠ some t.alias := by
  obtain ⟨link, hlink, hparent⟩ := h.exists_parent hsplit
  have haliases := h.nodup_aliases
  rw [tables, hsplit, ← List.cons_append, List.map_append] at haliases
  rw [GraphTable.parent?, hlink, Option.map_some, ne_eq, Option.some.injEq]
  intro halias
  exact (List.nodup_append.1 haliases).2.2 _ hparent _ (List.mem_map_of_mem ht) halias

/-- The tables joined to a table are among those after it. -/
theorem parent?_ne_of_mem (h : g.IsCoherent) (hsplit : g.joined = earlier ++ t :: later)
    (hother : other ∈ earlier ++ [t]) : other.parent? ≠ some t.alias := by
  rcases List.mem_append.1 hother with hmem | hmem
  · obtain ⟨before, between, rfl⟩ := List.append_of_mem hmem
    rw [List.append_assoc, List.cons_append] at hsplit
    exact h.parent?_ne hsplit (by simp)
  · obtain rfl := List.mem_singleton.1 hmem
    exact h.parent?_ne hsplit List.mem_cons_self

theorem children_eq_filter (h : g.IsCoherent) (label : String) :
    g.children label = g.joined.filter fun t => t.parent? = some label := by
  have hbase : ¬decide (g.base.parent? = some label) = true := by
    rw [GraphTable.parent?, h.link_base]
    simp
  exact List.filter_cons_of_neg hbase

theorem children_eq (h : g.IsCoherent) (hsplit : g.joined = earlier ++ t :: later) :
    g.children t.alias = later.filter fun other => other.parent? = some t.alias := by
  have hearlier : ((earlier ++ [t]).filter fun other => other.parent? = some t.alias) = [] :=
    List.filter_eq_nil_iff.2 fun other hother hparent =>
      h.parent?_ne_of_mem hsplit hother (of_decide_eq_true hparent)
  rw [h.children_eq_filter, hsplit, List.append_cons, List.filter_append, hearlier,
    List.nil_append]

end JoinGraph.IsCoherent

namespace Select

open Shape (nodesOfEach)

variable {s : Select} {t : GraphTable} {label : String} {shape shape' : Shape}
  {tables earlier later : List GraphTable}

/-! ### What is built -/

/-- The column of a shape that a selected column becomes. -/
def shapeColumn (c : GraphColumn) : ShapeColumn :=
  { name := c.property, property := c.column.property, onRetrieve := c.column.onRetrieve? }

/-- The selected columns of a table. -/
def columnsOf (s : Select) (t : GraphTable) : List GraphColumn :=
  s.columns.filter fun c => c.alias = t.alias

/-- The shape of a table without those joined to it. -/
def bareShape (s : Select) (t : GraphTable) : Shape :=
  .node t.table (t.keyColumns.map GraphColumn.property) ((s.columnsOf t).map shapeColumn) []

/-- The shapes of the tables joined to an alias, out of some tables, each with
those joined to it in turn. -/
def nested (s : Select) (label : String) : List GraphTable → List (Relationship × Shape)
  | [] => []
  | t :: later =>
      match t.link with
      | none => s.nested label later
      | some link =>
          if link.parent = label then
            (link.relationship, (s.bareShape t).withChildren (s.nested t.alias later)) ::
              s.nested label later
          else s.nested label later

/-- The shape of a table with those joined to it. -/
def nodeOf (s : Select) (t : GraphTable) : Shape :=
  (s.bareShape t).withChildren (s.nested t.alias s.graph.joined)

theorem addColumns_eq_ok {table : Table} {keys : List String} {columns : List ShapeColumn}
    {selected : List GraphColumn} (distinct : (columns.map ShapeColumn.property).Nodup) :
    addColumns (.node table keys columns []) selected = .ok shape ↔
      shape = .node table keys (columns ++ selected.map shapeColumn) [] ∧
        ((columns ++ selected.map shapeColumn).map ShapeColumn.property).Nodup := by
  induction selected generalizing columns with
  | nil =>
      rw [addColumns, List.map_nil, List.append_nil, Except.ok.injEq, eq_comm]
      exact (and_iff_left distinct).symm
  | cons c rest ih =>
      have hproperties : (Shape.node table keys columns []).properties =
          columns.map ShapeColumn.property := List.append_nil _
      have hconcat : c.column.property ∉ columns.map ShapeColumn.property →
          ((columns ++ [shapeColumn c]).map ShapeColumn.property).Nodup := by
        intro hfresh
        rw [List.map_append, List.map_singleton, ← List.concat_eq_append]
        exact List.Nodup.concat hfresh distinct
      rw [addColumns, List.map_cons, List.append_cons]
      constructor
      · intro h
        obtain ⟨next, hnext, h⟩ := bind_eq_ok.1 h
        obtain ⟨hfresh, rfl⟩ := Shape.addColumn_eq_ok.1 hnext
        exact (ih (hconcat (hproperties ▸ hfresh))).1 h
      · rintro ⟨rfl, hnodup⟩
        have hfresh : c.column.property ∉ columns.map ShapeColumn.property := by
          rw [List.map_append, List.map_append] at hnodup
          intro hmem
          exact (List.nodup_append.1 (List.nodup_append.1 hnodup).1).2.2 _ hmem _
            (List.mem_singleton.2 rfl) rfl
        exact bind_eq_ok.2 ⟨_, Shape.addColumn_eq_ok.2 ⟨hproperties ▸ hfresh, rfl⟩,
          (ih (hconcat hfresh)).2 ⟨rfl, hnodup⟩⟩

theorem isDistinct_bareShape :
    (s.bareShape t).IsDistinct ↔ (s.bareShape t).properties.Nodup :=
  Shape.isDistinct_iff.trans (and_iff_left fun _ hchild => nomatch hchild)

theorem tableShape_eq_ok :
    s.tableShape t = .ok shape ↔ shape = s.bareShape t ∧ (s.bareShape t).IsDistinct := by
  rw [isDistinct_bareShape, Shape.properties, bareShape, Shape.children, List.map_nil,
    List.append_nil]
  have hnone : (([] : List ShapeColumn).map ShapeColumn.property).Nodup := List.nodup_nil
  exact addColumns_eq_ok hnone

/-- Tables are nested into a shape exactly if no property is used twice. -/
theorem nestTables_eq_ok (distinct : shape.IsDistinct) :
    s.nestTables label shape tables = .ok shape' ↔
      shape' = shape.withChildren (s.nested label tables) ∧ shape'.IsDistinct := by
  induction tables generalizing label shape shape' with
  | nil =>
      rw [nestTables, nested, Shape.withChildren_nil, Except.ok.injEq, eq_comm]
      exact (and_iff_left_of_imp fun h => h ▸ distinct).symm
  | cons t later ih =>
      rw [nestTables, nested]
      cases t.link with
      | none => exact ih distinct
      | some link =>
          dsimp only
          split
          next =>
            rw [← List.singleton_append, ← Shape.withChildren_withChildren]
            constructor
            · intro h
              obtain ⟨bare, hbare, h⟩ := bind_eq_ok.1 h
              obtain ⟨rfl, hdistinct⟩ := tableShape_eq_ok.1 hbare
              obtain ⟨child, hchild, h⟩ := bind_eq_ok.1 h
              obtain ⟨rfl, hchild⟩ := (ih hdistinct).1 hchild
              obtain ⟨next, hnext, h⟩ := bind_eq_ok.1 h
              obtain ⟨hfresh, rfl⟩ := Shape.addChild_eq_ok.1 hnext
              refine (ih ?_).1 h
              exact (Shape.isDistinct_withChildren_singleton distinct).2 ⟨hfresh, hchild⟩
            · rintro ⟨rfl, hall⟩
              have hnext := hall.of_withChildren
              obtain ⟨hfresh, hchild⟩ := (Shape.isDistinct_withChildren_singleton distinct).1 hnext
              have hbare := hchild.of_withChildren
              exact bind_eq_ok.2 ⟨_, tableShape_eq_ok.2 ⟨rfl, hbare⟩,
                bind_eq_ok.2 ⟨_, (ih hbare).2 ⟨rfl, hchild⟩,
                  bind_eq_ok.2 ⟨_, Shape.addChild_eq_ok.2 ⟨hfresh, rfl⟩,
                    (ih hnext).2 ⟨rfl, hall⟩⟩⟩⟩
          next => exact ih distinct

/-- The shape can be built exactly if no property is used twice. -/
theorem shape_eq_ok :
    s.shape = .ok shape ↔ shape = s.nodeOf s.graph.base ∧ shape.IsDistinct := by
  constructor
  · intro h
    obtain ⟨bare, hbare, h⟩ := bind_eq_ok.1 h
    obtain ⟨rfl, hdistinct⟩ := tableShape_eq_ok.1 hbare
    exact (nestTables_eq_ok hdistinct).1 h
  · rintro ⟨rfl, hdistinct⟩
    have hbare := hdistinct.of_withChildren
    exact bind_eq_ok.2 ⟨_, tableShape_eq_ok.2 ⟨rfl, hbare⟩,
      (nestTables_eq_ok hbare).2 ⟨rfl, hdistinct⟩⟩

/-! ### One node for each table -/

theorem nested_append (h : ∀ other ∈ earlier, other.parent? ≠ some label)
    (later : List GraphTable) : s.nested label (earlier ++ later) = s.nested label later := by
  induction earlier with
  | nil => rfl
  | cons t earlier ih =>
      obtain ⟨ht, hrest⟩ := List.forall_mem_cons.1 h
      rw [List.cons_append, nested, ih hrest]
      cases hlink : t.link with
      | none => rfl
      | some link =>
          dsimp only
          rw [if_neg]
          intro hparent
          rw [GraphTable.parent?, hlink, Option.map_some, hparent] at ht
          exact ht rfl

/-- What is nested under a table comes after it. -/
theorem nodeOf_eq (h : s.graph.IsCoherent) (hsplit : s.graph.joined = earlier ++ t :: later) :
    s.nodeOf t = (s.bareShape t).withChildren (s.nested t.alias later) := by
  rw [nodeOf, hsplit, List.append_cons,
    nested_append fun other hother => h.parent?_ne_of_mem hsplit hother]

theorem nested_cons_of_eq (h : s.graph.IsCoherent)
    (hsplit : s.graph.joined = earlier ++ t :: later) {link : Link} (hlink : t.link = some link)
    (hparent : link.parent = label) :
    s.nested label (t :: later) = (link.relationship, s.nodeOf t) :: s.nested label later := by
  rw [nested, hlink, nodeOf_eq h hsplit]
  exact if_pos hparent

theorem nested_cons_of_ne {link : Link} (hlink : t.link = some link)
    (hparent : link.parent ≠ label) : s.nested label (t :: later) = s.nested label later := by
  rw [nested, hlink]
  exact if_neg hparent

/-- The nodes under some tables are those of the tables after them. -/
theorem perm_nodesOfEach (h : s.graph.IsCoherent) (hsplit : s.graph.joined = earlier ++ later) :
    (((s.graph.base :: earlier).map GraphTable.alias).flatMap fun label =>
      nodesOfEach (s.nested label later)).Perm (later.map s.nodeOf) := by
  induction later generalizing earlier with
  | nil =>
      exact .of_eq (List.flatMap_eq_nil_iff.2 fun _ _ => rfl)
  | cons t later ih =>
      obtain ⟨link, hlink, hparent⟩ := h.exists_parent hsplit
      have hnodup : ((s.graph.base :: earlier).map GraphTable.alias).Nodup := by
        have haliases := h.nodup_aliases
        rw [JoinGraph.tables, hsplit, ← List.cons_append, List.map_append] at haliases
        exact (List.nodup_append.1 haliases).1
      have hrest := ih (hsplit.trans (List.append_cons earlier t later))
      rw [← List.cons_append, List.map_append, List.flatMap_append, List.map_singleton,
        List.flatMap_singleton] at hrest
      have hmore : nodesOfEach (s.nested link.parent (t :: later)) =
          (s.nodeOf t :: nodesOfEach (s.nested t.alias later)) ++
            nodesOfEach (s.nested link.parent later) := by
        rw [nested_cons_of_eq h hsplit hlink rfl, nodesOfEach, nodeOf_eq h hsplit, Shape.nodes_eq]
        rfl
      refine (perm_flatMap_of_eq_append (g := fun label => nodesOfEach (s.nested label later))
        hnodup hparent hmore fun label _ hne => ?_).trans ?_
      · rw [nested_cons_of_ne hlink hne.symm]
      · rw [List.map_cons, List.cons_append]
        exact (List.perm_append_comm.trans hrest).cons _

/-- The shape has one node for each table. -/
theorem perm_nodes (h : s.graph.IsCoherent) :
    (s.nodeOf s.graph.base).nodes.Perm (s.graph.tables.map s.nodeOf) := by
  have hsplit : s.graph.joined = [] ++ s.graph.joined := rfl
  have hrest := perm_nodesOfEach h hsplit
  rw [List.map_singleton, List.flatMap_singleton] at hrest
  rw [Shape.nodes_eq]
  exact hrest.cons _

/-- The children of a node are the nodes of the tables joined to its table, in their order. -/
theorem nested_eq (h : s.graph.IsCoherent) (hsplit : s.graph.joined = earlier ++ later) :
    (s.nested label later).map (fun child => (some child.1, child.2)) =
      (later.filter fun t => t.parent? = some label).map fun t =>
        (t.link.map Link.relationship, s.nodeOf t) := by
  induction later generalizing earlier with
  | nil => rfl
  | cons t later ih =>
      obtain ⟨link, hlink, -⟩ := h.exists_parent hsplit
      have hrest := ih (hsplit.trans (List.append_cons earlier t later))
      have hparent? : t.parent? = some link.parent := by rw [GraphTable.parent?, hlink]; rfl
      by_cases hparent : link.parent = label
      · rw [nested_cons_of_eq h hsplit hlink hparent, List.map_cons, hrest,
          List.filter_cons_of_pos (by simp [hparent?, hparent]), List.map_cons, hlink]
        rfl
      · rw [nested_cons_of_ne hlink hparent, hrest,
          List.filter_cons_of_neg (by simp [hparent?, hparent])]

/-! ### The recursion over children -/

/-- Nest a table into a shape, once a recursion has given the shape of the table. -/
def nestChild (recurse : GraphTable → Except (Option QueryError) Shape) (shape : Shape)
    (t : GraphTable) : Except (Option QueryError) Shape :=
  match t.link with
  | none => .ok shape
  | some link => do
      let child ← recurse t
      (shape.addChild link.relationship child).mapError some

/-- The shape of a table, by recursion over the tables that the graph has under
each alias. It fails without an error of its own where it would go deeper than allowed. -/
def shapeWithin (s : Select) : Nat → GraphTable → Except (Option QueryError) Shape
  | 0, _ => .error none
  | depth + 1, t => do
      let bare ← (s.tableShape t).mapError some
      (s.graph.children t.alias).foldlM (nestChild (s.shapeWithin depth)) bare

/-- As deep as there are tables left, the recursion does what a walk over those tables does. -/
theorem foldlM_nestChild (h : s.graph.IsCoherent) {depth : Nat}
    (hsplit : s.graph.joined = earlier ++ later) (deep : later.length ≤ depth) :
    (later.filter fun t => t.parent? = some label).foldlM (nestChild (s.shapeWithin depth)) shape =
      (s.nestTables label shape later).mapError some := by
  induction later generalizing earlier label shape depth with
  | nil => rfl
  | cons t later ih =>
      obtain ⟨link, hlink, -⟩ := h.exists_parent hsplit
      have hsplit' := hsplit.trans (List.append_cons earlier t later)
      have hdeep : later.length ≤ depth := Nat.le_of_succ_le deep
      have hparent? : t.parent? = some link.parent := by rw [GraphTable.parent?, hlink]; rfl
      rw [nestTables, hlink]
      dsimp only
      split
      next hparent =>
        obtain ⟨depth, rfl⟩ := Nat.exists_eq_add_one_of_ne_zero (Nat.ne_zero_of_lt deep)
        rw [List.filter_cons_of_pos (by simp [hparent?, hparent]), List.foldlM_cons, nestChild,
          hlink, shapeWithin, h.children_eq hsplit]
        simp only [mapError_bind, bind_assoc, ih hsplit' (Nat.le_of_succ_le_succ deep),
          ih hsplit' hdeep]
      next hparent =>
        rw [List.filter_cons_of_neg (by simp [hparent?, hparent])]
        exact ih hsplit' hdeep

/-- The recursion ends, and its outcome is the shape. -/
theorem shapeWithin_base (h : s.graph.IsCoherent) {depth : Nat}
    (deep : s.graph.tables.length ≤ depth) :
    s.shapeWithin depth s.graph.base = s.shape.mapError some := by
  obtain ⟨depth, rfl⟩ := Nat.exists_eq_add_one_of_ne_zero (Nat.ne_zero_of_lt deep)
  rw [shapeWithin, h.children_eq_filter, Select.shape, mapError_bind]
  simp only [foldlM_nestChild h (List.nil_append _).symm (Nat.le_of_succ_le_succ deep)]

end Select

end EntityQuery
