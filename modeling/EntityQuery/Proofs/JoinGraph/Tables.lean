import EntityQuery.Proofs.JoinGraph.Calls

/-!
# The tables of a graph come from its catalog

Calls on a graph change neither its catalog nor its dialect, and whatever table
they join is the one that the catalog has for its entity. So every table of a
graph has a key, as a catalog asks of its tables.
-/

namespace EntityQuery

namespace JoinGraph

variable {g g' : JoinGraph}

/-- A graph is over a catalog and in a dialect, and its tables are of the catalog. -/
structure IsOver (g : JoinGraph) (catalog : Catalog) (dialect : Sql.Dialect) : Prop where
  catalog_eq : g.catalog = catalog
  dialect_eq : g.dialect = dialect
  table_eq : ∀ t ∈ g.tables, catalog.table t.table.entity = .ok t.table

variable {catalog : Catalog} {dialect : Sql.Dialect}

theorem IsOver.primaryKey_ne_nil (h : g.IsOver catalog dialect) {t : GraphTable}
    (ht : t ∈ g.tables) : t.table.primaryKey ≠ [] :=
  Catalog.primaryKey_ne_nil (Catalog.of_table (h.table_eq t ht)).1

theorem isOver_start {entity label : String} (h : start catalog dialect entity label = .ok g) :
    g.IsOver catalog dialect := by
  obtain ⟨_, -, h⟩ := bind_eq_ok.1 h
  obtain ⟨table, htable, h⟩ := bind_eq_ok.1 h
  obtain rfl := pure_eq_ok.1 h
  obtain ⟨-, rfl⟩ := Catalog.of_table htable
  exact ⟨rfl, rfl, List.forall_mem_singleton.2 htable⟩

theorem IsOver.withTable (h : g.IsOver catalog dialect) {spec : TableSpec}
    (hg : g.withTable spec = .ok g') : g'.IsOver catalog dialect := by
  obtain ⟨rfl, rfl, htables⟩ := h
  obtain ⟨table, link, restriction, -, -, htable, -, -, rfl⟩ := of_withTable hg
  obtain ⟨-, hentity⟩ := Catalog.of_table htable
  refine ⟨rfl, rfl, List.forall_mem_append.2 ⟨htables, List.forall_mem_singleton.2 ?_⟩⟩
  exact hentity ▸ htable

theorem IsOver.withFilter (h : g.IsOver catalog dialect) {condition : Json} {values : Values}
    (hg : g.withFilter condition values = .ok g') : g'.IsOver catalog dialect := by
  rcases of_withFilter hg with ⟨-, rfl⟩ | ⟨-, restriction, -, rfl⟩
  · exact ⟨h.catalog_eq, h.dialect_eq, h.table_eq⟩
  · exact ⟨h.catalog_eq, h.dialect_eq, List.forall_mem_cons.2 (List.forall_mem_cons.1 h.table_eq)⟩

theorem IsOver.perform (h : g.IsOver catalog dialect) (call : GraphCall) :
    (g.perform call).IsOver catalog dialect := by
  rcases perform_cases g call with ⟨spec, hg⟩ | ⟨condition, values, hg⟩ | ⟨parameters, -, hg⟩
  · exact h.withTable hg
  · exact h.withFilter hg
  · rw [hg]
    exact ⟨h.catalog_eq, h.dialect_eq, h.table_eq⟩

/-- Any calls leave the catalog and the dialect, and join tables of the catalog. -/
theorem isOver_after {entity label : String} (h : start catalog dialect entity label = .ok g)
    (calls : List GraphCall) : (g.after calls).IsOver catalog dialect := by
  have hstart := isOver_start h
  clear h
  induction calls generalizing g with
  | nil => exact hstart
  | cons call calls ih => exact ih (hstart.perform call)

end JoinGraph

end EntityQuery
