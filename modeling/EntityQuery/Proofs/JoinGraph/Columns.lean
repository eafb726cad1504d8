import EntityQuery.Proofs.JoinGraph.Coherence

/-!
# The available columns

The available columns of a graph are those of its tables, each under the alias
of its table. A property is available exactly if some column has it, and it
says the alias of that column.
-/

namespace EntityQuery

/-- Distinct properties are distinct under an alias. -/
theorem GraphColumn.nodup_properties (label : String) {columns : List Column}
    (distinct : (columns.map Column.property).Nodup) :
    ((columns.map (GraphColumn.mk label)).map GraphColumn.property).Nodup := by
  rw [List.map_map]
  have hmap := List.Nodup.map (f := fun property => label ++ "." ++ property)
    (fun _ _ => (String.append_right_inj _).1) distinct
  rwa [List.map_map] at hmap

/-- Where properties are distinct, each of them stands for its column. -/
theorem GraphTable.get?_lookup {t : GraphTable}
    (distinct : (t.table.columns.map Column.property).Nodup) {c : GraphColumn}
    (hc : c ∈ t.columns) : t.lookup.get? c.property = some c.reference := by
  refine Dict.get?_ofList_of_mem ?_ (List.mem_map.2 ⟨c, hc, rfl⟩)
  rw [List.map_map]
  exact GraphColumn.nodup_properties t.alias distinct

namespace JoinGraph

variable {g : JoinGraph} {property : String} {c c' : GraphColumn}

/-- A look-up of tables binds their properties and nothing else. -/
theorem contains_iff_mem_properties {lookup : Dict String} {tables : List GraphTable}
    (h : lookup.IsDisjointUnion (tables.map GraphTable.lookup)) :
    lookup.contains property = true ↔ property ∈ tables.flatMap GraphTable.properties := by
  refine ⟨mem_properties_of_contains h, fun hproperty => ?_⟩
  obtain ⟨t, ht, hmem⟩ := List.mem_flatMap.1 hproperty
  obtain ⟨reference, hreference⟩ :=
    Option.ne_none_iff_exists'.1 (GraphTable.get?_of_mem_properties hmem)
  exact Option.isSome_iff_exists.2 ⟨reference,
    (h.get?_eq_some _ _).2 ⟨t.lookup, List.mem_map_of_mem ht, hreference⟩⟩

theorem of_column (h : g.column property = .ok c) : c ∈ g.columns ∧ c.property = property := by
  rw [column] at h
  split at h
  next found hfound =>
    obtain rfl := Except.ok.inj h
    have hproperty := List.find?_some hfound
    exact ⟨List.mem_of_find?_eq_some hfound, of_decide_eq_true hproperty⟩
  next => cases h

/-- Where properties are distinct, the column of a property is the only one. -/
theorem column_of_mem (distinct : (g.columns.map GraphColumn.property).Nodup)
    (hc : c ∈ g.columns) : g.column c.property = .ok c := by
  rw [column]
  cases hfound : g.column? c.property with
  | none =>
      have hnone := List.find?_eq_none.1 hfound c hc
      simp at hnone
  | some found =>
      have hproperty := List.find?_some hfound
      have hmem := List.mem_of_find?_eq_some hfound
      rw [List.inj_on_of_nodup_map distinct hmem hc (of_decide_eq_true hproperty)]

theorem exists_column_iff :
    (∃ c, g.column property = .ok c) ↔ ∃ c ∈ g.columns, c.property = property := by
  refine ⟨fun ⟨c, h⟩ => ⟨c, of_column h⟩, fun ⟨c, hc, hproperty⟩ => ?_⟩
  rw [column]
  cases hfound : g.column? property with
  | some found => exact ⟨found, rfl⟩
  | none => exact absurd (decide_eq_true hproperty) (List.find?_eq_none.1 hfound c hc)

namespace IsCoherent

variable (h : g.IsCoherent)

include h

theorem isAvailable_iff :
    g.isAvailable property = true ↔ ∃ c ∈ g.columns, c.property = property := by
  rw [isAvailable, contains_iff_mem_properties h.isDisjointUnion_lookup, h.columns_eq]
  have hproperties : g.tables.flatMap GraphTable.properties =
      (g.tables.flatMap GraphTable.columns).map GraphColumn.property :=
    (List.map_flatMap ..).symm
  rw [hproperties, List.mem_map]

theorem exists_of_mem_columns (hc : c ∈ g.columns) : ∃ t ∈ g.tables, c ∈ t.columns := by
  rw [h.columns_eq] at hc
  exact List.mem_flatMap.1 hc

theorem isName_of_mem_columns (hc : c ∈ g.columns) : Text.isName c.alias = true := by
  obtain ⟨t, ht, hc⟩ := h.exists_of_mem_columns hc
  obtain ⟨column, -, rfl⟩ := List.mem_map.1 hc
  exact h.isName_alias t ht

theorem mem_columns_of_keyColumns {t : GraphTable} (ht : t ∈ g.tables) (hc : c ∈ t.keyColumns) :
    c ∈ g.columns := by
  obtain ⟨key, hkey, rfl⟩ := List.mem_map.1 hc
  rw [h.columns_eq]
  exact List.mem_flatMap.2 ⟨t, ht, List.mem_map_of_mem (List.mem_filter.1 hkey).1⟩

/-- Where each table has distinct properties, no two available columns have the same. -/
theorem nodup_properties
    (distinct : ∀ t ∈ g.tables, (t.table.columns.map Column.property).Nodup) :
    (g.columns.map GraphColumn.property).Nodup := by
  rw [h.columns_eq, List.map_flatMap, List.nodup_flatMap]
  refine ⟨fun t ht => GraphColumn.nodup_properties t.alias (distinct t ht), ?_⟩
  refine (List.pairwise_map.1 h.nodup_aliases).imp_of_mem fun ht hother hne property hmem hmem' => ?_
  exact hne (GraphTable.alias_eq_of_mem_properties (h.isName_alias _ ht)
    (h.isName_alias _ hother) hmem hmem')

/-- Available columns of one property have the same alias. -/
theorem eq_of_property_eq (hc : c ∈ g.columns) (hc' : c' ∈ g.columns)
    (heq : c.property = c'.property) :
    c.alias = c'.alias ∧ c.column.property = c'.column.property :=
  GraphColumn.eq_of_property_eq (h.isName_of_mem_columns hc) (h.isName_of_mem_columns hc') heq

end IsCoherent

end JoinGraph

end EntityQuery
