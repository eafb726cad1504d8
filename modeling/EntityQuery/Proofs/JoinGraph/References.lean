import EntityQuery.Proofs.JoinGraph.Columns
import EntityQuery.Proofs.JoinGraph.Tables

/-!
# What a property refers to

A graph answers in two ways which column a property stands for. Statements search
its columns from the front (`column?`); conditions ask its look-up, which was
filled column by column and so answers with the last one. Both know the same
properties, and where they answer differently, a table has several columns of one
property under different names (`column_agrees_with_lookup`).
-/

namespace EntityQuery

/-- Columns of a table that have the same property have the same name. -/
def Table.IsUnambiguous (table : Table) : Prop :=
  ∀ c ∈ table.columns, ∀ c' ∈ table.columns, c.property = c'.property → c.name = c'.name

instance (table : Table) : Decidable table.IsUnambiguous :=
  inferInstanceAs (Decidable (∀ c ∈ table.columns, ∀ c' ∈ table.columns, _ → _))

/-- Under one alias, references differ as the names of the columns do. -/
theorem GraphColumn.reference_eq_iff {c c' : GraphColumn} (h : c.alias = c'.alias) :
    c.reference = c'.reference ↔ c.column.name = c'.column.name := by
  rw [reference, reference, h, String.append_right_inj]

namespace JoinGraph

variable {g g' : JoinGraph}

/-- The last available column of a property. -/
def lastColumn? (g : JoinGraph) (property : String) : Option GraphColumn :=
  g.columns.reverse.find? fun c => c.property = property

/-- The look-up of a graph was filled with its columns in order. -/
def IsIndexed (g : JoinGraph) : Prop :=
  g.lookup = Dict.ofList (g.columns.map fun c => (c.property, c.reference))

namespace IsIndexed

/-- The look-up of a property answers with its last column. -/
theorem get?_lookup (h : g.IsIndexed) (property : String) :
    g.lookup.get? property = (g.lastColumn? property).map GraphColumn.reference := by
  calc
    g.lookup.get? property
        = Dict.lookup property (g.columns.map fun c => (c.property, c.reference)).reverse := by
          rw [h, Dict.get?_ofList]
    _ = Dict.lookup property (g.columns.reverse.map fun c => (c.property, c.reference)) := by
          rw [List.map_reverse]
    _ = (g.lastColumn? property).map GraphColumn.reference := Dict.lookup_map _ _ _ _

theorem withTable (h : g.IsIndexed) {spec : TableSpec} (hg : g.withTable spec = .ok g') :
    g'.IsIndexed := by
  obtain ⟨table, link, restriction, -, -, -, -, -, rfl⟩ := of_withTable hg
  change extendLookup g.lookup _ = Dict.ofList ((g.columns ++ _).map _)
  rw [extendLookup, h, Dict.insertAll_ofList, List.map_append]

theorem withFilter (h : g.IsIndexed) {condition : Json} {values : Values}
    (hg : g.withFilter condition values = .ok g') : g'.IsIndexed := by
  rcases of_withFilter hg with ⟨-, rfl⟩ | ⟨-, restriction, -, rfl⟩
  · exact h
  · exact h

theorem perform (h : g.IsIndexed) (call : GraphCall) : (g.perform call).IsIndexed := by
  rcases perform_cases g call with ⟨spec, hg⟩ | ⟨condition, values, hg⟩ | ⟨parameters, -, hg⟩
  · exact h.withTable hg
  · exact h.withFilter hg
  · exact hg ▸ h

end IsIndexed

variable {catalog : Catalog} {dialect : Sql.Dialect} {entity label : String}

theorem isIndexed_start (h : start catalog dialect entity label = .ok g) : g.IsIndexed := by
  obtain ⟨_, -, h⟩ := bind_eq_ok.1 h
  obtain ⟨table, -, h⟩ := bind_eq_ok.1 h
  obtain rfl := pure_eq_ok.1 h
  rfl

/-- After any calls, the look-up is the index of the columns. -/
theorem isIndexed_after (h : start catalog dialect entity label = .ok g) (calls : List GraphCall) :
    (g.after calls).IsIndexed := by
  have hstart := isIndexed_start h
  clear h
  induction calls generalizing g with
  | nil => exact hstart
  | cons call calls ih => exact ih (hstart.perform call)

/-- Columns of one property are columns of one table. -/
theorem IsCoherent.exists_table_of_property_eq (h : g.IsCoherent) {c c' : GraphColumn}
    (hc : c ∈ g.columns) (hc' : c' ∈ g.columns) (heq : c.property = c'.property) :
    ∃ t ∈ g.tables, c ∈ t.columns ∧ c' ∈ t.columns := by
  obtain ⟨t, ht, hmem⟩ := h.exists_of_mem_columns hc
  obtain ⟨t', ht', hmem'⟩ := h.exists_of_mem_columns hc'
  have halias : t.alias = t'.alias := by
    obtain ⟨column, -, rfl⟩ := List.mem_map.1 hmem
    obtain ⟨column', -, rfl⟩ := List.mem_map.1 hmem'
    exact (h.eq_of_property_eq hc hc' heq).1
  obtain rfl := List.inj_on_of_nodup_map h.nodup_aliases ht ht' halias
  exact ⟨t, ht, hmem, hmem'⟩

/-- Whatever calls have been made, a property is available exactly if some column
has it, and the look-up answers with the last such column. That is the column that
statements use, or one of another name in the same table; the latter cannot be
where no table of the catalog is ambiguous. -/
theorem column_agrees_with_lookup (h : start catalog dialect entity label = .ok g)
    (calls : List GraphCall) (property : String) :
    ((g.after calls).isAvailable property = true ↔
        ∃ c, (g.after calls).column property = .ok c) ∧
      ∀ c, (g.after calls).column property = .ok c →
        ∃ last, (g.after calls).lastColumn? property = some last ∧
          (∃ t ∈ (g.after calls).tables, c ∈ t.columns ∧ last ∈ t.columns) ∧
          (g.after calls).lookup.get? property = some last.reference ∧
          ((g.after calls).lookup.get? property = some c.reference ↔
            c.column.name = last.column.name) ∧
          ((∀ table ∈ catalog.tables, table.IsUnambiguous) →
            (g.after calls).lookup.get? property = some c.reference) := by
  have hcoherent := (isCoherent_start h).after calls
  have hover := isOver_after h calls
  have hindexed := isIndexed_after h calls
  generalize g.after calls = g' at hcoherent hover hindexed
  refine ⟨hcoherent.isAvailable_iff.trans exists_column_iff.symm, fun c hcolumn => ?_⟩
  obtain ⟨hc, hproperty⟩ := of_column hcolumn
  obtain ⟨last, hlast⟩ : ∃ last, g'.lastColumn? property = some last := by
    rw [← Option.isSome_iff_exists, lastColumn?, List.find?_isSome]
    exact ⟨c, List.mem_reverse.2 hc, decide_eq_true hproperty⟩
  have hmem : last ∈ g'.columns := List.mem_reverse.1 (List.mem_of_find?_eq_some hlast)
  have hsame : last.property = property := by simpa using List.find?_some hlast
  have heq : c.property = last.property := hproperty.trans hsame.symm
  -- both columns are of one table, so references to them differ in the column's name at most
  obtain ⟨hlabel, hown⟩ := hcoherent.eq_of_property_eq hc hmem heq
  have hlookup : g'.lookup.get? property = some last.reference := by
    rw [hindexed.get?_lookup, hlast, Option.map_some]
  have hagree : g'.lookup.get? property = some c.reference ↔ c.column.name = last.column.name := by
    rw [hlookup, Option.some_inj, eq_comm, GraphColumn.reference_eq_iff hlabel]
  obtain ⟨t, ht, hct, hlastt⟩ := hcoherent.exists_table_of_property_eq hc hmem heq
  refine ⟨last, hlast, ⟨t, ht, hct, hlastt⟩, hlookup, hagree, fun unambiguous => hagree.2 ?_⟩
  obtain ⟨first, hfirst, rfl⟩ := List.mem_map.1 hct
  obtain ⟨other, hother, rfl⟩ := List.mem_map.1 hlastt
  have htable := (Catalog.of_table (hover.table_eq t ht)).1
  exact unambiguous t.table htable first hfirst other hother hown

theorem column_agrees_with_lookup_phoneCalls :
    ∃ g c, start phoneBook .mysql "User" "u" = .ok g ∧
      (∀ table ∈ phoneBook.tables, table.IsUnambiguous) ∧
      (g.after phoneCalls).column "p.owner" = .ok c ∧ c.reference = "p.user_id" ∧
      (g.after phoneCalls).lookup.get? "p.owner" = some c.reference := by
  have hname : checkAlias "u" = .ok () := if_pos (by decide +kernel)
  have hunambiguous : ∀ table ∈ phoneBook.tables, table.IsUnambiguous := by decide +kernel
  obtain ⟨g, hg, hcolumn⟩ : ∃ g, start phoneBook .mysql "User" "u" = .ok g ∧
      ((g.after phoneCalls).column "p.owner").map GraphColumn.reference = .ok "p.user_id" := by
    rw [start, hname]
    exact ⟨_, rfl, by decide +kernel⟩
  obtain ⟨c, hcolumn, hreference⟩ := map_eq_ok.1 hcolumn
  obtain ⟨last, -, -, -, -, hlookup⟩ :=
    (column_agrees_with_lookup hg phoneCalls "p.owner").2 c hcolumn
  exact ⟨g, c, hg, hunambiguous, hcolumn, hreference, hlookup hunambiguous⟩

/-- Users that are known under a new identifier and an old one. -/
def renumbered : Catalog where
  tables := [
    { entity := "User", name := "users",
      columns := [{ name := "user_id", property := "id", isPrimary := true },
        { name := "legacy_id", property := "id" }] }]
  relationships := []
  sound := by decide

/-- Statements choose the new identifier and conditions the old one. -/
theorem column_differs_from_lookup_renumbered :
    ∃ g, start renumbered .mysql "User" "u" = .ok g ∧
      (g.column "u.id").map GraphColumn.reference = .ok "u.user_id" ∧
      g.lookup.get? "u.id" = some "u.legacy_id" ∧
      (g.withFilter (.obj [("$eq", .obj [("u.id", .num "1")])]) ∅).map (·.base.sql) =
        .ok (some "`u`.`legacy_id` = 1") := by
  have hname : checkAlias "u" = .ok () := if_pos (by decide +kernel)
  rw [start, hname]
  exact ⟨_, rfl, by decide +kernel, by decide +kernel, by decide +kernel⟩

end JoinGraph

end EntityQuery
