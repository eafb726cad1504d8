import EntityQuery.Catalog.Basic
import EntityQuery.Proofs.Except
import Mathlib.Data.List.Nodup

/-!
# What a catalog promises

The declarations of a catalog have no fault. So its relationships connect declared
entities, and an owner, a target and a property have one relationship at most: to look one
up finds it. A column of one of its tables holds the values of a property as they are saved.
-/

namespace EntityQuery

/-- What the database holds for a value of a column: what the column's converter makes of it on
saving, or the value itself where nothing is made of it. -/
def Column.saved (column : Column) (value : Json) : Json :=
  ((column.converter.bind Converter.onSave).getD id) value

theorem Column.save_eq_saved (column : Column) (value : Json) :
    column.save value = column.saved value := by
  rw [save, saved]
  cases column.converter with
  | none => rfl
  | some converter =>
      change converter.save value = (converter.onSave.getD id) value
      rw [Converter.save]
      cases converter.onSave <;> rfl

namespace Catalog

variable {catalog : Catalog} {table : Table} {r : Relationship}

/-- What comes after a declaration is new to it and to those before it. -/
theorem forall_notMem_cons_iff {α β : Type} {key : α → β} {first : α} {rest : List α}
    {declared : List β} :
    (∀ other ∈ rest, key other ∉ key first :: declared) ↔
      (∀ other ∈ rest, key other ∉ declared) ∧ key first ∉ rest.map key := by
  simp only [List.mem_cons, not_or, List.mem_map, not_exists, not_and, ← forall_and]
  exact forall₂_congr fun other _ => and_comm

theorem tableFault?_eq_none_iff {declared : List String} {tables : List Table} :
    tableFault? declared tables = none ↔
      (∀ table ∈ tables, table.primaryKey ≠ [] ∧ table.entity ∉ declared) ∧
      (tables.map Table.entity).Nodup := by
  induction tables generalizing declared with
  | nil => simp [tableFault?]
  | cons table rest ih =>
      rw [tableFault?, List.forall_mem_cons, List.map_cons, List.nodup_cons]
      by_cases hkey : table.primaryKey = []
      · simp [hkey]
      · by_cases hdeclared : table.entity ∈ declared
        · simp [hkey, hdeclared]
        · rw [if_neg (mt List.isEmpty_iff.1 hkey), if_neg hdeclared, ih]
          simp only [forall₂_and, forall_notMem_cons_iff, hkey, hdeclared, not_false_eq_true,
            ne_eq, true_and]
          tauto

theorem relationshipFault?_eq_none_iff {entities : List String} {declared : List (String × String)}
    {relationships : List Relationship} :
    relationshipFault? entities declared relationships = none ↔
      (∀ r ∈ relationships,
        r.owner ∈ entities ∧ r.target ∈ entities ∧ (r.owner, r.property) ∉ declared) ∧
      (relationships.map fun r => (r.owner, r.property)).Nodup := by
  induction relationships generalizing declared with
  | nil => simp [relationshipFault?]
  | cons r rest ih =>
      rw [relationshipFault?, List.forall_mem_cons, List.map_cons, List.nodup_cons]
      by_cases howner : r.owner ∈ entities
      · by_cases htarget : r.target ∈ entities
        · by_cases hpair : (r.owner, r.property) ∈ declared
          · simp [howner, htarget, hpair]
          · rw [if_neg (not_not.2 howner), if_neg (not_not.2 htarget), if_neg hpair, ih]
            have hfresh := @forall_notMem_cons_iff _ _
              (fun r : Relationship => (r.owner, r.property)) r rest declared
            simp only [forall₂_and, hfresh, howner, htarget, hpair, not_false_eq_true, true_and]
            tauto
        · simp [howner, htarget]
      · simp [howner]

theorem relationships_sound (catalog : Catalog) :
    (∀ r ∈ catalog.relationships, r.owner ∈ catalog.tables.map Table.entity ∧
      r.target ∈ catalog.tables.map Table.entity) ∧
    (catalog.relationships.map fun r => (r.owner, r.property)).Nodup := by
  obtain ⟨hconnects, hdistinct⟩ :=
    relationshipFault?_eq_none_iff.1 (Option.or_eq_none_iff.1 catalog.sound).2
  exact ⟨fun r hr => ⟨(hconnects r hr).1, (hconnects r hr).2.1⟩, hdistinct⟩

theorem tables_sound (catalog : Catalog) :
    (∀ table ∈ catalog.tables, table.primaryKey ≠ []) ∧
    (catalog.tables.map Table.entity).Nodup := by
  obtain ⟨hkeyed, hdistinct⟩ :=
    tableFault?_eq_none_iff.1 (Option.or_eq_none_iff.1 catalog.sound).1
  exact ⟨fun table htable => (hkeyed table htable).1, hdistinct⟩

theorem primaryKey_ne_nil (ht : table ∈ catalog.tables) : table.primaryKey ≠ [] :=
  catalog.tables_sound.1 table ht

theorem of_table {entity : String} {table : Table} (h : catalog.table entity = .ok table) :
    table ∈ catalog.tables ∧ table.entity = entity := by
  rw [Catalog.table] at h
  split at h
  next found hfound =>
    cases h
    have hentity := List.find?_some hfound
    exact ⟨List.mem_of_find?_eq_some hfound, of_decide_eq_true hentity⟩
  next => cases h

theorem of_relationship {owner target property : String} {r : Relationship}
    (h : catalog.relationship owner target property = .ok r) :
    r ∈ catalog.relationships ∧ r.owner = owner ∧ r.target = target ∧ r.property = property := by
  rw [relationship] at h
  split at h
  next found hfound =>
    cases h
    obtain ⟨hmem, howner⟩ := List.mem_filter.1 (List.mem_of_find?_eq_some hfound)
    have hpair := List.find?_some hfound
    obtain ⟨htarget, hproperty⟩ := of_decide_eq_true hpair
    exact ⟨hmem, of_decide_eq_true howner, htarget, hproperty⟩
  next => cases h

theorem error_of_relationship {owner target property : String} {e : QueryError}
    (h : catalog.relationship owner target property = .error e) :
    e = .unknownRelationship owner target property := by
  unfold relationship at h
  split at h
  next => cases h
  next => exact (Except.error.inj h).symm

/-- A declared entity has a table. -/
theorem exists_table {entity : String} (h : entity ∈ catalog.tables.map Table.entity) :
    ∃ table, catalog.table entity = .ok table := by
  rw [Catalog.table]
  cases hfound : catalog.tables.find? fun table => table.entity = entity with
  | some table => exact ⟨table, rfl⟩
  | none =>
      obtain ⟨table, hmem, hentity⟩ := List.mem_map.1 h
      exact absurd (decide_eq_true hentity) (List.find?_eq_none.1 hfound table hmem)

/-- The table of an entity is the one that is declared for it. -/
theorem table_eq_ok_iff {entity : String} :
    catalog.table entity = .ok table ↔ table ∈ catalog.tables ∧ table.entity = entity := by
  refine ⟨of_table, ?_⟩
  rintro ⟨hmem, rfl⟩
  obtain ⟨found, hfound⟩ := exists_table (List.mem_map_of_mem hmem)
  obtain ⟨hfoundMem, hentity⟩ := of_table hfound
  rw [hfound, List.inj_on_of_nodup_map catalog.tables_sound.2 hfoundMem hmem hentity]

theorem table_eq_error {entity : String} (h : entity ∉ catalog.tables.map Table.entity) :
    catalog.table entity = .error (.unknownEntity entity) := by
  rw [Catalog.table]
  split
  next found hfound =>
    have hentity := List.find?_some hfound
    obtain rfl := of_decide_eq_true hentity
    exact absurd (List.mem_map_of_mem (List.mem_of_find?_eq_some hfound)) h
  next => rfl

/-- A declared relationship is found by its owner, its target and its property. -/
theorem relationship_of_mem (hr : r ∈ catalog.relationships) :
    catalog.relationship r.owner r.target r.property = .ok r := by
  have hmem : r ∈ catalog.relationshipsOf r.owner :=
    List.mem_filter.2 ⟨hr, decide_eq_true rfl⟩
  rw [relationship]
  cases hfound : (catalog.relationshipsOf r.owner).find? fun other =>
      other.target = r.target ∧ other.property = r.property with
  | some found =>
      obtain ⟨hfoundMem, howner⟩ := List.mem_filter.1 (List.mem_of_find?_eq_some hfound)
      have hsame := List.find?_some hfound
      obtain ⟨-, hproperty⟩ := of_decide_eq_true hsame
      have hpair : (found.owner, found.property) = (r.owner, r.property) :=
        Prod.ext (of_decide_eq_true howner) hproperty
      exact congrArg _ (List.inj_on_of_nodup_map catalog.relationships_sound.2 hfoundMem hr hpair)
  | none => exact absurd (decide_eq_true ⟨rfl, rfl⟩) (List.find?_eq_none.1 hfound r hmem)

theorem relationship_eq_ok_iff {owner target property : String} :
    catalog.relationship owner target property = .ok r ↔
      r ∈ catalog.relationships ∧ r.owner = owner ∧ r.target = target ∧ r.property = property := by
  refine ⟨of_relationship, ?_⟩
  rintro ⟨hmem, rfl, rfl, rfl⟩
  exact relationship_of_mem hmem

end Catalog

end EntityQuery
