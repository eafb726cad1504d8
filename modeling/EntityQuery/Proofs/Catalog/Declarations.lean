import EntityQuery.Proofs.Catalog

/-!
# Declarations of catalogs

A catalog is built from declarations exactly if its tables are keyed and its relationships
connect them; otherwise the first declaration that is faulty after those before it is
reported, tables before relationships (`Catalog.FirstFault`). In a catalog that was built,
look-ups find what was declared and nothing else.
-/

namespace EntityQuery

/-- What is wrong with a table after some entities. A missing key comes first. -/
inductive Table.IsFaulty (declared : List String) (table : Table) : QueryError → Prop
  | keyless (keyless : table.primaryKey = []) :
      IsFaulty declared table (.noPrimaryKey table.entity)
  | repeated (keyed : table.primaryKey ≠ []) (repeated : table.entity ∈ declared) :
      IsFaulty declared table (.duplicateEntity table.entity)

/-- What is wrong with a relationship between some entities, after some pairs of an owner and
a property. The owner comes before the target, and both before the pair. -/
inductive Relationship.IsFaulty (entities : List String) (declared : List (String × String))
    (r : Relationship) : QueryError → Prop
  | owner (unknown : r.owner ∉ entities) :
      IsFaulty entities declared r (.unknownEntity r.owner)
  | target (owner : r.owner ∈ entities) (unknown : r.target ∉ entities) :
      IsFaulty entities declared r (.unknownEntity r.target)
  | repeated (owner : r.owner ∈ entities) (target : r.target ∈ entities)
      (repeated : (r.owner, r.property) ∈ declared) :
      IsFaulty entities declared r (.duplicateRelationship r.owner r.property)

namespace Catalog

/-- Tables with keys, of different entities. -/
structure AreKeyed (tables : List Table) : Prop where
  keyed : ∀ table ∈ tables, table.primaryKey ≠ []
  nodup_entities : (tables.map Table.entity).Nodup

/-- Relationships between some entities, of different owners or properties. -/
structure AreConnected (entities : List String) (relationships : List Relationship) : Prop where
  owner_mem : ∀ r ∈ relationships, r.owner ∈ entities
  target_mem : ∀ r ∈ relationships, r.target ∈ entities
  nodup_properties : (relationships.map fun r => (r.owner, r.property)).Nodup

/-- The first fault of declarations: that of a table after sound tables, or of a relationship
after sound relationships where all tables are sound. -/
inductive FirstFault (tables : List Table) (relationships : List Relationship) :
    QueryError → Prop
  | table {before after : List Table} {table : Table} {e : QueryError}
      (split : tables = before ++ table :: after) (sound : AreKeyed before)
      (faulty : table.IsFaulty (before.map Table.entity) e) : FirstFault tables relationships e
  | relationship {before after : List Relationship} {r : Relationship} {e : QueryError}
      (keyed : AreKeyed tables) (split : relationships = before ++ r :: after)
      (sound : AreConnected (tables.map Table.entity) before)
      (faulty : r.IsFaulty (tables.map Table.entity)
        (before.map fun r => (r.owner, r.property)) e) : FirstFault tables relationships e

variable {catalog : Catalog} {tables : List Table} {relationships : List Relationship}
  {declared : List String} {entities : List String} {pairs : List (String × String)}
  {e : QueryError}

/-! ### Checks in order of declaration -/

/-- The first fault of declarations, each looked at after the keys of those before it. -/
def scan {α κ ε : Type} (key : α → κ) (fault? : List κ → α → Option ε) (seen : List κ) :
    List α → Option ε
  | [] => none
  | x :: rest => (fault? seen x).or (scan key fault? (key x :: seen) rest)

/-- A fault is found at the first declaration that has one after those before it. -/
theorem scan_eq_some_iff {α κ ε : Type} {key : α → κ} {fault? : List κ → α → Option ε}
    {seen : List κ} {xs : List α} {e : ε} :
    scan key fault? seen xs = some e ↔ ∃ before x after, xs = before ++ x :: after ∧
      scan key fault? seen before = none ∧
      fault? ((before.map key).reverse ++ seen) x = some e := by
  induction xs generalizing seen with
  | nil => simp [scan]
  | cons first rest ih =>
      rw [scan, Option.or_eq_some_iff, ih]
      constructor
      · rintro (hfirst | ⟨hnone, before, x, after, rfl, hsound, hfault⟩)
        · exact ⟨[], first, rest, rfl, rfl, hfirst⟩
        · refine ⟨first :: before, x, after, rfl, ?_, by simpa using hfault⟩
          rw [scan, hnone, Option.none_or, hsound]
      · rintro ⟨before, x, after, hsplit, hsound, hfault⟩
        cases before with
        | nil =>
            obtain ⟨rfl, rfl⟩ := List.cons.inj hsplit
            exact .inl hfault
        | cons y before =>
            obtain ⟨rfl, rfl⟩ := List.cons.inj hsplit
            rw [scan, Option.or_eq_none_iff] at hsound
            exact .inr ⟨hsound.1, before, x, after, rfl, hsound.2, by simpa using hfault⟩

theorem tableFault?_eq_scan (declared : List String) (tables : List Table) :
    tableFault? declared tables =
      scan Table.entity (fun declared table => tableFault? declared [table]) declared tables := by
  induction tables generalizing declared with
  | nil => rfl
  | cons table rest ih =>
      rw [scan, ← ih, tableFault?, tableFault?]
      split
      next => rfl
      next =>
        split
        next => rfl
        next => rfl

theorem relationshipFault?_eq_scan (entities : List String) (pairs : List (String × String))
    (relationships : List Relationship) :
    relationshipFault? entities pairs relationships =
      scan (fun r => (r.owner, r.property))
        (fun pairs r => relationshipFault? entities pairs [r]) pairs relationships := by
  induction relationships generalizing pairs with
  | nil => rfl
  | cons r rest ih =>
      rw [scan, ← ih, relationshipFault?, relationshipFault?]
      split
      next => rfl
      next =>
        split
        next => rfl
        next =>
          split
          next => rfl
          next => rfl

/-! ### Single declarations -/

theorem tableFault?_singleton_iff {table : Table} :
    tableFault? declared [table] = some e ↔ table.IsFaulty declared e := by
  rw [tableFault?]
  constructor
  · intro h
    split at h
    next hkey =>
      cases h
      exact .keyless (List.isEmpty_iff.1 hkey)
    next hkey =>
      split at h
      next hrepeated =>
        cases h
        exact .repeated (mt List.isEmpty_iff.2 hkey) hrepeated
      next => cases h
  · intro h
    cases h with
    | keyless hkey => rw [if_pos (List.isEmpty_iff.2 hkey)]
    | repeated hkeyed hrepeated => rw [if_neg (mt List.isEmpty_iff.1 hkeyed), if_pos hrepeated]

theorem relationshipFault?_singleton_iff {r : Relationship} :
    relationshipFault? entities pairs [r] = some e ↔ r.IsFaulty entities pairs e := by
  rw [relationshipFault?]
  constructor
  · intro h
    split at h
    next howner =>
      cases h
      exact .owner howner
    next howner =>
      split at h
      next htarget =>
        cases h
        exact .target (not_not.1 howner) htarget
      next htarget =>
        split at h
        next hrepeated =>
          cases h
          exact .repeated (not_not.1 howner) (not_not.1 htarget) hrepeated
        next => cases h
  · intro h
    cases h with
    | owner howner => rw [if_pos howner]
    | target howner htarget => rw [if_neg (not_not.2 howner), if_pos htarget]
    | repeated howner htarget hrepeated =>
        rw [if_neg (not_not.2 howner), if_neg (not_not.2 htarget), if_pos hrepeated]

/-- Only which entities were declared before matters, not their order. -/
theorem tableFault?_singleton_reverse (declared : List String) (table : Table) :
    tableFault? declared.reverse [table] = tableFault? declared [table] := by
  simp only [tableFault?, List.mem_reverse]

theorem relationshipFault?_singleton_reverse (entities : List String)
    (pairs : List (String × String)) (r : Relationship) :
    relationshipFault? entities pairs.reverse [r] = relationshipFault? entities pairs [r] := by
  simp only [relationshipFault?, List.mem_reverse]

/-! ### All declarations -/

theorem areKeyed_iff : AreKeyed tables ↔ tableFault? [] tables = none := by
  rw [tableFault?_eq_none_iff]
  constructor
  · intro h
    exact ⟨fun table htable => ⟨h.keyed table htable, List.not_mem_nil⟩, h.nodup_entities⟩
  · rintro ⟨hkeyed, hdistinct⟩
    exact ⟨fun table htable => (hkeyed table htable).1, hdistinct⟩

theorem areConnected_iff :
    AreConnected entities relationships ↔ relationshipFault? entities [] relationships = none := by
  rw [relationshipFault?_eq_none_iff]
  constructor
  · intro h
    exact ⟨fun r hr => ⟨h.owner_mem r hr, h.target_mem r hr, List.not_mem_nil⟩,
      h.nodup_properties⟩
  · rintro ⟨hconnected, hdistinct⟩
    exact ⟨fun r hr => (hconnected r hr).1, fun r hr => (hconnected r hr).2.1, hdistinct⟩

theorem fault?_eq_none_iff :
    fault? tables relationships = none ↔
      AreKeyed tables ∧ AreConnected (tables.map Table.entity) relationships := by
  rw [fault?, Option.or_eq_none_iff, areKeyed_iff, areConnected_iff]

theorem fault?_eq_some_iff :
    fault? tables relationships = some e ↔ FirstFault tables relationships e := by
  rw [fault?, Option.or_eq_some_iff, ← areKeyed_iff, tableFault?_eq_scan,
    relationshipFault?_eq_scan, scan_eq_some_iff, scan_eq_some_iff]
  simp only [← tableFault?_eq_scan, ← relationshipFault?_eq_scan, ← areKeyed_iff,
    ← areConnected_iff, List.append_nil, tableFault?_singleton_reverse,
    relationshipFault?_singleton_reverse, tableFault?_singleton_iff,
    relationshipFault?_singleton_iff]
  constructor
  · rintro (⟨before, table, after, split, sound, faulty⟩ |
      ⟨keyed, before, r, after, split, sound, faulty⟩)
    · exact .table split sound faulty
    · exact .relationship keyed split sound faulty
  · intro h
    cases h with
    | table split sound faulty => exact .inl ⟨_, _, _, split, sound, faulty⟩
    | relationship keyed split sound faulty =>
        exact .inr ⟨keyed, _, _, _, split, sound, faulty⟩

theorem build_eq_ok_iff :
    build tables relationships = .ok catalog ↔
      catalog.tables = tables ∧ catalog.relationships = relationships := by
  unfold build
  constructor
  · intro h
    split at h
    next => cases h; exact ⟨rfl, rfl⟩
    next => cases h
  · rintro ⟨rfl, rfl⟩
    split
    next => rfl
    next e hfault =>
      rw [catalog.sound] at hfault
      cases hfault

theorem build_eq_error_iff :
    build tables relationships = .error e ↔ fault? tables relationships = some e := by
  unfold build
  constructor
  · intro h
    split at h
    next => cases h
    next hfault => rw [hfault, Except.error.inj h]
  · intro h
    split
    next hnone =>
      rw [h] at hnone
      cases hnone
    next hfault =>
      rw [h] at hfault
      rw [Option.some.inj hfault]

/-- Declarations make a catalog exactly if they are sound, and are otherwise refused for their
first fault. In the catalog an entity has the table declared for it, an owner the relationships
declared on it in their order, and a property the one relationship declared for it; what was
not declared is not found. -/
theorem build_decides_declarations (tables : List Table) (relationships : List Relationship) :
    ((∃ catalog, build tables relationships = .ok catalog) ↔
      AreKeyed tables ∧ AreConnected (tables.map Table.entity) relationships) ∧
    (∀ e, build tables relationships = .error e ↔ FirstFault tables relationships e) ∧
    ∀ catalog, build tables relationships = .ok catalog →
      (∀ entity table, catalog.table entity = .ok table ↔
        table ∈ tables ∧ table.entity = entity) ∧
      (∀ entity, entity ∉ tables.map Table.entity →
        catalog.table entity = .error (.unknownEntity entity)) ∧
      (∀ owner, (catalog.relationshipsOf owner).Sublist relationships ∧
        ∀ r, r ∈ catalog.relationshipsOf owner ↔ r ∈ relationships ∧ r.owner = owner) ∧
      (∀ owner target property r, catalog.relationship owner target property = .ok r ↔
        r ∈ relationships ∧ r.owner = owner ∧ r.target = target ∧ r.property = property) ∧
      ∀ owner target property,
        (∀ r ∈ relationships, ¬(r.owner = owner ∧ r.target = target ∧ r.property = property)) →
        catalog.relationship owner target property =
          .error (.unknownRelationship owner target property) := by
  refine ⟨?_, fun e => build_eq_error_iff.trans fault?_eq_some_iff, ?_⟩
  · rw [← fault?_eq_none_iff]
    constructor
    · rintro ⟨catalog, h⟩
      obtain ⟨rfl, rfl⟩ := build_eq_ok_iff.1 h
      exact catalog.sound
    · intro h
      exact ⟨⟨tables, relationships, h⟩, build_eq_ok_iff.2 ⟨rfl, rfl⟩⟩
  · intro catalog h
    obtain ⟨rfl, rfl⟩ := build_eq_ok_iff.1 h
    refine ⟨fun _ _ => table_eq_ok_iff, fun _ => table_eq_error, fun owner => ⟨?_, fun r => ?_⟩,
      fun _ _ _ _ => relationship_eq_ok_iff, fun owner target property hnone => ?_⟩
    · exact List.filter_sublist
    · rw [relationshipsOf, List.mem_filter, decide_eq_true_eq]
    · cases hfound : catalog.relationship owner target property with
      | ok r =>
          obtain ⟨hmem, hsame⟩ := of_relationship hfound
          exact absurd hsame (hnone r hmem)
      | error e => rw [error_of_relationship hfound]

/-- Users and their phones, each entity under a key. -/
def phoneTables : List Table :=
  [{ entity := "User", name := "users",
     columns := [{ name := "user_id", property := "id", isPrimary := true }] },
    { entity := "Phone", name := "phones",
      columns := [{ name := "no", property := "no", isPrimary := true }] }]

/-- Three relationships, two of them on users and under one name on different owners. -/
def phoneRelationships : List Relationship :=
  [{ owner := "User", target := "Phone", property := "phones", cardinality := .oneToMany },
    { owner := "Phone", target := "User", property := "other", cardinality := .manyToOne },
    { owner := "User", target := "User", property := "other", cardinality := .oneToOne }]

/-- A fourth relationship that repeats the second pair is refused before a fifth that has no
target. -/
theorem build_decides_declarations_phones :
    (∃ catalog, build phoneTables phoneRelationships = .ok catalog ∧
      (catalog.relationshipsOf "User").Sublist phoneRelationships ∧
      (∀ r, r ∈ catalog.relationshipsOf "User" ↔ r ∈ phoneRelationships ∧ r.owner = "User") ∧
      "Call" ∉ phoneTables.map Table.entity ∧
      catalog.table "Call" = .error (.unknownEntity "Call") ∧
      catalog.relationship "Phone" "Phone" "other" =
        .error (.unknownRelationship "Phone" "Phone" "other")) ∧
    FirstFault phoneTables
      (phoneRelationships ++
        [{ owner := "Phone", target := "Phone", property := "other", cardinality := .oneToOne },
          { owner := "User", target := "Call", property := "calls", cardinality := .oneToMany }])
      (.duplicateRelationship "Phone" "other") := by
  obtain ⟨catalog, hcatalog⟩ : ∃ catalog, build phoneTables phoneRelationships = .ok catalog :=
    ⟨⟨phoneTables, phoneRelationships, by decide⟩, build_eq_ok_iff.2 ⟨rfl, rfl⟩⟩
  obtain ⟨-, hunknown, howned, -, hmissing⟩ :=
    (build_decides_declarations phoneTables phoneRelationships).2.2 catalog hcatalog
  have hcall : "Call" ∉ phoneTables.map Table.entity := by decide
  exact ⟨⟨catalog, hcatalog, (howned "User").1, (howned "User").2, hcall, hunknown _ hcall,
    hmissing _ _ _ (by decide)⟩,
    ((build_decides_declarations phoneTables _).2.1 _).1 (build_eq_error_iff.2 (by decide))⟩

end Catalog

end EntityQuery
