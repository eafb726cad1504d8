import EntityQuery.Proofs.Dict
import EntityQuery.Proofs.JoinGraph.Calls
import Mathlib.Data.List.Nodup

/-!
# Coherence of join graphs

A join graph keeps what its tables say in several places: the available
columns, the look-up of properties, the joined pairs of a parent and a
relationship, and the conditions in SQL. Whatever calls have been made on it,
and whether or not they succeeded, all of these agree (`isCoherent_after`).

The texts of conditions were compiled with the look-up of their time. They stay
right because a table never binds a property of another one: properties start
with an alias, an alias has no dot, and no two tables have the same.
-/

namespace EntityQuery

namespace GraphTable

/-- The properties of a table under its alias. -/
def properties (t : GraphTable) : List String := t.columns.map GraphColumn.property

/-- The columns that the properties of a table stand for. -/
def lookup (t : GraphTable) : Dict String :=
  Dict.ofList (t.columns.map fun c => (c.property, c.reference))

/-- The pair of a parent alias and a relationship where a table is joined. -/
def mapping? (t : GraphTable) : Option (String × String) :=
  t.link.map fun link => (link.parent, link.relationship.property)

/-- A table is joined to one of some tables, through a relationship between their entities. -/
def IsLinkedTo (t : GraphTable) (catalog : Catalog) (tables : List GraphTable) : Prop :=
  ∃ link ∈ t.link, link.relationship ∈ catalog.relationships ∧
    (link.parent, link.relationship.owner) ∈
      tables.map (fun parent => (parent.alias, parent.table.entity)) ∧
    link.relationship.target = t.table.entity

end GraphTable

namespace JoinGraph

/-- The text of a table, if it has one, is what its condition compiles to, and
the condition is over properties of some tables. -/
def IsCompiled (g : JoinGraph) (tables : List GraphTable) (t : GraphTable) : Prop :=
  ∀ sql ∈ t.sql, ∃ condition ∈ t.condition,
    Condition.CompilesTo g.dialect g.lookup g.parameters
      (· ∈ tables.flatMap GraphTable.properties) condition sql

/-- All that a graph keeps agrees with its tables. -/
structure IsCoherent (g : JoinGraph) : Prop where
  nodup_aliases : (g.tables.map GraphTable.alias).Nodup
  isName_alias : ∀ t ∈ g.tables, Text.isName t.alias = true
  link_base : g.base.link = none
  isLinkedTo : ∀ earlier t later, g.joined = earlier ++ t :: later →
    t.IsLinkedTo g.catalog (g.base :: earlier)
  nodup_mappings : (g.tables.filterMap GraphTable.mapping?).Nodup
  mem_mappings : ∀ pair, pair ∈ g.mappings ↔ pair ∈ g.tables.filterMap GraphTable.mapping?
  columns_eq : g.columns = g.tables.flatMap GraphTable.columns
  propertyMap_eq : ∀ t ∈ g.tables,
    g.catalog.propertyMap t.table.entity (some t.alias) = .ok t.lookup
  isDisjointUnion_lookup : g.lookup.IsDisjointUnion (g.tables.map GraphTable.lookup)
  isCompiled : ∀ earlier t later, g.joined = earlier ++ t :: later →
    g.IsCompiled (g.base :: earlier ++ [t]) t
  isCompiled_base : g.IsCompiled g.tables g.base

end JoinGraph

/-! ### Look-ups of tables -/

theorem Sql.splitAtDot_append {before after : List Char} (h : '.' ∉ before) :
    splitAtDot (before ++ '.' :: after) = some (before, after) := by
  induction before with
  | nil => rfl
  | cons c before ih =>
      rw [List.mem_cons, not_or] at h
      rw [List.cons_append, splitAtDot, if_neg (Ne.symm h.1), ih h.2]
      rfl

/-- A name has no dot in it. -/
theorem dot_notMem_of_isName {label : String} (h : Text.isName label = true) :
    '.' ∉ label.toList := by
  intro hdot
  rw [Text.isName, Bool.and_eq_true, List.all_eq_true] at h
  exact absurd (h.2 '.' hdot) (by decide +kernel)

/-- Under names, a property says its alias and the property of the table. -/
theorem GraphColumn.eq_of_property_eq {c c' : GraphColumn} (hc : Text.isName c.alias = true)
    (hc' : Text.isName c'.alias = true) (h : c.property = c'.property) :
    c.alias = c'.alias ∧ c.column.property = c'.column.property := by
  have hchars : c.alias.toList ++ '.' :: c.column.property.toList =
      c'.alias.toList ++ '.' :: c'.column.property.toList := by
    have hlists := congrArg String.toList h
    simp only [property, String.toList_append, List.append_assoc] at hlists
    exact hlists
  have hsplit := congrArg Sql.splitAtDot hchars
  rw [Sql.splitAtDot_append (dot_notMem_of_isName hc),
    Sql.splitAtDot_append (dot_notMem_of_isName hc'), Option.some.injEq, Prod.mk.injEq] at hsplit
  exact ⟨String.toList_inj.1 hsplit.1, String.toList_inj.1 hsplit.2⟩

namespace GraphTable

variable {t other : GraphTable} {key : String}

theorem mem_properties_of_get? (h : t.lookup.get? key ≠ none) : key ∈ t.properties := by
  refine Decidable.byContradiction fun hkey => h (Dict.get?_ofList_eq_none ?_)
  rwa [List.map_map]

theorem get?_of_mem_properties (h : key ∈ t.properties) : t.lookup.get? key ≠ none := by
  rw [lookup, Dict.get?_ofList, ne_eq, Dict.lookup_eq_none_iff, List.map_reverse,
    List.mem_reverse, List.map_map, not_not]
  exact h

/-- Tables under different names have no property in common. -/
theorem alias_eq_of_mem_properties (ht : Text.isName t.alias = true)
    (hother : Text.isName other.alias = true) (h : key ∈ t.properties)
    (h' : key ∈ other.properties) : t.alias = other.alias := by
  rw [properties, columns, List.map_map] at h h'
  obtain ⟨column, -, rfl⟩ := List.mem_map.1 h
  obtain ⟨column', -, heq⟩ := List.mem_map.1 h'
  exact (@GraphColumn.eq_of_property_eq ⟨t.alias, column⟩ ⟨other.alias, column'⟩ ht hother
    heq.symm).1

/-- Tables under different names bind different keys. -/
theorem get?_eq_none_or (ht : Text.isName t.alias = true) (hother : Text.isName other.alias = true)
    (hne : t.alias ≠ other.alias) (key : String) :
    t.lookup.get? key = none ∨ other.lookup.get? key = none := by
  by_cases h : t.lookup.get? key = none
  · exact .inl h
  · refine .inr (Decidable.byContradiction fun h' => hne ?_)
    exact alias_eq_of_mem_properties ht hother (mem_properties_of_get? h)
      (mem_properties_of_get? h')

/-- The catalog's map of an entity is the look-up of its table. -/
theorem propertyMap_eq {catalog : Catalog} (h : catalog.table t.table.entity = .ok t.table) :
    catalog.propertyMap t.table.entity (some t.alias) = .ok t.lookup := by
  refine bind_eq_ok.2 ⟨t.table, h, ?_⟩
  rw [lookup, columns, List.map_map]
  rfl

end GraphTable

theorem forall_splits_concat {α : Type} {P : List α → α → Prop} {xs : List α} {x : α}
    (h : ∀ earlier y later, xs = earlier ++ y :: later → P earlier y) (hx : P xs x) :
    ∀ earlier y later, xs ++ [x] = earlier ++ y :: later → P earlier y := by
  intro earlier y later heq
  rcases List.eq_nil_or_concat later with rfl | ⟨between, z, rfl⟩
  · obtain ⟨rfl, hlast⟩ := List.append_inj' heq rfl
    exact List.head_eq_of_cons_eq hlast ▸ hx
  · rw [List.concat_eq_append, ← List.cons_append, ← List.append_assoc] at heq
    exact h earlier y between (List.append_inj' heq rfl).1

namespace JoinGraph

variable {g g' : JoinGraph}

/-! ### The base table alone -/

theorem isCoherent_start {catalog : Catalog} {dialect : Sql.Dialect} {entity label : String}
    (h : start catalog dialect entity label = .ok g) : g.IsCoherent := by
  obtain ⟨_, hlabel, h⟩ := bind_eq_ok.1 h
  obtain ⟨table, htable, h⟩ := bind_eq_ok.1 h
  obtain rfl := pure_eq_ok.1 h
  obtain ⟨-, rfl⟩ := Catalog.of_table htable
  constructor
  case nodup_aliases => exact List.nodup_cons.2 ⟨List.not_mem_nil, List.nodup_nil⟩
  case isName_alias =>
      intro t ht
      rw [List.mem_singleton.1 ht]
      exact isName_of_checkAlias hlabel
  case link_base => rfl
  case isLinkedTo => exact fun earlier t later h => absurd h.symm (by simp)
  case nodup_mappings => exact List.nodup_nil
  case mem_mappings => exact fun _ => .rfl
  case columns_eq => exact (List.append_nil _).symm
  case propertyMap_eq =>
      intro t ht
      rw [List.mem_singleton.1 ht]
      exact GraphTable.propertyMap_eq htable
  case isDisjointUnion_lookup => exact Dict.isDisjointUnion_singleton _
  case isCompiled => exact fun earlier t later h => absurd h.symm (by simp)
  case isCompiled_base => exact fun sql hsql => nomatch hsql

/-! ### What stays when a graph grows -/

theorem IsCompiled.mono {tables tables' : List GraphTable} {t : GraphTable}
    (h : g.IsCompiled tables t) (same : g'.dialect = g.dialect)
    (grows : g.parameters.GrowsTo g'.parameters)
    (kept : ∀ key ∈ tables.flatMap GraphTable.properties,
      g.lookup.get? key = g'.lookup.get? key)
    (seen : tables.flatMap GraphTable.properties ⊆ tables'.flatMap GraphTable.properties) :
    g'.IsCompiled tables' t := by
  intro sql hsql
  obtain ⟨condition, hcondition, hcompiles⟩ := h sql hsql
  exact ⟨condition, hcondition, same ▸ hcompiles.mono grows kept fun _ hkey => seen hkey⟩

/-- More bound parameters change nothing. -/
theorem IsCoherent.withParameters (h : g.IsCoherent) {parameters : Parameters}
    (grows : g.parameters.GrowsTo parameters) :
    { g with parameters := parameters }.IsCoherent :=
  { h with
    isCompiled := fun earlier t later hsplit =>
      (h.isCompiled earlier t later hsplit).mono rfl grows (fun _ _ => rfl) (List.Subset.refl _)
    isCompiled_base := h.isCompiled_base.mono rfl grows (fun _ _ => rfl) (List.Subset.refl _) }

/-- What a look-up of tables binds is a property of one of them. -/
theorem mem_properties_of_contains {lookup : Dict String} {tables : List GraphTable}
    (h : lookup.IsDisjointUnion (tables.map GraphTable.lookup)) {key : String}
    (hkey : lookup.contains key = true) : key ∈ tables.flatMap GraphTable.properties := by
  obtain ⟨value, hvalue⟩ := Option.isSome_iff_exists.1 hkey
  obtain ⟨part, hpart, hvalue⟩ := (h.get?_eq_some key value).1 hvalue
  obtain ⟨t, ht, rfl⟩ := List.mem_map.1 hpart
  refine List.mem_flatMap.2 ⟨t, ht, GraphTable.mem_properties_of_get? ?_⟩
  rw [hvalue]
  exact Option.some_ne_none value

/-! ### A condition on the rows -/

theorem IsCoherent.withFilter (h : g.IsCoherent) {condition : Json} {values : Values}
    (hg : g.withFilter condition values = .ok g') : g'.IsCoherent := by
  rcases of_withFilter hg with ⟨-, rfl⟩ | ⟨-, restriction, hrestriction, rfl⟩
  · exact { h with }
  · obtain ⟨hgrows, hsql⟩ := Restriction.of_ofCondition hrestriction
    let restricted : GraphTable :=
      { g.base with condition := some condition, sql := restriction.sql }
    have hproperties : ∀ tables : List GraphTable,
        (g.base :: tables).flatMap GraphTable.properties ⊆
          (restricted :: tables).flatMap GraphTable.properties := fun _ _ hkey => hkey
    exact { h with
      isName_alias := List.forall_mem_cons.2 (List.forall_mem_cons.1 h.isName_alias)
      propertyMap_eq := List.forall_mem_cons.2 (List.forall_mem_cons.1 h.propertyMap_eq)
      isCompiled := fun earlier t later hsplit =>
        (h.isCompiled earlier t later hsplit).mono rfl hgrows (fun _ _ => rfl)
          (hproperties (earlier ++ [t]))
      isCompiled_base := fun sql htext => by
        refine ⟨condition, rfl, (hsql sql htext).mono (.refl _) (fun _ _ => rfl) ?_⟩
        exact fun _ hkey => mem_properties_of_contains h.isDisjointUnion_lookup hkey }

/-! ### One more table -/

theorem get?_extendLookup (lookup : Dict String) (t : GraphTable) (key : String) :
    (extendLookup lookup t.columns).get? key = (t.lookup.get? key).or (lookup.get? key) := by
  rw [extendLookup, Dict.get?_insertAll, GraphTable.lookup, Dict.get?_ofList]

section WithTable

variable {added : GraphTable} (h : g.IsCoherent) (named : Text.isName added.alias = true)
  (fresh : ∀ t ∈ g.tables, t.alias ≠ added.alias)

include h named fresh

/-- A table under a fresh name does not change what earlier properties stand for. -/
theorem get?_extendLookup_of_mem {key : String}
    (hkey : key ∈ g.tables.flatMap GraphTable.properties) :
    g.lookup.get? key = (extendLookup g.lookup added.columns).get? key := by
  obtain ⟨t, ht, hkey⟩ := List.mem_flatMap.1 hkey
  have hone := GraphTable.get?_eq_none_or (h.isName_alias t ht) named (fresh t ht) key
  have hnone := hone.resolve_left (GraphTable.get?_of_mem_properties hkey)
  rw [get?_extendLookup, hnone, Option.none_or]

theorem isDisjointUnion_extendLookup :
    (extendLookup g.lookup added.columns).IsDisjointUnion
      ((g.tables ++ [added]).map GraphTable.lookup) := by
  rw [List.map_append]
  apply h.isDisjointUnion_lookup.insertAll
  intro part hpart key
  obtain ⟨t, ht, rfl⟩ := List.mem_map.1 hpart
  exact GraphTable.get?_eq_none_or (h.isName_alias t ht) named (fresh t ht) key

/-- A table under a fresh name and a fresh link keeps a graph coherent. -/
theorem IsCoherent.concat {link : Link} {parameters : Parameters} (hlink : added.link = some link)
    (known : g.catalog.table added.table.entity = .ok added.table)
    (linked : added.IsLinkedTo g.catalog g.tables)
    (new : (link.parent, link.relationship.property) ∉ g.mappings)
    (grows : g.parameters.GrowsTo parameters)
    (compiled : (g.concat added link parameters).IsCompiled (g.tables ++ [added]) added) :
    (g.concat added link parameters).IsCoherent := by
  have kept : ∀ tables ⊆ g.tables, ∀ key ∈ tables.flatMap GraphTable.properties,
      g.lookup.get? key = (g.concat added link parameters).lookup.get? key := by
    intro tables hsub key hkey
    obtain ⟨t, ht, hkey⟩ := List.mem_flatMap.1 hkey
    exact get?_extendLookup_of_mem h named fresh (List.mem_flatMap.2 ⟨t, hsub ht, hkey⟩)
  have hmapping : added.mapping? = some (link.parent, link.relationship.property) := by
    rw [GraphTable.mapping?, hlink, Option.map_some]
  have htables : (g.concat added link parameters).tables = g.tables ++ [added] := rfl
  have hmappings : (g.concat added link parameters).tables.filterMap GraphTable.mapping? =
      g.tables.filterMap GraphTable.mapping? ++ [(link.parent, link.relationship.property)] := by
    rw [htables, List.filterMap_append, List.filterMap_cons, hmapping, List.filterMap_nil]
  constructor
  case nodup_aliases =>
      rw [htables, List.map_append, List.map_singleton, ← List.concat_eq_append]
      refine List.Nodup.concat (fun hmem => ?_) h.nodup_aliases
      obtain ⟨t, ht, heq⟩ := List.mem_map.1 hmem
      exact fresh t ht heq
  case isName_alias =>
      rw [htables, List.forall_mem_append]
      exact ⟨h.isName_alias, List.forall_mem_singleton.2 named⟩
  case link_base => exact h.link_base
  case isLinkedTo => exact forall_splits_concat h.isLinkedTo linked
  case nodup_mappings =>
      rw [hmappings, ← List.concat_eq_append]
      exact List.Nodup.concat (mt (h.mem_mappings _).2 new) h.nodup_mappings
  case mem_mappings =>
      intro pair
      rw [hmappings, List.mem_append, List.mem_singleton, ← h.mem_mappings, JoinGraph.concat,
        List.mem_cons, or_comm]
  case columns_eq =>
      rw [htables, List.flatMap_append, ← h.columns_eq, List.flatMap_singleton]
      rfl
  case propertyMap_eq =>
      rw [htables, List.forall_mem_append]
      exact ⟨h.propertyMap_eq, List.forall_mem_singleton.2 (GraphTable.propertyMap_eq known)⟩
  case isDisjointUnion_lookup => exact isDisjointUnion_extendLookup h named fresh
  case isCompiled =>
      refine forall_splits_concat (fun earlier t later hsplit => ?_) compiled
      have hsub : g.base :: earlier ++ [t] ⊆ g.tables := by
        rw [tables, hsplit, List.append_cons earlier t later]
        exact List.cons_subset_cons _ (List.subset_append_left _ _)
      exact (h.isCompiled earlier t later hsplit).mono rfl grows (kept _ hsub)
        (List.Subset.refl _)
  case isCompiled_base =>
      refine h.isCompiled_base.mono rfl grows (kept _ (List.Subset.refl _)) ?_
      rw [htables, List.flatMap_append]
      exact List.subset_append_left _ _

end WithTable

theorem IsCoherent.withTable (h : g.IsCoherent) {spec : TableSpec}
    (hg : g.withTable spec = .ok g') : g'.IsCoherent := by
  obtain ⟨table, link, restriction, named, hnone, htable, hlink, hrestriction, rfl⟩ :=
    of_withTable hg
  obtain ⟨new, parent, hparent, hmem, howner, htarget⟩ := of_linkOf hlink
  obtain ⟨hgrows, hsql⟩ := Restriction.of_ofCondition? hrestriction
  obtain ⟨-, hentity⟩ := Catalog.of_table htable
  have fresh := table?_eq_none_iff.1 hnone
  refine h.concat named fresh rfl (hentity ▸ htable) ?_ new hgrows ?_
  · obtain ⟨hparent, halias⟩ := of_table? hparent
    refine ⟨link, rfl, hmem, List.mem_map.2 ⟨parent, hparent, ?_⟩, htarget.trans hentity.symm⟩
    rw [halias, howner]
  · intro sql htext
    obtain ⟨condition, hcondition, hcompiles⟩ := hsql sql htext
    refine ⟨condition, hcondition, hcompiles.mono (.refl _) (fun _ _ => rfl) fun key hkey => ?_⟩
    exact mem_properties_of_contains (isDisjointUnion_extendLookup h named fresh) hkey

/-! ### Any calls -/

/-- One call keeps a graph coherent, whether or not it succeeds. -/
theorem IsCoherent.perform (h : g.IsCoherent) (call : GraphCall) : (g.perform call).IsCoherent := by
  rcases perform_cases g call with ⟨spec, hg⟩ | ⟨condition, values, hg⟩ | ⟨parameters, grows, hg⟩
  · exact h.withTable hg
  · exact h.withFilter hg
  · exact hg ▸ h.withParameters grows

/-- Any calls keep a graph coherent. -/
theorem IsCoherent.after (h : g.IsCoherent) (calls : List GraphCall) :
    (g.after calls).IsCoherent := by
  induction calls generalizing g with
  | nil => exact h
  | cons call calls ih => exact ih (h.perform call)

/-- A graph is coherent after any calls. -/
theorem isCoherent_after {catalog : Catalog} {dialect : Sql.Dialect} {entity label : String}
    (h : start catalog dialect entity label = .ok g) (calls : List GraphCall) :
    (g.after calls).IsCoherent :=
  (isCoherent_start h).after calls

/-- Users with their phones. -/
def phoneBook : Catalog where
  tables := [
    { entity := "User", name := "users",
      columns := [{ name := "user_id", property := "id", isPrimary := true }] },
    { entity := "Phone", name := "phones",
      columns := [{ name := "no", property := "no", isPrimary := true },
        { name := "user_id", property := "owner" }] }]
  relationships := [
    { owner := "User", target := "Phone", property := "phones", cardinality := .oneToMany,
      keys := [["id", "owner"]] },
    { owner := "Phone", target := "User", property := "user", cardinality := .manyToOne,
      keys := [["owner", "id"]] }]
  sound := by decide

/-- A join and the same again, a condition on the rows that first conflicts with
a parameter, and a table with a condition of its own. -/
def phoneCalls : List GraphCall :=
  [.join .leftOuter { entity := "Phone", «alias» := "p", parentProperty := "u.phones" },
    .join .inner { entity := "Phone", «alias» := "q", parentProperty := "u.phones" },
    .addParameter false "no" (.str "1"),
    .filter (.obj [("$eq", .obj [("p.no", .str ":no")])]) (.ofList [("no", .str "2")]),
    .filter (.obj [("$eq", .obj [("p.no", .str ":no")])]) ∅,
    .addTable {
      entity := "User", «alias» := "v", parent := some "p", relationship := some "user"
      condition := some (.obj [("$gt", .obj [("v.id", .str "u.id")])]) }]

theorem isCoherent_after_phoneCalls :
    ∃ g, start phoneBook .mysql "User" "u" = .ok g ∧
      ((g.after phoneCalls).tables.map fun t => (t.alias, t.sql)) =
        [("u", some "`p`.`no` = :no"), ("p", some "`u`.`user_id` = `p`.`user_id`"),
          ("v", some "`v`.`user_id` > `u`.`user_id`")] ∧
      (g.after phoneCalls).IsCoherent := by
  have hname : checkAlias "u" = .ok () := if_pos (by decide +kernel)
  obtain ⟨g, hg, htables⟩ : ∃ g, start phoneBook .mysql "User" "u" = .ok g ∧
      ((g.after phoneCalls).tables.map fun t => (t.alias, t.sql)) =
        [("u", some "`p`.`no` = :no"), ("p", some "`u`.`user_id` = `p`.`user_id`"),
          ("v", some "`v`.`user_id` > `u`.`user_id`")] := by
    rw [start, hname]
    exact ⟨_, rfl, by decide +kernel⟩
  exact ⟨g, hg, htables, isCoherent_after hg phoneCalls⟩

end JoinGraph

end EntityQuery
