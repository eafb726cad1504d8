import EntityQuery.Proofs.Catalog
import EntityQuery.Proofs.Condition.Mapping
import EntityQuery.Proofs.Statement.KeyConditions

/-!
# Joins on declared keys

A join without a condition equates the key pairs of its relationship. The equalities are
printed as a condition, read again, renamed to columns and written in SQL; what arrives is
what was declared, for any number of pairs and any names that need no escapes.
-/

namespace EntityQuery

/-! ### Conditions on key pairs -/

/-- The equality of a column of a parent and a column of a joined table. -/
def keyEquality (parent label : String) (pair : Column × Column) : Condition :=
  .comparison .eq (GraphColumn.mk parent pair.1).property
    (.column (GraphColumn.mk label pair.2).property)

/-- The equality in SQL. -/
def keyEqualityText (d : Sql.Dialect) (parent label : String) (pair : Column × Column) : String :=
  d.quote parent ++ "." ++ d.quote pair.1.name ++ " = " ++ d.quote label ++ "." ++
    d.quote pair.2.name

/-- The equalities of key pairs in SQL: one alone, or several in parentheses. -/
def keyText (d : Sql.Dialect) (parent label : String) (pairs : List (Column × Column)) : String :=
  Keyed.conjunctionText (pairs.map (keyEqualityText d parent label))

namespace Relationship

variable {r : Relationship} {parent label : String} {pairs : List (Column × Column)}

theorem keyCondition_eq (nonempty : pairs ≠ [])
    (named : r.keys = pairs.map fun pair => [pair.1.property, pair.2.property]) :
    r.keyCondition parent label =
      .ok (Condition.conjunction (pairs.map (keyEquality parent label))) := by
  rw [keyCondition, named, List.mapM_map]
  change (pairs.mapM fun pair => pure (keyEquality parent label pair)) >>= _ = _
  rw [List.mapM_pure, pure_bind]
  rcases pairs with _ | ⟨first, _ | ⟨second, rest⟩⟩
  · exact absurd rfl nonempty
  · rfl
  · rfl

/-- Without pairs, or with a pair that is none, there is no condition. -/
theorem keyCondition_eq_error (h : r.keys = [] ∨ ∃ pair ∈ r.keys, pair.length ≠ 2) :
    r.keyCondition parent label = .error (.invalidJoinKeys r.property) := by
  have hfails : ∃ e, r.keyCondition parent label = .error e := by
    rcases h with hnil | ⟨pair, hmem, hlength⟩
    · rw [keyCondition, hnil]
      exact ⟨_, rfl⟩
    · refine (mapM_eq_error_of_mem (e := .invalidJoinKeys r.property) hmem ?_).imp
        fun e hkeys => bind_eq_error.2 (.inl hkeys)
      split
      next => exact absurd rfl hlength
      next => rfl
  obtain ⟨e, he⟩ := hfails
  rw [he, error_of_keyCondition he]

end Relationship

/-- The operands of the equalities are the two columns of each pair. -/
theorem forall_leaves_keyEqualities {P : Operand → Prop} {parent label : String}
    {pairs : List (Column × Column)} :
    (∀ value ∈ (Condition.conjunction (pairs.map (keyEquality parent label))).leaves, P value) ↔
      ∀ pair ∈ pairs, P (.column (GraphColumn.mk parent pair.1).property) ∧
        P (.column (GraphColumn.mk label pair.2).property) := by
  rw [Condition.leaves_conjunction, List.flatMap_map]
  simp only [List.forall_mem_flatMap]
  refine forall₂_congr fun pair _ => ?_
  exact List.forall_mem_cons.trans (and_congr_right' List.forall_mem_singleton)

section Restriction

variable {d : Sql.Dialect} {lookup : Dict String} {parent label : String}
  {pairs : List (Column × Column)}

/-- In SQL, the columns of key pairs are those that a look-up has for their properties. -/
theorem sqlIn_keyEquality (hparent : Text.isName parent = true) (hlabel : Text.isName label = true)
    {pair : Column × Column}
    (hfirst : lookup.get? (GraphColumn.mk parent pair.1).property =
      some (GraphColumn.mk parent pair.1).reference)
    (hsecond : lookup.get? (GraphColumn.mk label pair.2).property =
      some (GraphColumn.mk label pair.2).reference) :
    Restriction.sqlIn d lookup (keyEquality parent label pair) =
      keyEqualityText d parent label pair := by
  rw [Restriction.sqlIn, keyEquality, Condition.mapColumns, Operand.mapColumn,
    Condition.nameIn_of_some hfirst, Condition.nameIn_of_some hsecond]
  have hequals : " = " = " " ++ (Sql.Keyword.eq.text ++ " ") := by decide
  have hfirstText : d.quoteColumn (GraphColumn.mk parent pair.1).reference = _ :=
    Sql.quoteColumn_append (dot_notMem_of_isName hparent)
  have hsecondText : d.quoteColumn (GraphColumn.mk label pair.2).reference = _ :=
    Sql.quoteColumn_append (dot_notMem_of_isName hlabel)
  rw [keyEqualityText, hequals]
  simp [Condition.sql, Condition.sqlTokens, Condition.infixTokens, Operator.sqlTokens,
    Operand.sqlToken, hfirstText, hsecondText, String.append_assoc]

/-- The condition on key pairs asks for their properties only. -/
theorem accepts_keyEqualities {available : String → Prop} (parameters : Parameters)
    (h : ∀ pair ∈ pairs, available (GraphColumn.mk parent pair.1).property ∧
      available (GraphColumn.mk label pair.2).property) :
    Restriction.Accepts available parameters ∅
      (Condition.conjunction (pairs.map (keyEquality parent label))) where
  agrees := Dict.agrees_empty _
  available := by
    have hcolumns : ∀ value ∈ (Condition.conjunction (pairs.map (keyEquality parent label))).leaves,
        ∀ property, value = .column property → available property :=
      forall_leaves_keyEqualities.2 fun pair hpair =>
        ⟨fun _ heq => Operand.column.inj heq ▸ (h pair hpair).1,
          fun _ heq => Operand.column.inj heq ▸ (h pair hpair).2⟩
    exact fun property hproperty =>
      hcolumns _ (Condition.mem_mentions.1 (Condition.mem_columns.1 hproperty)) property rfl
  bound := by
    have hvalues : ∀ value ∈ (Condition.conjunction (pairs.map (keyEquality parent label))).leaves,
        ∀ name, value ≠ .parameter name :=
      forall_leaves_keyEqualities.2 fun _ _ => ⟨nofun, nofun⟩
    intro name hname
    have hleaf := Condition.mem_leaves_of_mem_operands (Condition.mem_parameters.1 hname)
    exact absurd rfl (hvalues _ hleaf name)

/-- The condition on key pairs is taken wherever their properties stand for their columns. -/
theorem ofCondition_keys {parameters : Parameters} (nonempty : pairs ≠ [])
    (hparent : Text.isName parent = true) (hlabel : Text.isName label = true)
    (plain : ∀ pair ∈ pairs,
      Json.isPlain pair.1.property = true ∧ Json.isPlain pair.2.property = true)
    (known : ∀ pair ∈ pairs,
      lookup.get? (GraphColumn.mk parent pair.1).property =
          some (GraphColumn.mk parent pair.1).reference ∧
        lookup.get? (GraphColumn.mk label pair.2).property =
          some (GraphColumn.mk label pair.2).reference) :
    Restriction.ofCondition d lookup parameters
        (Condition.conjunction (pairs.map (keyEquality parent label))).toJson ∅ =
      .ok ⟨some (keyText d parent label pairs), parameters⟩ := by
  have hkinded : (Condition.conjunction (pairs.map (keyEquality parent label))).isWellKinded =
      true :=
    Condition.isWellKinded_conjunction (mt List.map_eq_nil_iff.1 nonempty)
      (List.forall_mem_map.2 fun _ _ => rfl)
  have hread := Condition.ofJson_toJson_of_isPlain hkinded
    (forall_leaves_keyEqualities.2 fun _ _ =>
      ⟨Operand.isGenuine_column hparent _, Operand.isGenuine_column hlabel _⟩)
    (forall_leaves_keyEqualities.2 fun pair hpair =>
      ⟨Operand.isPlain_column hparent (plain pair hpair).1,
        Operand.isPlain_column hlabel (plain pair hpair).2⟩)
  refine Restriction.ofCondition_eq_ok_iff_accepts.2 ⟨_, hread,
    accepts_keyEqualities parameters fun pair hpair =>
      ⟨Option.isSome_iff_exists.2 ⟨_, (known pair hpair).1⟩,
        Option.isSome_iff_exists.2 ⟨_, (known pair hpair).2⟩⟩, ?_⟩
  have htexts : (pairs.map (keyEquality parent label)).map (Restriction.sqlIn d lookup) =
      pairs.map (keyEqualityText d parent label) := by
    rw [List.map_map]
    refine List.map_congr_left fun pair hpair => ?_
    exact sqlIn_keyEquality hparent hlabel (known pair hpair).1 (known pair hpair).2
  rw [Values.bindings_empty, Parameters.bind_empty, keyText, ← htexts, Restriction.sqlIn,
    Condition.mapColumns_conjunction, Keyed.sql_conjunction]
  simp only [List.map_map]
  rfl

end Restriction

namespace JoinGraph

variable {g : JoinGraph}

/-- A join without a condition asks the relationship for one. -/
theorem keyCondition_eq_map {spec : JoinSpec} {parent property : String} {owner : GraphTable}
    {r : Relationship} (howner : g.table? parent = some owner)
    (hrelationship : g.catalog.relationship owner.table.entity spec.entity property = .ok r) :
    g.keyCondition spec parent property =
      (r.keyCondition parent spec.alias).map Condition.toJson := by
  rw [keyCondition, howner]
  dsimp only
  rw [hrelationship]
  rfl

theorem IsCoherent.isName_of_table? {t : GraphTable} {label : String} (h : g.IsCoherent)
    (ht : g.table? label = some t) : Text.isName label = true := by
  obtain ⟨hmem, rfl⟩ := of_table? ht
  exact h.isName_alias t hmem

/-- Once a table has been added, its properties and those of another stand for their columns. -/
theorem get?_extendLookup_keys (added : GraphTable) {owner : GraphTable} {parent : String}
    (h : g.IsCoherent) (named : Text.isName added.alias = true)
    (fresh : g.table? added.alias = none) (howner : g.table? parent = some owner)
    (distinct : (owner.table.columns.map Column.property).Nodup)
    (added_distinct : (added.table.columns.map Column.property).Nodup) {pair : Column × Column}
    (hpair : pair.1 ∈ owner.table.columns ∧ pair.2 ∈ added.table.columns) :
    (extendLookup g.lookup added.columns).get? (GraphColumn.mk parent pair.1).property =
        some (GraphColumn.mk parent pair.1).reference ∧
      (extendLookup g.lookup added.columns).get? (GraphColumn.mk added.alias pair.2).property =
        some (GraphColumn.mk added.alias pair.2).reference := by
  obtain ⟨hmem, rfl⟩ := of_table? howner
  have hunion := isDisjointUnion_extendLookup h named (table?_eq_none_iff.1 fresh)
  constructor
  · exact (hunion.get?_eq_some _ _).2 ⟨owner.lookup,
      List.mem_map_of_mem (List.mem_append_left _ hmem),
      GraphTable.get?_lookup distinct (List.mem_map_of_mem hpair.1)⟩
  · exact (hunion.get?_eq_some _ _).2 ⟨added.lookup,
      List.mem_map_of_mem (List.mem_append_right _ (List.mem_singleton_self added)),
      GraphTable.get?_lookup added_distinct (List.mem_map_of_mem hpair.2)⟩

section DeclaredKeys

variable {parent label : String} {owner : GraphTable} {r : Relationship} (kind : JoinKind)

theorem withJoin_of_keyCondition_error (spec : JoinSpec) {error : QueryError}
    (hsplit : Sql.splitQualified spec.parentProperty = some (parent, r.property))
    (hcondition : spec.condition = none) (howner : g.table? parent = some owner)
    (hrelationship : g.catalog.relationship owner.table.entity spec.entity r.property = .ok r)
    (hkeys : r.keyCondition parent spec.alias = .error error) :
    g.withJoin kind spec = .error error := by
  rw [withJoin, hsplit, hcondition]
  dsimp only
  rw [keyCondition_eq_map howner hrelationship, hkeys]
  rfl

/-- Where no condition is given, the one on the keys is taken as if it had been. -/
theorem withJoin_of_keyCondition (spec : JoinSpec) {condition : Condition} {table : Table}
    (hsplit : Sql.splitQualified spec.parentProperty = some (parent, r.property))
    (hcondition : spec.condition = none) (howner : g.table? parent = some owner)
    (hrelationship : g.catalog.relationship owner.table.entity spec.entity r.property = .ok r)
    (hkeys : r.keyCondition parent spec.alias = .ok condition)
    (named : Text.isName spec.alias = true) (fresh : g.table? spec.alias = none)
    (hpair : (parent, r.property) ∉ g.mappings)
    (htable : g.catalog.table spec.entity = .ok table) :
    let link : Link := ⟨parent, r, some kind⟩
    let added : GraphTable :=
      { table, «alias» := spec.alias, link := some link, condition := some condition.toJson }
    g.withJoin kind spec =
      (Restriction.ofCondition g.dialect (extendLookup g.lookup added.columns) g.parameters
        condition.toJson spec.values).map fun restriction =>
          g.concat { added with sql := restriction.sql } link restriction.parameters := by
  have hgiven : spec.condition.elim (g.keyCondition spec parent r.property) .ok =
      .ok condition.toJson := by
    rw [hcondition, Option.elim_none, keyCondition_eq_map howner hrelationship, hkeys]
    rfl
  rw [withJoin_eq hsplit hgiven]
  exact withTable_eq_map rfl (Condition.isBlank_toJson _) named fresh htable
    (linkOf_eq_ok_iff.2 ⟨parent, r.property, owner, r, rfl, rfl, howner, hpair, hrelationship, rfl⟩)

/-- The condition on the keys is taken. -/
theorem withJoin_on_keys (h : g.IsCoherent) {pairs : List (Column × Column)} {target : Table}
    (howner : g.table? parent = some owner)
    (hrelationship : g.catalog.relationship owner.table.entity r.target r.property = .ok r)
    (htarget : g.catalog.table r.target = .ok target) (nonempty : pairs ≠ [])
    (keys : r.keys = pairs.map fun pair => [pair.1.property, pair.2.property])
    (columns : ∀ pair ∈ pairs, pair.1 ∈ owner.table.columns ∧ pair.2 ∈ target.columns)
    (distinct : ∀ table ∈ [owner.table, target], (table.columns.map Column.property).Nodup)
    (plain : ∀ table ∈ [owner.table, target], ∀ c ∈ table.columns, Json.isPlain c.property = true)
    (named : Text.isName label = true) (fresh : g.table? label = none)
    (hpair : (parent, r.property) ∉ g.mappings) :
    g.withJoin kind { entity := r.target, «alias» := label
                      parentProperty := parent ++ "." ++ r.property } =
      .ok (g.concat
        { table := target, «alias» := label, link := some ⟨parent, r, kind⟩
          condition := some (Condition.conjunction (pairs.map (keyEquality parent label))).toJson
          sql := some (keyText g.dialect parent label pairs) }
        ⟨parent, r, kind⟩ g.parameters) := by
  have hparent := h.isName_of_table? howner
  let added : GraphTable :=
    { table := target, «alias» := label, link := some ⟨parent, r, kind⟩
      condition := some (Condition.conjunction (pairs.map (keyEquality parent label))).toJson }
  have known : ∀ pair ∈ pairs,
      (extendLookup g.lookup added.columns).get? (GraphColumn.mk parent pair.1).property =
          some (GraphColumn.mk parent pair.1).reference ∧
        (extendLookup g.lookup added.columns).get? (GraphColumn.mk label pair.2).property =
          some (GraphColumn.mk label pair.2).reference := fun pair hmem =>
    get?_extendLookup_keys added h named fresh howner
      (distinct owner.table (List.mem_pair.2 (.inl rfl)))
      (distinct target (List.mem_pair.2 (.inr rfl))) (columns pair hmem)
  have hplain : ∀ pair ∈ pairs,
      Json.isPlain pair.1.property = true ∧ Json.isPlain pair.2.property = true :=
    fun pair hmem => ⟨plain owner.table (List.mem_pair.2 (.inl rfl)) _ (columns pair hmem).1,
      plain target (List.mem_pair.2 (.inr rfl)) _ (columns pair hmem).2⟩
  have hsplit : Sql.splitQualified (parent ++ "." ++ r.property) = some (parent, r.property) :=
    Sql.splitQualified_append r.property (dot_notMem_of_isName hparent)
  let spec : JoinSpec :=
    { entity := r.target, «alias» := label, parentProperty := parent ++ "." ++ r.property }
  refine (withJoin_of_keyCondition kind spec hsplit rfl howner hrelationship
    (Relationship.keyCondition_eq nonempty keys) named fresh hpair htarget).trans ?_
  exact congrArg (Except.map _) (ofCondition_keys nonempty hparent named hplain known)

end DeclaredKeys

/-- A join without a condition gives the one on the keys of its relationship. -/
theorem join_on_declared_keys {catalog : Catalog} {dialect : Sql.Dialect} {entity base : String}
    (h : start catalog dialect entity base = .ok g) (calls : List GraphCall) {parent : String}
    {owner : GraphTable} (howner : (g.after calls).table? parent = some owner) {r : Relationship}
    (hr : r ∈ catalog.relationships) (hentity : r.owner = owner.table.entity) (kind : JoinKind)
    (label : String) :
    let reached := g.after calls
    let outcome := (GraphM.join kind { entity := r.target, «alias» := label
                                       parentProperty := parent ++ "." ++ r.property }).runOn reached
    (r.keys = [] ∨ (∃ pair ∈ r.keys, pair.length ≠ 2) →
      outcome = (.error (.invalidJoinKeys r.property), reached)) ∧
    ∃ target, catalog.table r.target = .ok target ∧
      ∀ pairs : List (Column × Column), pairs ≠ [] →
        (r.keys = pairs.map fun pair => [pair.1.property, pair.2.property]) →
        (∀ pair ∈ pairs, pair.1 ∈ owner.table.columns ∧ pair.2 ∈ target.columns) →
        (∀ table ∈ [owner.table, target], (table.columns.map Column.property).Nodup ∧
          ∀ c ∈ table.columns, Json.isPlain c.property = true) →
        Text.isName label = true → reached.table? label = none →
        (parent, r.property) ∉ reached.mappings →
        outcome = (.ok (), reached.concat
          { table := target, «alias» := label, link := some ⟨parent, r, some kind⟩
            condition := some (Condition.conjunction (pairs.map (keyEquality parent label))).toJson
            sql := some (keyText dialect parent label pairs) }
          ⟨parent, r, some kind⟩ reached.parameters) := by
  have hcoherent := (isCoherent_start h).after calls
  obtain ⟨hcatalog, hdialect, -⟩ := isOver_after h calls
  generalize g.after calls = reached at howner hcoherent hcatalog hdialect
  subst hcatalog hdialect
  have hparent := hcoherent.isName_of_table? howner
  have hsplit : Sql.splitQualified (parent ++ "." ++ r.property) = some (parent, r.property) :=
    Sql.splitQualified_append r.property (dot_notMem_of_isName hparent)
  have hrelationship := Catalog.relationship_of_mem hr
  rw [hentity] at hrelationship
  obtain ⟨target, htarget⟩ :=
    Catalog.exists_table (reached.catalog.relationships_sound.1 r hr).2
  refine ⟨fun hinvalid => ?_, target, htarget, ?_⟩
  · let spec : JoinSpec :=
      { entity := r.target, «alias» := label, parentProperty := parent ++ "." ++ r.property }
    have hstage := withJoin_of_keyCondition_error kind spec hsplit rfl howner hrelationship
      (Relationship.keyCondition_eq_error hinvalid)
    rw [GraphM.join_eq_commit, GraphM.runOn_commit, hstage]
  · intro pairs nonempty keys columns htables named fresh hpair
    rw [GraphM.join_eq_commit, GraphM.runOn_commit,
      withJoin_on_keys kind hcoherent howner hrelationship htarget nonempty keys columns
        (fun table ht => (htables table ht).1) (fun table ht => (htables table ht).2) named fresh
        hpair]

/-- The nodes of trees, each numbered in its tree and under another of it. -/
def nodeTable : Table where
  entity := "Node"
  name := "nodes"
  columns := [{ name := "tree", property := "tree", isPrimary := true },
    { name := "node_no", property := "no", isPrimary := true },
    { name := "above_no", property := "no. above" }]

/-- Nodes with those right under them. -/
def nodesUnderNodes : Relationship where
  owner := "Node"
  target := "Node"
  property := "below"
  cardinality := .oneToMany
  keys := [["tree", "tree"], ["no", "no. above"]]

/-- The catalog of the nodes alone. -/
def treeBook : Catalog where
  tables := [nodeTable]
  relationships := [nodesUnderNodes]
  sound := by decide

theorem join_on_declared_keys_treeBook :
    ∃ g, start treeBook .mysql "Node" "n" = .ok g ∧
      let reached := g.after [.join .inner ⟨"Node", "m", "n.below", none, ∅⟩]
      let outcome := (GraphM.join .leftOuter ⟨"Node", "l", "m.below", none, ∅⟩).runOn reached
      outcome.1 = .ok () ∧ outcome.2.parameters = reached.parameters ∧
        outcome.2.tables.map GraphTable.sql =
          [none, some "(`n`.`tree` = `m`.`tree` AND `n`.`node_no` = `m`.`above_no`)",
            some "(`m`.`tree` = `l`.`tree` AND `m`.`node_no` = `l`.`above_no`)"] := by
  have hname : checkAlias "n" = .ok () := if_pos (by decide +kernel)
  let calls : List GraphCall := [.join .inner ⟨"Node", "m", "n.below", none, ∅⟩]
  obtain ⟨g, hg, hentity, hfresh, hmappings, htexts⟩ :
      ∃ g, start treeBook .mysql "Node" "n" = .ok g ∧
        ((g.after calls).table? "m").map (fun t => t.table.entity) = some "Node" ∧
        ((g.after calls).table? "l").isSome = false ∧ (g.after calls).mappings = [("n", "below")] ∧
        (g.after calls).tables.map GraphTable.sql =
          [none, some "(`n`.`tree` = `m`.`tree` AND `n`.`node_no` = `m`.`above_no`)"] := by
    rw [start, hname]
    refine ⟨_, rfl, ?_, ?_, ?_, ?_⟩ <;> decide +kernel
  obtain ⟨owner, howner, hentity⟩ := Option.map_eq_some_iff.1 hentity
  have htable := (isOver_after hg calls).table_eq owner (of_table? howner).1
  rw [hentity] at htable
  have hnode : nodeTable = owner.table := Except.ok.inj htable
  obtain ⟨-, target, htarget, hjoins⟩ := join_on_declared_keys hg calls howner
    (List.mem_singleton_self nodesUnderNodes) hentity.symm .leftOuter "l"
  obtain rfl : nodeTable = target := Except.ok.inj htarget
  rw [← hnode] at hjoins
  let tree : Column := { name := "tree", property := "tree", isPrimary := true }
  let no : Column := { name := "node_no", property := "no", isPrimary := true }
  let above : Column := { name := "above_no", property := "no. above" }
  have houtcome := hjoins [(tree, tree), (no, above)] (List.cons_ne_nil _ _) rfl
    (by simp [nodeTable, tree, no, above]) (by decide) (by decide +kernel)
    (Option.isNone_iff_eq_none.1 (by simpa using hfresh)) (by rw [hmappings]; decide)
  have hproperty : "m" ++ "." ++ nodesUnderNodes.property = "m.below" := by decide
  rw [hproperty] at houtcome
  refine ⟨g, hg, congrArg Prod.fst houtcome,
    congrArg (fun result => result.2.parameters) houtcome, ?_⟩
  refine (congrArg (fun result => result.2.tables.map GraphTable.sql) houtcome).trans ?_
  change List.map GraphTable.sql ((g.after calls).tables ++ [_]) = _
  rw [List.map_append, htexts]
  decide +kernel

end JoinGraph

end EntityQuery
