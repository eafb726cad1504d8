import EntityQuery.Proofs.JoinGraph.Acceptance

/-!
# Operations on graphs that have grown

What an operation adds to a graph can be said without the graph: a table under a
link, or the condition on the rows, and the values that come with either
(`Addition`). An operation that has succeeded on a graph makes the same addition to
every graph that has grown out of it, as long as the addition still fits: its alias,
its pair of a parent and a relationship, and the place for the condition on the rows
have not been taken, and its values do not conflict with those that were bound since
(`Addition.exists_isMadeBy_stage`). Everything else that the operation asked for is there
already and stays.
-/

namespace EntityQuery

/-- Whether an operation gives the condition on the rows. -/
def GraphOperation.isFilter : GraphOperation → Bool
  | filter _ _ => true
  | _ => false

namespace Restriction

variable {dialect : Sql.Dialect} {lookup other : Dict String} {parameters more : Parameters}
  {values : Values} {restriction r : Restriction}

/-- The values that come with a condition: those given, unless nothing is restricted. -/
def brought (condition? : Option Json) (values : Values) : Dict Json :=
  if condition?.all Condition.isBlank then ∅ else values.bindings

/-- A condition that has been accepted is accepted with more properties and values, to the
same effect, as long as its values do not conflict. -/
theorem ofCondition_of_grown {condition : Json}
    (h : ofCondition dialect lookup parameters condition values = .ok restriction)
    (kept : ∀ property reference, lookup.get? property = some reference →
      other.get? property = some reference)
    (grows : parameters.GrowsTo more) :
    ofCondition dialect other more condition values = .ok r ↔
      more.values.Agrees values.bindings ∧ r = ⟨restriction.sql, more.bind values.bindings⟩ := by
  obtain ⟨tree, read, ⟨-, available, bound⟩, rfl⟩ := ofCondition_eq_ok_iff_accepts.1 h
  have hkept : ∀ property ∈ tree.columns, ∃ reference,
      lookup.get? property = some reference ∧ other.get? property = some reference := by
    intro property hproperty
    obtain ⟨reference, hreference⟩ := Option.isSome_iff_exists.1 (available property hproperty)
    exact ⟨reference, hreference, kept property reference hreference⟩
  -- only the properties that are mentioned matter, and those stand for the same columns
  have hsql : sqlIn dialect other tree = sqlIn dialect lookup tree := by
    rw [sqlIn, sqlIn, Condition.mapColumns_congr fun property hproperty => ?_]
    obtain ⟨reference, hold, hnew⟩ := hkept property (Condition.mem_columns.2 hproperty)
    rw [Condition.nameIn_of_some hold, Condition.nameIn_of_some hnew]
  rw [ofCondition_eq_ok_iff_accepts, ← hsql]
  constructor
  · rintro ⟨tree', read', accepts, rfl⟩
    obtain rfl := Except.ok.inj (read.symm.trans read')
    exact ⟨accepts.agrees, rfl⟩
  · rintro ⟨agrees, rfl⟩
    refine ⟨tree, read, ⟨agrees, fun property hproperty => ?_, fun name hname => ?_⟩, rfl⟩
    · obtain ⟨reference, -, hnew⟩ := hkept property hproperty
      exact Option.isSome_iff_exists.2 ⟨reference, hnew⟩
    · exact (bound name hname).imp_left (grows name)

theorem ofCondition?_of_grown {condition? : Option Json}
    (h : ofCondition? dialect lookup parameters condition? values = .ok restriction)
    (kept : ∀ property reference, lookup.get? property = some reference →
      other.get? property = some reference)
    (grows : parameters.GrowsTo more) :
    ofCondition? dialect other more condition? values = .ok r ↔
      more.values.Agrees (brought condition? values) ∧
        r = ⟨restriction.sql, more.bind (brought condition? values)⟩ := by
  have hnothing : (.ok ⟨none, more⟩ : Except QueryError Restriction) = .ok r ↔
      more.values.Agrees ∅ ∧ r = ⟨none, more.bind ∅⟩ := by
    rw [Parameters.bind_empty, and_iff_right (Dict.agrees_empty more.values), Except.ok.injEq,
      eq_comm]
  cases condition? with
  | none =>
      obtain rfl := Except.ok.inj h
      exact hnothing
  | some condition =>
      rw [ofCondition?] at h ⊢
      cases hblank : Condition.isBlank condition with
      | true =>
          rw [if_pos hblank] at h
          obtain rfl := Except.ok.inj h
          rw [if_pos rfl, brought, Option.all_some, if_pos hblank]
          exact hnothing
      | false =>
          rw [if_neg (ne_true_of_eq_false hblank)] at h
          rw [if_neg Bool.false_ne_true, brought, Option.all_some,
            if_neg (ne_true_of_eq_false hblank)]
          exact ofCondition_of_grown h kept grows

end Restriction

namespace JoinGraph

variable {g g' gx : JoinGraph}

/-- A graph has grown out of another: its tables are still there, its properties stand for
the same columns and its parameters are still bound. -/
structure GrowsInto (g g' : JoinGraph) : Prop where
  catalog_eq : g'.catalog = g.catalog
  dialect_eq : g'.dialect = g.dialect
  table? : ∀ label t, g.table? label = some t →
    ∃ t', g'.table? label = some t' ∧ t'.table = t.table
  lookup : ∀ property reference, g.lookup.get? property = some reference →
    g'.lookup.get? property = some reference
  parameters : g.parameters.GrowsTo g'.parameters

theorem GrowsInto.refl (g : JoinGraph) : g.GrowsInto g where
  catalog_eq := rfl
  dialect_eq := rfl
  table? _ t h := ⟨t, h, rfl⟩
  lookup _ _ h := h
  parameters := .refl g.parameters

/-- A link that was found is found again, unless its pair has been joined. -/
theorem linkOf_of_grown {spec : TableSpec} {link link' : Link} (h : g.linkOf spec = .ok link)
    (grown : g.GrowsInto g') :
    g'.linkOf spec = .ok link' ↔
      (link.parent, link.relationship.property) ∉ g'.mappings ∧ link' = link := by
  obtain ⟨parent, property, owner, relationship, hparent, hproperty, howner, -, hrelationship,
    rfl⟩ := linkOf_eq_ok_iff.1 h
  obtain ⟨-, -, -, rfl⟩ := Catalog.of_relationship hrelationship
  obtain ⟨owner', howner', htable⟩ := grown.table? parent owner howner
  rw [linkOf_eq_ok_iff]
  constructor
  · rintro ⟨parent', property', owner'', relationship', hparent', hproperty', howner'', hfresh,
      hrelationship', rfl⟩
    obtain rfl := Option.some.inj (hparent.symm.trans hparent')
    obtain rfl := Option.some.inj (hproperty.symm.trans hproperty')
    obtain rfl := Option.some.inj (howner'.symm.trans howner'')
    rw [grown.catalog_eq, htable, hrelationship] at hrelationship'
    obtain rfl := Except.ok.inj hrelationship'
    exact ⟨hfresh, rfl⟩
  · rintro ⟨hfresh, rfl⟩
    refine ⟨parent, relationship.property, owner', relationship, hparent, hproperty, howner',
      hfresh, ?_, rfl⟩
    rw [grown.catalog_eq, htable, hrelationship]

theorem keyCondition_of_grown {spec : JoinSpec} {parent property : String} {condition : Json}
    (h : g.keyCondition spec parent property = .ok condition) (grown : g.GrowsInto g') :
    g'.keyCondition spec parent property = .ok condition := by
  rw [keyCondition] at h ⊢
  cases howner : g.table? parent with
  | none =>
      rw [howner] at h
      cases h
  | some owner =>
      obtain ⟨owner', howner', htable⟩ := grown.table? parent owner howner
      rw [howner] at h
      rw [howner', ← h]
      dsimp only
      rw [grown.catalog_eq, htable]

/-! ### What operations add -/

/-- The pair of a parent and a relationship that a link joins. -/
def linkPair (link : Link) : String × String := (link.parent, link.relationship.property)

/-- What an operation adds to a graph, with the values that come with it. -/
inductive Addition where
  | table (added : GraphTable) (link : Link) (values : Dict Json)
  /-- The condition on the rows, if it restricts any, as it was given and in SQL. -/
  | rows (condition? : Option (Json × Option String)) (values : Dict Json)

namespace Addition

/-- The base table with a condition on the rows. -/
def restrict (base : GraphTable) : Option (Json × Option String) → GraphTable
  | some (condition, sql) => { base with condition := some condition, sql := sql }
  | none => base

/-- The graph with the addition. -/
def apply (g : JoinGraph) : Addition → JoinGraph
  | table added link values => g.concat added link (g.parameters.bind values)
  | rows condition? values =>
      { g with
        base := restrict g.base condition?
        parameters := g.parameters.bind values
        filtered := true }

/-- The tables that are added. -/
def tables : Addition → List GraphTable
  | table added _ _ => [added]
  | rows _ _ => []

/-- Whether nothing in a graph stands in the way of the addition. -/
def Fits (g : JoinGraph) : Addition → Prop
  | table added link values => Text.isName added.alias = true ∧ g.table? added.alias = none ∧
      linkPair link ∉ g.mappings ∧ g.parameters.values.Agrees values
  | rows _ values => g.filtered = false ∧ g.parameters.values.Agrees values

variable {a : Addition} {added : GraphTable} {link : Link} {values : Dict Json}

@[simp] theorem alias_restrict (base : GraphTable) (condition? : Option (Json × Option String)) :
    (restrict base condition?).alias = base.alias := by
  cases condition? <;> rfl

@[simp] theorem table_restrict (base : GraphTable) (condition? : Option (Json × Option String)) :
    (restrict base condition?).table = base.table := by
  cases condition? <;> rfl

theorem table?_apply_table (g : JoinGraph) (added : GraphTable) (link : Link)
    (values : Dict Json) (label : String) :
    ((table added link values).apply g).table? label =
      (g.table? label).or (if added.alias = label then some added else none) := by
  have htables : ((table added link values).apply g).tables = g.tables ++ [added] := rfl
  rw [JoinGraph.table?, htables, List.find?_append, JoinGraph.table?, List.find?_singleton]
  simp

theorem table?_apply_rows (g : JoinGraph) (condition? : Option (Json × Option String))
    (values : Dict Json) (label : String) :
    ((rows condition? values).apply g).table? label =
      if g.base.alias = label then some (restrict g.base condition?) else g.table? label := by
  by_cases h : g.base.alias = label <;> simp [JoinGraph.table?, JoinGraph.tables, apply, h]

/-- Where an addition fits, the graph grows by it. -/
theorem growsInto_apply (h : g.IsCoherent) (fits : a.Fits g) : g.GrowsInto (a.apply g) := by
  cases a with
  | table added link values =>
      obtain ⟨named, hnone, -, -⟩ := fits
      have fresh : ∀ t ∈ g.tables, t.alias ≠ added.alias := fun t ht heq =>
        List.find?_eq_none.1 hnone t ht (decide_eq_true heq)
      constructor
      case catalog_eq => rfl
      case dialect_eq => rfl
      case table? =>
          intro label t hlabel
          exact ⟨t, by rw [table?_apply_table, hlabel, Option.some_or], rfl⟩
      case lookup =>
          intro property reference hreference
          -- a property that is known already is none of the fresh table
          have hbound := Option.isSome_iff_exists.2 ⟨reference, hreference⟩
          have hmem := mem_properties_of_contains h.isDisjointUnion_lookup hbound
          exact (get?_extendLookup_of_mem h named fresh hmem).symm.trans hreference
      case parameters => exact Parameters.growsTo_bind_self g.parameters values
  | rows condition? values =>
      constructor
      case catalog_eq => rfl
      case dialect_eq => rfl
      case table? =>
          intro label t hlabel
          rw [table?_apply_rows]
          split
          next hbase =>
            have hfound : g.table? label = some g.base := by
              rw [JoinGraph.table?, JoinGraph.tables, List.find?_cons, decide_eq_true hbase]
            obtain rfl := Option.some.inj (hfound.symm.trans hlabel)
            exact ⟨_, rfl, table_restrict _ _⟩
          next => exact ⟨t, hlabel, rfl⟩
      case lookup => exact fun _ _ hreference => hreference
      case parameters => exact Parameters.growsTo_bind_self g.parameters values

/-- A stage makes an addition to the graphs that have grown out of a graph: it succeeds
exactly where the addition fits. -/
def IsMadeBy (a : Addition) (stage : JoinGraph → Except QueryError JoinGraph) (g : JoinGraph) :
    Prop :=
  ∀ g', g.GrowsInto g' → ∀ g'', stage g' = .ok g'' ↔ a.Fits g' ∧ g'' = a.apply g'

theorem exists_isMadeBy_withTable {spec : TableSpec} (h : g.withTable spec = .ok gx) :
    ∃ a : Addition, a.IsMadeBy (·.withTable spec) g := by
  obtain ⟨table, link, restriction, hname, -, htable, hlink, hrestriction, -⟩ :=
    withTable_eq_ok_iff.1 h
  let added : GraphTable := ⟨table, spec.alias, some link, spec.condition, restriction.sql⟩
  refine ⟨.table added link (Restriction.brought spec.condition spec.values),
    fun g' grown g'' => ?_⟩
  -- the condition may mention the new table, so its look-up has that table's columns too
  have hkept : ∀ property reference,
      (extendLookup g.lookup added.columns).get? property = some reference →
        (extendLookup g'.lookup added.columns).get? property = some reference := by
    intro property reference hreference
    rw [get?_extendLookup, Option.or_eq_some_iff] at hreference ⊢
    exact hreference.imp_right fun ⟨hnone, hold⟩ => ⟨hnone, grown.lookup property reference hold⟩
  have haccepted := fun other =>
    Restriction.ofCondition?_of_grown (r := other) hrestriction hkept grown.parameters
  rw [withTable_eq_ok_iff, grown.catalog_eq, grown.dialect_eq]
  constructor
  · rintro ⟨table', link', restriction', -, hfresh, htable', hlink', hrestriction', rfl⟩
    obtain rfl := Except.ok.inj (htable.symm.trans htable')
    obtain ⟨hpair, rfl⟩ := (linkOf_of_grown hlink grown).1 hlink'
    obtain ⟨hagrees, rfl⟩ := (haccepted restriction').1 hrestriction'
    exact ⟨⟨hname, hfresh, hpair, hagrees⟩, rfl⟩
  · rintro ⟨⟨-, hfresh, hpair, hagrees⟩, rfl⟩
    refine ⟨table, link, ⟨restriction.sql, g'.parameters.bind
      (Restriction.brought spec.condition spec.values)⟩, hname, hfresh, htable, ?_, ?_, rfl⟩
    · exact (linkOf_of_grown hlink grown).2 ⟨hpair, rfl⟩
    · exact (haccepted _).2 ⟨hagrees, rfl⟩

theorem exists_isMadeBy_withJoin {kind : JoinKind} {spec : JoinSpec}
    (h : g.withJoin kind spec = .ok gx) : ∃ a : Addition, a.IsMadeBy (·.withJoin kind spec) g := by
  obtain ⟨parent, property, condition, hsplit, hcondition, hadded⟩ :=
    exists_withTable_of_withJoin h
  obtain ⟨a, ha⟩ := exists_isMadeBy_withTable hadded
  refine ⟨a, fun g' grown g'' => ?_⟩
  have hcondition' : spec.condition.elim (g'.keyCondition spec parent property) .ok =
      .ok condition := by
    cases hgiven : spec.condition with
    | some given => rwa [hgiven] at hcondition
    | none =>
        rw [hgiven, Option.elim_none] at hcondition
        exact keyCondition_of_grown hcondition grown
  dsimp only
  rw [withJoin_eq hsplit hcondition']
  exact ha g' grown g''

theorem exists_isMadeBy_withFilter {condition : Json} {values : Values}
    (h : g.withFilter condition values = .ok gx) :
    ∃ condition? brought, (rows condition? brought).IsMadeBy (·.withFilter condition values) g := by
  rcases of_withFilter h with ⟨hblank, -⟩ | ⟨hblank, restriction, hrestriction, -⟩
  · refine ⟨none, ∅, fun g' _ g'' => ?_⟩
    dsimp only
    rw [withFilter_eq_ok_iff, Fits, hblank]
    simp [apply, restrict, Dict.agrees_empty, Parameters.bind_empty]
  · refine ⟨some (condition, restriction.sql), values.bindings, fun g' grown g'' => ?_⟩
    rw [← grown.dialect_eq] at hrestriction
    have haccepted := fun other =>
      Restriction.ofCondition_of_grown (r := other) hrestriction grown.lookup grown.parameters
    dsimp only
    rw [withFilter_eq_ok_iff, Fits, hblank, and_assoc]
    simp only [Bool.false_eq_true, false_and, false_or, true_and]
    refine and_congr_right fun _ => ?_
    constructor
    · rintro ⟨restriction', hrestriction', rfl⟩
      obtain ⟨hagrees, rfl⟩ := (haccepted restriction').1 hrestriction'
      exact ⟨hagrees, rfl⟩
    · rintro ⟨hagrees, rfl⟩
      exact ⟨_, (haccepted _).2 ⟨hagrees, rfl⟩, rfl⟩

/-- An operation that has succeeded makes the same addition to every graph that has grown
out of its graph, as long as the addition fits there. -/
theorem exists_isMadeBy_stage {operation : GraphOperation} (h : operation.stage g = .ok gx) :
    ∃ a : Addition, a.IsMadeBy operation.stage g ∧ (operation.isFilter = true → a.tables = []) := by
  cases operation with
  | addTable spec =>
      obtain ⟨a, ha⟩ := exists_isMadeBy_withTable h
      exact ⟨a, ha, fun hfilter => nomatch hfilter⟩
  | join kind spec =>
      obtain ⟨a, ha⟩ := exists_isMadeBy_withJoin h
      exact ⟨a, ha, fun hfilter => nomatch hfilter⟩
  | filter condition values =>
      obtain ⟨condition?, brought, ha⟩ := exists_isMadeBy_withFilter h
      exact ⟨_, ha, fun _ => rfl⟩

end Addition

end JoinGraph

end EntityQuery
