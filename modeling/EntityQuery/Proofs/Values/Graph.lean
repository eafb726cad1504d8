import EntityQuery.JoinGraph.Sql
import EntityQuery.Proofs.JoinGraph.Operations
import EntityQuery.Proofs.Values.Names

/-!
# Values in join graphs

An operation on two graphs that differ in their values only, with values of
its own under the same names, leads to graphs that differ in their values only
(`GraphOperation.SameButValues.stage`). The SQL of such graphs is the same.
-/

namespace EntityQuery

/-- The same table to add, with other values under the same names. -/
inductive TableSpec.SameButValues (spec : TableSpec) : TableSpec → Prop
  | of (values : Values) (h : spec.values.bindings.keys = values.bindings.keys) :
      SameButValues spec { spec with values }

/-- The same table to join, with other values under the same names. -/
inductive JoinSpec.SameButValues (spec : JoinSpec) : JoinSpec → Prop
  | of (values : Values) (h : spec.values.bindings.keys = values.bindings.keys) :
      SameButValues spec { spec with values }

/-- The same operation, with other values under the same names. -/
inductive GraphOperation.SameButValues : GraphOperation → GraphOperation → Prop
  | addTable {spec spec' : TableSpec} (h : spec.SameButValues spec') :
      SameButValues (addTable spec) (addTable spec')
  | join (kind : JoinKind) {spec spec' : JoinSpec} (h : spec.SameButValues spec') :
      SameButValues (join kind spec) (join kind spec')
  | filter (condition : Json) {values values' : Values}
      (h : values.bindings.keys = values'.bindings.keys) :
      SameButValues (filter condition values) (filter condition values')

namespace JoinGraph

/-- The same graph, with other values under the same names. -/
inductive SameButValues (g : JoinGraph) : JoinGraph → Prop
  | of (parameters : Parameters) (h : g.parameters.SameNames parameters) :
      SameButValues g { g with parameters }

variable {g h g' h' : JoinGraph}

theorem SameButValues.names (same : g.SameButValues h) : g.parameters.SameNames h.parameters := by
  obtain ⟨_, names⟩ := same
  exact names

theorem SameButValues.sql_eq (same : g.SameButValues h) : g.sql = h.sql := by
  obtain ⟨_, _⟩ := same
  rfl

theorem SameButValues.withTable {spec spec' : TableSpec} (same : g.SameButValues h)
    (alike : spec.SameButValues spec') (hg : g.withTable spec = .ok g')
    (hh : h.withTable spec' = .ok h') : g'.SameButValues h' := by
  obtain ⟨parameters, names⟩ := same
  obtain ⟨values, hkeys⟩ := alike
  obtain ⟨table, link, restriction, -, -, htable, hlink, hrestriction, rfl⟩ := of_withTable hg
  obtain ⟨table', link', restriction', -, -, htable', hlink', hrestriction', rfl⟩ :=
    of_withTable hh
  obtain rfl : table = table' := Except.ok.inj (htable.symm.trans htable')
  obtain rfl : link = link' := Except.ok.inj (hlink.symm.trans hlink')
  obtain ⟨hsql, names'⟩ :=
    Restriction.sameNames_of_ofCondition? names hkeys hrestriction hrestriction'
  rw [← hsql]
  exact .of _ names'

theorem SameButValues.withJoin {kind : JoinKind} {spec spec' : JoinSpec} (same : g.SameButValues h)
    (alike : spec.SameButValues spec') (hg : g.withJoin kind spec = .ok g')
    (hh : h.withJoin kind spec' = .ok h') : g'.SameButValues h' := by
  obtain ⟨parent, property, condition, hsplit, hcondition, hg⟩ := exists_withTable_of_withJoin hg
  obtain ⟨parent', property', condition', hsplit', hcondition', hh⟩ :=
    exists_withTable_of_withJoin hh
  obtain ⟨values, hkeys⟩ := alike
  obtain ⟨rfl, rfl⟩ := Prod.mk.inj (Option.some.inj (hsplit.symm.trans hsplit'))
  -- where the relationship gives the condition, it looks at tables and catalog only
  have heq : condition = condition' := by
    obtain ⟨_, _⟩ := same
    exact Except.ok.inj (hcondition.symm.trans hcondition')
  subst heq
  exact same.withTable (.of values hkeys) hg hh

theorem SameButValues.withFilter {condition : Json} {values values' : Values}
    (same : g.SameButValues h) (hkeys : values.bindings.keys = values'.bindings.keys)
    (hg : g.withFilter condition values = .ok g')
    (hh : h.withFilter condition values' = .ok h') : g'.SameButValues h' := by
  obtain ⟨parameters, names⟩ := same
  rcases of_withFilter hg with ⟨hblank, rfl⟩ | ⟨hblank, restriction, hrestriction, rfl⟩
  · rcases of_withFilter hh with ⟨-, rfl⟩ | ⟨hblank', -⟩
    · exact .of parameters names
    · rw [hblank] at hblank'
      cases hblank'
  · rcases of_withFilter hh with ⟨hblank', -⟩ | ⟨-, restriction', hrestriction', rfl⟩
    · rw [hblank] at hblank'
      cases hblank'
    · obtain ⟨hsql, names'⟩ :=
        Restriction.sameNames_of_ofCondition names hkeys hrestriction hrestriction'
      rw [← hsql]
      exact .of _ names'

end JoinGraph

/-- Whether values differ makes no difference to what an operation does to a graph. -/
theorem GraphOperation.SameButValues.stage {operation operation' : GraphOperation}
    {g h g' h' : JoinGraph} (alike : operation.SameButValues operation') (same : g.SameButValues h)
    (hg : operation.stage g = .ok g') (hh : operation'.stage h = .ok h') :
    g'.SameButValues h' := by
  cases alike with
  | addTable alike => exact same.withTable alike hg hh
  | join kind alike => exact same.withJoin alike hg hh
  | filter condition hkeys => exact same.withFilter hkeys hg hh

end EntityQuery
