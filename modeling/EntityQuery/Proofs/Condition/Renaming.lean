import EntityQuery.Condition.Parser
import EntityQuery.Condition.Sql
import EntityQuery.Proofs.Condition.ColumnNames
import EntityQuery.Proofs.Parameters
import EntityQuery.Proofs.Except
import Mathlib.Data.List.Find

/-!
# Conditions when look-ups and values grow

What a condition is renamed to depends on the columns that it mentions, and
whether it can be compiled on the placeholders that it uses. So an outcome
stays when other columns or other values are added.
-/

namespace EntityQuery.Condition

variable {lookup other : String → Option String}

/-- Renaming looks up what the condition mentions. -/
theorem rename_congr {condition : Condition}
    (h : ∀ column ∈ condition.mentions, lookup column = other column) :
    condition.rename lookup = condition.rename other := by
  have hnames : condition.mapColumns (nameIn lookup) = condition.mapColumns (nameIn other) :=
    mapColumns_congr fun column hcolumn => by rw [nameIn, nameIn, h column hcolumn]
  rw [rename_eq, rename_eq, hnames, needing, needing,
    List.find?_congr fun column hcolumn => by rw [h column hcolumn]]

/-- The check passes if every placeholder is bound. -/
theorem checkBound_eq_ok {condition : Condition} {values : Dict Json} :
    condition.checkBound (some values) = .ok () ↔
      ∀ name ∈ condition.parameters, values.contains name = true := by
  rw [checkBound, Option.bind_some, unbound?]
  cases hfound : condition.parameters.find? fun name => !values.contains name with
  | none => simpa using List.find?_eq_none.1 hfound
  | some found =>
      have hmem := List.mem_of_find?_eq_some hfound
      have hunbound := List.find?_some hfound
      simp only [Bool.not_eq_true', reduceCtorEq, false_iff] at hunbound ⊢
      exact fun hall => Bool.false_ne_true (hunbound.symm.trans (hall found hmem))

/-- A condition that could be compiled still can be when more names are bound. -/
theorem compile_mono {d : Sql.Dialect} {condition : Condition} {before after : Parameters}
    {sql : String} (h : condition.compile d (some before.values) = .ok sql)
    (grows : before.GrowsTo after) : condition.compile d (some after.values) = .ok sql := by
  obtain ⟨_, hbound, hsql⟩ := bind_eq_ok.1 h
  refine bind_eq_ok.2 ⟨(), checkBound_eq_ok.2 fun name hname => ?_, hsql⟩
  exact grows name (checkBound_eq_ok.1 hbound name hname)

/-- A JSON value reads as a condition over visible properties. With the columns
that a look-up gives for them it compiles to the SQL, and all its placeholders
are bound. -/
def CompilesTo (dialect : Sql.Dialect) (lookup : Dict String) (parameters : Parameters)
    (visible : String → Prop) (source : Json) (sql : String) : Prop :=
  ∃ tree renamed, ofJson source = .ok tree ∧ tree.rename lookup.get? = .ok renamed ∧
    renamed.compile dialect (some parameters.values) = .ok sql ∧
    ∀ property ∈ tree.columns, visible property

/-- What a condition compiles to stays when its properties keep their columns
and its placeholders their values. -/
theorem CompilesTo.mono {dialect : Sql.Dialect} {lookup other : Dict String}
    {before after : Parameters} {visible visible' : String → Prop} {source : Json} {sql : String}
    (h : CompilesTo dialect lookup before visible source sql) (grows : before.GrowsTo after)
    (kept : ∀ property, visible property → lookup.get? property = other.get? property)
    (seen : ∀ property, visible property → visible' property) :
    CompilesTo dialect other after visible' source sql := by
  obtain ⟨tree, renamed, hread, hrename, hcompile, hvisible⟩ := h
  refine ⟨tree, renamed, hread, ?_, compile_mono hcompile grows, fun property hproperty =>
    seen property (hvisible property hproperty)⟩
  have hcongr : tree.rename lookup.get? = tree.rename other.get? :=
    rename_congr fun property hproperty =>
      kept property (hvisible property (mem_columns.2 hproperty))
  rw [← hcongr, hrename]

end EntityQuery.Condition
