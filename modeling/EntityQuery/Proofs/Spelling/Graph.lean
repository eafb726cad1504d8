import EntityQuery.Proofs.JoinGraph.Operations
import EntityQuery.Proofs.Spelling.Outcomes
import Mathlib.Data.Option.Defs

/-!
# Join graphs in two dialects

Graphs that differ in their dialect, and so in the SQL of their conditions, are
extended alike by every operation: both fail for the same reason, or both lead
to such graphs (`GraphOperation.sameOutcome_stage`).
-/

namespace EntityQuery

/-! ### What does not look at the dialect -/

theorem Catalog.isCommon_table (catalog : Catalog) (entity : String) :
    IsCommon (catalog.table entity) := by
  unfold table
  split
  next => exact isCommon_ok _
  next => exact isCommon_error rfl

theorem Catalog.isCommon_relationship (catalog : Catalog) (owner target property : String) :
    IsCommon (catalog.relationship owner target property) := by
  unfold relationship
  split
  next => exact isCommon_ok _
  next => exact isCommon_error rfl

namespace Parameters

theorem isCommon_add (parameters : Parameters) (overwrite : Bool) (name : String) (value : Json) :
    IsCommon (parameters.add overwrite name value) := by
  unfold add
  split
  next => exact isCommon_ok _
  next =>
    split
    next => exact isCommon_ok _
    next =>
      split
      next => exact isCommon_ok _
      next => exact isCommon_error rfl

theorem isCommon_addAll (parameters : Parameters) (overwrite : Bool)
    (entries : List (String × Json)) : IsCommon (parameters.addAll overwrite entries).1 := by
  induction entries generalizing parameters with
  | nil => exact isCommon_ok ()
  | cons entry rest ih =>
      rw [addAll]
      split
      next => exact ih _
      next error hadd => exact isCommon_error (isCommon_add _ _ _ _ _ hadd)

theorem isCommon_extend (parameters : Parameters) (values : Values) :
    IsCommon (parameters.extend values) := by
  unfold extend
  split
  next => exact isCommon_ok _
  next error _ hadd =>
    refine isCommon_error (isCommon_addAll parameters false values.order error ?_)
    rw [hadd]

end Parameters

theorem Relationship.isCommon_keyCondition (r : Relationship) (parent label : String) :
    IsCommon (r.keyCondition parent label) := by
  refine (isCommon_mapM fun pair _ => ?_).bind fun equalities _ => ?_
  · split
    next => exact isCommon_ok _
    next => exact isCommon_error rfl
  · split
    next => exact isCommon_error rfl
    next => exact isCommon_ok _
    next => exact isCommon_ok _

namespace JoinGraph

theorem isCommon_checkAlias (label : String) : IsCommon (checkAlias label) := by
  unfold checkAlias
  split
  next => exact isCommon_ok _
  next => exact isCommon_error rfl

theorem isCommon_column (g : JoinGraph) (property : String) : IsCommon (g.column property) := by
  unfold column
  split
  next => exact isCommon_ok _
  next => exact isCommon_error rfl

end JoinGraph

/-! ### Conditions -/

/-- Conditions with the same parameters, both of them in SQL or neither. -/
structure Restriction.SameButSpelling (r r' : Restriction) : Prop where
  isSome : r.sql.isSome = r'.sql.isSome
  parameters : r.parameters = r'.parameters

namespace Restriction

variable (d d' : Sql.Dialect) (lookup : Dict String) (parameters : Parameters) (values : Values)

theorem sameOutcome_ofCondition (condition : Json) :
    SameOutcome SameButSpelling (ofCondition d lookup parameters condition values)
      (ofCondition d' lookup parameters condition values) := by
  refine (Parameters.isCommon_extend parameters values).same_bind fun extended _ => ?_
  refine (isCommon_mapError_condition (Condition.ofJson condition)).same_bind fun tree _ => ?_
  dsimp only
  split
  next => exact .error rfl
  next =>
    refine (isCommon_mapError_condition (tree.rename lookup.get?)).same_bind fun renamed _ => ?_
    -- whether placeholders are bound is the same question in all dialects
    rw [Condition.compile, Condition.compile, mapError_bind, mapError_bind]
    cases renamed.checkBound (some extended.values) with
    | error error => exact .error rfl
    | ok _ => exact .ok ⟨rfl, rfl⟩

theorem sameOutcome_ofCondition? (condition? : Option Json) :
    SameOutcome SameButSpelling (ofCondition? d lookup parameters condition? values)
      (ofCondition? d' lookup parameters condition? values) := by
  cases condition? with
  | none => exact .ok ⟨rfl, rfl⟩
  | some condition =>
      unfold ofCondition?
      dsimp only
      split
      next => exact .ok ⟨rfl, rfl⟩
      next => exact sameOutcome_ofCondition d d' lookup parameters values condition

end Restriction

/-! ### Graphs -/

/-- The same table, with its condition in SQL of another dialect. -/
inductive GraphTable.SameButSpelling (t : GraphTable) : GraphTable → Prop
  | of (sql : Option String) (h : t.sql.isSome = sql.isSome) : SameButSpelling t { t with sql }

theorem GraphTable.SameButSpelling.refl (t : GraphTable) : t.SameButSpelling t := .of t.sql rfl

theorem GraphTable.SameButSpelling.alias_eq {t u : GraphTable} (same : t.SameButSpelling u) :
    t.alias = u.alias := by
  obtain ⟨_, _⟩ := same
  rfl

/-- What is found by a common mark in related lists is related. -/
theorem find?_cases_of_forall₂ {α β : Type} {R : α → β → Prop} {p : α → Bool} {q : β → Bool}
    {xs : List α} {ys : List β} (h : List.Forall₂ R xs ys) (same : ∀ x y, R x y → p x = q y) :
    (xs.find? p = none ∧ ys.find? q = none) ∨
      ∃ x y, xs.find? p = some x ∧ ys.find? q = some y ∧ R x y := by
  induction h with
  | nil => exact .inl ⟨rfl, rfl⟩
  | @cons x y xs ys related _ ih =>
      rw [List.find?_cons, List.find?_cons, ← same x y related]
      split
      next => exact .inr ⟨x, y, rfl, rfl, related⟩
      next => exact ih

namespace JoinGraph

/-- The same graph in another dialect. -/
inductive SameButSpelling (g : JoinGraph) : JoinGraph → Prop
  | of (dialect : Sql.Dialect) (base : GraphTable) (joined : List GraphTable)
      (hbase : g.base.SameButSpelling base)
      (hjoined : List.Forall₂ GraphTable.SameButSpelling g.joined joined) :
      SameButSpelling g { g with dialect, base, joined }

variable {g h : JoinGraph}

theorem SameButSpelling.refl (g : JoinGraph) : g.SameButSpelling g :=
  .of g.dialect g.base g.joined (.refl _) (List.forall₂_same.2 fun t _ => .refl t)

theorem SameButSpelling.base (same : g.SameButSpelling h) : g.base.SameButSpelling h.base := by
  obtain ⟨_, _, _, hbase, -⟩ := same
  exact hbase

theorem SameButSpelling.joined (same : g.SameButSpelling h) :
    List.Forall₂ GraphTable.SameButSpelling g.joined h.joined := by
  obtain ⟨_, _, _, -, hjoined⟩ := same
  exact hjoined

theorem SameButSpelling.tables (same : g.SameButSpelling h) :
    List.Forall₂ GraphTable.SameButSpelling g.tables h.tables :=
  .cons same.base same.joined

/-- The tables of an alias in both graphs, if there are any. -/
theorem SameButSpelling.table?_cases (same : g.SameButSpelling h) (label : String) :
    (g.table? label = none ∧ h.table? label = none) ∨
      ∃ t u, g.table? label = some t ∧ h.table? label = some u ∧ t.SameButSpelling u := by
  refine find?_cases_of_forall₂ same.tables fun t u related => ?_
  rw [related.alias_eq]

theorem SameButSpelling.withParameters (same : g.SameButSpelling h) (parameters : Parameters) :
    { g with parameters }.SameButSpelling { h with parameters } := by
  obtain ⟨dialect, base, joined, hbase, hjoined⟩ := same
  exact .of dialect base joined hbase hjoined

theorem sameOutcome_start (catalog : Catalog) (d d' : Sql.Dialect) (entity label : String) :
    SameOutcome SameButSpelling (start catalog d entity label) (start catalog d' entity label) := by
  refine (isCommon_checkAlias label).same_bind fun _ _ => ?_
  refine (catalog.isCommon_table entity).same_bind fun table _ => ?_
  exact .ok (.of d' _ [] (.refl _) .nil)

theorem SameButSpelling.linkOf (same : g.SameButSpelling h) (spec : TableSpec) :
    SameOutcome Eq (g.linkOf spec) (h.linkOf spec) := by
  unfold JoinGraph.linkOf
  split
  next parent property _ _ =>
    rcases same.table?_cases parent with ⟨hg, hh⟩ | ⟨t, u, hg, hh, related⟩
    · rw [hg, hh]
      exact .error rfl
    · rw [hg, hh]
      obtain ⟨_, _⟩ := related
      obtain ⟨_, _, _, -, -⟩ := same
      dsimp only
      split
      next => exact .error rfl
      next =>
        refine (g.catalog.isCommon_relationship _ _ _).same_bind fun relationship _ => ?_
        exact .ok rfl
  next => exact .error rfl

theorem SameButSpelling.withTable (same : g.SameButSpelling h) (spec : TableSpec) :
    SameOutcome SameButSpelling (g.withTable spec) (h.withTable spec) := by
  refine (isCommon_checkAlias spec.alias).same_bind fun _ _ => ?_
  have hlink := same.linkOf spec
  have hfresh : (g.table? spec.alias).isSome = (h.table? spec.alias).isSome := by
    rcases same.table?_cases spec.alias with ⟨hg, hh⟩ | ⟨t, u, hg, hh, -⟩
    · rw [hg, hh]
    · rw [hg, hh]
      rfl
  obtain ⟨dialect, base, joined, hbase, hjoined⟩ := same
  dsimp only
  rw [← hfresh]
  split
  next => exact .error rfl
  next =>
    refine (g.catalog.isCommon_table spec.entity).same_bind fun table _ => ?_
    refine hlink.bind ?_
    rintro link _ rfl
    refine (Restriction.sameOutcome_ofCondition? g.dialect dialect _ g.parameters spec.values
      spec.condition).bind fun restriction restriction' related => ?_
    rw [← related.parameters]
    exact .ok (.of dialect base _ hbase
      (List.rel_append hjoined (.cons (.of restriction'.sql related.isSome) .nil)))

theorem SameButSpelling.keyCondition (same : g.SameButSpelling h) (spec : JoinSpec)
    (parent property : String) :
    SameOutcome Eq (g.keyCondition spec parent property) (h.keyCondition spec parent property) := by
  unfold JoinGraph.keyCondition
  rcases same.table?_cases parent with ⟨hg, hh⟩ | ⟨t, u, hg, hh, related⟩
  · rw [hg, hh]
    exact .error rfl
  · rw [hg, hh]
    obtain ⟨_, _⟩ := related
    obtain ⟨_, _, _, -, -⟩ := same
    refine IsCommon.same ((g.catalog.isCommon_relationship _ _ _).bind fun r _ => ?_)
    exact (r.isCommon_keyCondition parent spec.alias).bind fun _ _ => isCommon_ok _

theorem SameButSpelling.withJoin (same : g.SameButSpelling h) (kind : JoinKind) (spec : JoinSpec) :
    SameOutcome SameButSpelling (g.withJoin kind spec) (h.withJoin kind spec) := by
  unfold JoinGraph.withJoin
  split
  next => exact .error rfl
  next parent property _ =>
    dsimp only
    split
    next => exact same.withTable _
    next =>
      refine (same.keyCondition spec parent property).bind ?_
      rintro condition _ rfl
      exact same.withTable _

theorem SameButSpelling.withFilter (same : g.SameButSpelling h) (condition : Json)
    (values : Values) :
    SameOutcome SameButSpelling (g.withFilter condition values)
      (h.withFilter condition values) := by
  obtain ⟨dialect, base, joined, hbase, hjoined⟩ := same
  unfold JoinGraph.withFilter
  dsimp only
  split
  next => exact .error rfl
  next =>
    split
    next => exact .ok (.of dialect base joined hbase hjoined)
    next =>
      refine (Restriction.sameOutcome_ofCondition g.dialect dialect g.lookup g.parameters values
        condition).bind fun restriction restriction' related => ?_
      obtain ⟨_, _⟩ := hbase
      rw [← related.parameters]
      exact .ok (.of dialect _ joined (.of restriction'.sql related.isSome) hjoined)

end JoinGraph

/-- An operation fails for one reason in all dialects, or leads to the same graph in each. -/
theorem GraphOperation.sameOutcome_stage (operation : GraphOperation) {g h : JoinGraph}
    (same : g.SameButSpelling h) :
    SameOutcome JoinGraph.SameButSpelling (operation.stage g) (operation.stage h) := by
  cases operation with
  | addTable spec => exact same.withTable spec
  | join kind spec => exact same.withJoin kind spec
  | filter condition values => exact same.withFilter condition values

end EntityQuery
