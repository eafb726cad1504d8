import EntityQuery.Proofs.Catalog
import EntityQuery.Proofs.Condition.Renaming
import EntityQuery.Proofs.JoinGraph.Stages

/-!
# Calls on a join graph

A graph under construction is changed by calls, each of which may fail. What a
call does to the graph is one of three things: it adds a table, it puts the
condition on the rows, or it binds parameters (`perform_cases`). What each of
them needs to succeed is read off the operation once, so that invariants are
shown without looking into the operations.
-/

namespace EntityQuery

/-- A call on a graph under construction or on its parameters. The bindings of
a hash map are taken in any order, which comes with the call. -/
inductive GraphCall where
  | addTable (spec : TableSpec)
  | join (kind : JoinKind) (spec : JoinSpec)
  | filter (condition : Json) (values : Values)
  | mint (base : String)
  | addParameter (overwrite : Bool) (name : String) (value : Json)
  | addParameters (overwrite : Bool) (values : Dict Json) (order : List (String × Json))
      (h : order.Perm values.entries)
  | mergeParameters (overwrite : Bool) (other : Parameters) (order : List (String × Json))
      (h : order.Perm other.values.entries)

namespace JoinGraph

/-- The graph after a call, whether or not it succeeds. -/
def perform (g : JoinGraph) : GraphCall → JoinGraph
  | .addTable spec => ((GraphM.addTable spec).runOn g).2
  | .join kind spec => ((GraphM.join kind spec).runOn g).2
  | .filter condition values => ((GraphM.filter condition values).runOn g).2
  | .mint base => ((GraphM.mint base).runOn g).2
  | .addParameter overwrite name value => ((GraphM.addParameter overwrite name value).runOn g).2
  | .addParameters overwrite _ order _ | .mergeParameters overwrite _ order _ =>
      ((GraphM.onParameters (·.addAll overwrite order)).runOn g).2

/-- The graph after calls in turn. -/
def after (g : JoinGraph) (calls : List GraphCall) : JoinGraph := calls.foldl perform g

/-- The calls on hash maps are the operations of the graph. -/
theorem perform_addParameters (g : JoinGraph) (overwrite : Bool) (values : Values) :
    g.perform (.addParameters overwrite values.bindings values.order values.isOrder) =
      ((GraphM.addParameters overwrite values).runOn g).2 := rfl

theorem perform_mergeParameters (g : JoinGraph) (overwrite : Bool) (other : Parameters) :
    g.perform (.mergeParameters overwrite other other.values.entries .rfl) =
      ((GraphM.mergeParameters overwrite other).runOn g).2 := rfl

end JoinGraph

/-! ### What an operation needs to succeed -/

namespace Restriction

variable {dialect : Sql.Dialect} {lookup : Dict String} {parameters : Parameters}
  {values : Values} {restriction : Restriction}

/-- What holds where a condition has been accepted: its text is made of the
condition alone, and its parameters of the values alone. -/
theorem exists_of_ofCondition {condition : Json}
    (h : ofCondition dialect lookup parameters condition values = .ok restriction) :
    ∃ tree renamed, Condition.ofJson condition = .ok tree ∧
      (∀ property ∈ tree.columns, lookup.contains property = true) ∧
      tree.rename lookup.get? = .ok renamed ∧
      renamed.checkBound (some restriction.parameters.values) = .ok () ∧
      restriction.sql = some (renamed.sql dialect) ∧
      parameters.extend values = .ok restriction.parameters := by
  obtain ⟨extended, hextend, h⟩ := bind_eq_ok.1 h
  obtain ⟨tree, htree, h⟩ := bind_eq_ok.1 h
  dsimp only at h
  split at h
  next => cases h
  next hfound =>
    have hknown : ∀ property ∈ tree.columns, lookup.contains property = true := by
      simpa using List.find?_eq_none.1 (Option.eq_none_iff_forall_ne_some.2 hfound)
    obtain ⟨renamed, hrenamed, h⟩ := bind_eq_ok.1 h
    obtain ⟨sql, hcompile, h⟩ := bind_eq_ok.1 h
    obtain ⟨_, hbound, hsql⟩ := bind_eq_ok.1 (mapError_eq_ok.1 hcompile)
    obtain rfl := pure_eq_ok.1 hsql
    obtain rfl := pure_eq_ok.1 h
    exact ⟨tree, renamed, mapError_eq_ok.1 htree, hknown, mapError_eq_ok.1 hrenamed, hbound, rfl,
      hextend⟩

/-- What a condition needs to be accepted. -/
theorem ofCondition_eq_ok_iff {condition : Json} :
    ofCondition dialect lookup parameters condition values = .ok restriction ↔
      ∃ tree renamed, Condition.ofJson condition = .ok tree ∧
        (∀ property ∈ tree.columns, lookup.contains property = true) ∧
        tree.rename lookup.get? = .ok renamed ∧
        renamed.checkBound (some restriction.parameters.values) = .ok () ∧
        restriction.sql = some (renamed.sql dialect) ∧
        parameters.extend values = .ok restriction.parameters := by
  refine ⟨exists_of_ofCondition, ?_⟩
  rintro ⟨tree, renamed, htree, hknown, hrenamed, hbound, hsql, hextend⟩
  have hfound : (tree.columns.find? fun column => !lookup.contains column) = none := by
    rw [List.find?_eq_none]
    intro property hproperty
    rw [hknown property hproperty]
    exact Bool.false_ne_true
  have hcompile : renamed.compile dialect (some restriction.parameters.values) =
      .ok (renamed.sql dialect) := bind_eq_ok.2 ⟨(), hbound, rfl⟩
  rw [ofCondition, hextend, htree]
  simp only [mapError_ok, bind, Except.bind, hfound, hrenamed, hcompile, ← hsql]
  rfl

/-- The text of a restriction is what its condition compiles to. -/
theorem of_ofCondition {condition : Json}
    (h : ofCondition dialect lookup parameters condition values = .ok restriction) :
    parameters.GrowsTo restriction.parameters ∧
      ∀ sql ∈ restriction.sql, Condition.CompilesTo dialect lookup restriction.parameters
        (fun property => lookup.contains property = true) condition sql := by
  obtain ⟨tree, renamed, htree, hknown, hrenamed, hbound, hsql, hextend⟩ := exists_of_ofCondition h
  refine ⟨Parameters.growsTo_extend hextend, fun text htext => ?_⟩
  rw [hsql] at htext
  cases htext
  exact ⟨tree, renamed, htree, hrenamed, bind_eq_ok.2 ⟨(), hbound, rfl⟩, hknown⟩

theorem of_ofCondition? {condition? : Option Json}
    (h : ofCondition? dialect lookup parameters condition? values = .ok restriction) :
    parameters.GrowsTo restriction.parameters ∧
      ∀ sql ∈ restriction.sql, ∃ condition ∈ condition?,
        Condition.CompilesTo dialect lookup restriction.parameters
          (fun property => lookup.contains property = true) condition sql := by
  unfold ofCondition? at h
  split at h
  next =>
    cases h
    exact ⟨.refl parameters, fun _ hsql => nomatch hsql⟩
  next condition =>
    split at h
    next =>
      cases h
      exact ⟨.refl parameters, fun _ hsql => nomatch hsql⟩
    next =>
      obtain ⟨hgrows, hsql⟩ := of_ofCondition h
      exact ⟨hgrows, fun sql htext => ⟨condition, rfl, hsql sql htext⟩⟩

end Restriction

namespace JoinGraph

variable {g g' : JoinGraph}

theorem isName_of_checkAlias {label : String} {result : Unit}
    (h : checkAlias label = .ok result) : Text.isName label = true := by
  rw [checkAlias] at h
  split at h
  next hname => exact hname
  next => cases h

theorem of_table? {label : String} {t : GraphTable} (h : g.table? label = some t) :
    t ∈ g.tables ∧ t.alias = label := by
  have hfound := List.find?_some h
  exact ⟨List.mem_of_find?_eq_some h, of_decide_eq_true hfound⟩

theorem table?_eq_none_iff {label : String} :
    g.table? label = none ↔ ∀ t ∈ g.tables, t.alias ≠ label := by
  simp [table?]

/-- What a table needs to be linked. -/
theorem linkOf_eq_ok_iff {spec : TableSpec} {link : Link} :
    g.linkOf spec = .ok link ↔ ∃ parent property owner relationship,
      spec.parent = some parent ∧ spec.relationship = some property ∧
        g.table? parent = some owner ∧ (parent, property) ∉ g.mappings ∧
        g.catalog.relationship owner.table.entity spec.entity property = .ok relationship ∧
        link = ⟨parent, relationship, spec.kind⟩ := by
  constructor
  · intro h
    unfold linkOf at h
    split at h
    next parent property hparent hproperty =>
      split at h
      next => cases h
      next owner howner =>
        split at h
        next => cases h
        next hfresh =>
          obtain ⟨relationship, hrelationship, h⟩ := bind_eq_ok.1 h
          exact ⟨parent, property, owner, relationship, hparent, hproperty, howner,
            mt List.contains_iff_mem.2 hfresh, hrelationship, (pure_eq_ok.1 h).symm⟩
    next => cases h
  · rintro ⟨parent, property, owner, relationship, hparent, hproperty, howner, hfresh,
      hrelationship, rfl⟩
    rw [linkOf, hparent, hproperty]
    simp only [howner, if_neg (mt List.contains_iff_mem.1 hfresh), hrelationship]
    rfl

theorem of_linkOf {spec : TableSpec} {link : Link} (h : g.linkOf spec = .ok link) :
    (link.parent, link.relationship.property) ∉ g.mappings ∧
      ∃ parent, g.table? link.parent = some parent ∧
        link.relationship ∈ g.catalog.relationships ∧
        link.relationship.owner = parent.table.entity ∧
        link.relationship.target = spec.entity := by
  obtain ⟨parent, property, owner, relationship, -, -, howner, hfresh, hrelationship, rfl⟩ :=
    linkOf_eq_ok_iff.1 h
  obtain ⟨hmem, hfrom, hto, rfl⟩ := Catalog.of_relationship hrelationship
  exact ⟨hfresh, owner, howner, hmem, hfrom, hto⟩

/-- The graph with one more table under a link. -/
def concat (g : JoinGraph) (added : GraphTable) (link : Link) (parameters : Parameters) :
    JoinGraph :=
  { g with
    joined := g.joined ++ [added]
    columns := g.columns ++ added.columns
    lookup := extendLookup g.lookup added.columns
    mappings := (link.parent, link.relationship.property) :: g.mappings
    parameters := parameters }

/-- What holds where a table has been added. -/
theorem of_withTable {spec : TableSpec} (h : g.withTable spec = .ok g') :
    ∃ table link restriction, Text.isName spec.alias = true ∧ g.table? spec.alias = none ∧
      g.catalog.table spec.entity = .ok table ∧ g.linkOf spec = .ok link ∧
      let added : GraphTable :=
        ⟨table, spec.alias, some link, spec.condition, restriction.sql⟩
      Restriction.ofCondition? g.dialect (extendLookup g.lookup added.columns) g.parameters
        spec.condition spec.values = .ok restriction ∧
      g' = g.concat added link restriction.parameters := by
  obtain ⟨_, halias, h⟩ := bind_eq_ok.1 h
  dsimp only at h
  split at h
  next => cases h
  next hfresh =>
    obtain ⟨table, htable, h⟩ := bind_eq_ok.1 h
    obtain ⟨link, hlink, h⟩ := bind_eq_ok.1 h
    obtain ⟨restriction, hrestriction, h⟩ := bind_eq_ok.1 h
    obtain rfl := pure_eq_ok.1 h
    refine ⟨table, link, restriction, ?_, ?_, htable, hlink, hrestriction, rfl⟩
    · exact isName_of_checkAlias halias
    · simpa using hfresh

/-- What a table needs to be added. -/
theorem withTable_eq_ok_iff {spec : TableSpec} :
    g.withTable spec = .ok g' ↔
      ∃ table link restriction, Text.isName spec.alias = true ∧ g.table? spec.alias = none ∧
        g.catalog.table spec.entity = .ok table ∧ g.linkOf spec = .ok link ∧
        let added : GraphTable :=
          ⟨table, spec.alias, some link, spec.condition, restriction.sql⟩
        Restriction.ofCondition? g.dialect (extendLookup g.lookup added.columns) g.parameters
          spec.condition spec.values = .ok restriction ∧
        g' = g.concat added link restriction.parameters := by
  refine ⟨of_withTable, ?_⟩
  rintro ⟨table, link, restriction, hname, hfresh, htable, hlink, hrestriction, rfl⟩
  have halias : checkAlias spec.alias = .ok () := if_pos hname
  refine bind_eq_ok.2 ⟨(), halias, ?_⟩
  dsimp only
  rw [hfresh]
  exact bind_eq_ok.2 ⟨table, htable, bind_eq_ok.2 ⟨link, hlink,
    bind_eq_ok.2 ⟨restriction, hrestriction, rfl⟩⟩⟩

/-- A join adds a table, under the condition given or that of its keys. -/
theorem exists_withTable_of_withJoin {kind : JoinKind} {spec : JoinSpec}
    (h : g.withJoin kind spec = .ok g') :
    ∃ parent property condition, Sql.splitQualified spec.parentProperty = some (parent, property) ∧
      spec.condition.elim (g.keyCondition spec parent property) .ok = .ok condition ∧
      g.withTable {
        entity := spec.entity, «alias» := spec.alias, parent := some parent
        relationship := some property, kind := some kind, condition := some condition
        values := spec.values } = .ok g' := by
  unfold withJoin at h
  split at h
  next => cases h
  next parent property hsplit =>
    dsimp only at h
    split at h
    next condition hgiven =>
      refine ⟨parent, property, condition, hsplit, ?_, h⟩
      rw [hgiven, Option.elim_some]
    next hgiven =>
      obtain ⟨condition, hcondition, h⟩ := bind_eq_ok.1 h
      refine ⟨parent, property, condition, hsplit, ?_, h⟩
      rw [hgiven, Option.elim_none, hcondition]

theorem withJoin_eq {kind : JoinKind} {spec : JoinSpec} {parent property : String}
    {condition : Json} (hsplit : Sql.splitQualified spec.parentProperty = some (parent, property))
    (hcondition : spec.condition.elim (g.keyCondition spec parent property) .ok = .ok condition) :
    g.withJoin kind spec = g.withTable {
      entity := spec.entity, «alias» := spec.alias, parent := some parent
      relationship := some property, kind := some kind, condition := some condition
      values := spec.values } := by
  unfold withJoin
  rw [hsplit]
  dsimp only
  cases hgiven : spec.condition with
  | some given =>
      rw [hgiven, Option.elim_some] at hcondition
      obtain rfl := Except.ok.inj hcondition
      rfl
  | none =>
      rw [hgiven, Option.elim_none] at hcondition
      rw [hcondition]
      rfl

/-- What a condition on the rows needs to be given. -/
theorem withFilter_eq_ok_iff {condition : Json} {values : Values} :
    g.withFilter condition values = .ok g' ↔ g.filtered = false ∧
      ((Condition.isBlank condition = true ∧ g' = { g with filtered := true }) ∨
        Condition.isBlank condition = false ∧ ∃ restriction,
          Restriction.ofCondition g.dialect g.lookup g.parameters condition values =
            .ok restriction ∧
          g' = { g with
            base := { g.base with condition := some condition, sql := restriction.sql }
            parameters := restriction.parameters
            filtered := true }) := by
  rw [withFilter]
  cases hfiltered : g.filtered with
  | true => simp
  | false =>
      cases hblank : Condition.isBlank condition with
      | true => simp [eq_comm]
      | false =>
          rw [if_neg Bool.false_ne_true, if_neg Bool.false_ne_true, bind_eq_ok]
          simp only [pure_eq_ok, Bool.false_eq_true, false_and, false_or, true_and]
          exact exists_congr fun _ => and_congr_right fun _ => eq_comm

/-- What holds where a condition on the rows has been given. -/
theorem of_withFilter {condition : Json} {values : Values}
    (h : g.withFilter condition values = .ok g') :
    (Condition.isBlank condition = true ∧ g' = { g with filtered := true }) ∨
      Condition.isBlank condition = false ∧ ∃ restriction,
        Restriction.ofCondition g.dialect g.lookup g.parameters condition values =
          .ok restriction ∧
        g' = { g with
          base := { g.base with condition := some condition, sql := restriction.sql }
          parameters := restriction.parameters
          filtered := true } :=
  (withFilter_eq_ok_iff.1 h).2

end JoinGraph

/-! ### What a call does -/

namespace JoinGraph

/-- A call adds a table, gives the condition on the rows or binds parameters;
if it fails, it binds some parameters or none. -/
theorem perform_cases (g : JoinGraph) (call : GraphCall) :
    (∃ spec, g.withTable spec = .ok (g.perform call)) ∨
      (∃ condition values, g.withFilter condition values = .ok (g.perform call)) ∨
      ∃ parameters, g.parameters.GrowsTo parameters ∧
        g.perform call = { g with parameters := parameters } := by
  cases call with
  | addTable spec =>
      rw [perform, GraphM.addTable_eq_commit]
      rcases GraphM.eq_or_of_commit (·.withTable spec) g with h | h
      · exact .inl ⟨spec, h⟩
      · exact .inr (.inr ⟨g.parameters, .refl _, h⟩)
  | join kind spec =>
      rw [perform, GraphM.join_eq_commit]
      rcases GraphM.eq_or_of_commit (·.withJoin kind spec) g with h | h
      · obtain ⟨_, _, _, _, _, h⟩ := exists_withTable_of_withJoin h
        exact .inl ⟨_, h⟩
      · exact .inr (.inr ⟨g.parameters, .refl _, h⟩)
  | filter condition values =>
      rw [perform, GraphM.filter_eq_commit]
      rcases GraphM.eq_or_of_commit (·.withFilter condition values) g with h | h
      · exact .inr (.inl ⟨condition, values, h⟩)
      · exact .inr (.inr ⟨g.parameters, .refl _, h⟩)
  | mint base => exact .inr (.inr ⟨_, Parameters.growsTo_mint _ base, rfl⟩)
  | addParameter overwrite name value =>
      rw [perform, GraphM.addParameter_eq_commit]
      rcases GraphM.eq_or_of_commit
        (fun g => return { g with parameters := ← g.parameters.add overwrite name value }) g
        with h | h
      · obtain ⟨parameters, hadd, h⟩ := bind_eq_ok.1 h
        exact .inr (.inr ⟨parameters, Parameters.growsTo_add hadd, (pure_eq_ok.1 h).symm⟩)
      · exact .inr (.inr ⟨g.parameters, .refl _, h⟩)
  | addParameters overwrite values order =>
      exact .inr (.inr ⟨_, Parameters.growsTo_addAll _ overwrite order, rfl⟩)
  | mergeParameters overwrite other order =>
      exact .inr (.inr ⟨_, Parameters.growsTo_addAll _ overwrite order, rfl⟩)

end JoinGraph

end EntityQuery
