import EntityQuery.Proofs.Condition.Lexing
import EntityQuery.Proofs.JoinGraph.Columns
import EntityQuery.Proofs.JoinGraph.Operations
import EntityQuery.Proofs.JoinGraph.Tables
import EntityQuery.Proofs.Parameters.Bindings

/-!
# What a graph takes as a condition

A condition passes several stages on its way into a graph, each with an error of its
own. Together they ask for four things, in this order: the values that come with the
condition agree with those that are bound, its text is read, its properties may be used,
and its placeholders are bound (`Restriction.ofCondition_eq_ok_iff_accepts`,
`Restriction.refuses_of_ofCondition`). The renaming of columns never fails, since the
properties that may be used are those that have a column.

So the outcome of an operation with a condition is known from the tables and parameters
of the graph alone (`JoinGraph.conditions_decided`).
-/

namespace EntityQuery

namespace Condition

/-- Only a placeholder without a value keeps a condition from being written in SQL. -/
theorem compile_eq_error_iff {d : Sql.Dialect} {condition : Condition} {values : Dict Json}
    {e : Error} :
    condition.compile d (some values) = .error e ↔
      ∃ name, condition.parameters.find? (fun name => !values.contains name) = some name ∧
        e = .missingParameter name := by
  rw [compile, checkBound, Option.bind_some, unbound?]
  cases condition.parameters.find? fun name => !values.contains name with
  | some name => simp [bind, Except.bind, eq_comm]
  | none => simp [bind, Except.bind, pure, Except.pure]

/-- What is no condition is blamed for its text alone. -/
theorem unmappedColumn_ne_of_ofJson {source : Json} {e : Error} (h : ofJson source = .error e)
    (column : String) : e ≠ .unmappedColumn column := by
  rintro rfl
  rw [ofJson, parse] at h
  rcases bind_eq_error.1 h with hlex | ⟨placed, -, h⟩
  · obtain ⟨lexeme, -, hclassify⟩ := exists_of_mapM_eq_error hlex
    have hfails := fails_of_classify hclassify
    generalize lexeme.value = value at hfails
    cases hfails
  · split at h <;> cases h

end Condition

namespace Restriction

/-- Whether a name has a value, among those bound before or those that come with a condition. -/
def IsBound (parameters : Parameters) (values : Dict Json) (name : String) : Prop :=
  parameters.values.contains name = true ∨ values.contains name = true

/-- What a condition needs to be accepted: values that agree with those bound before,
properties that may be used, and placeholders with values. -/
structure Accepts (available : String → Prop) (parameters : Parameters) (values : Dict Json)
    (tree : Condition) : Prop where
  agrees : parameters.values.Agrees values
  available : ∀ property ∈ tree.columns, available property
  bound : ∀ name ∈ tree.parameters, IsBound parameters values name

/-- Why a condition is refused: for the first reason that applies. -/
inductive Refuses (available : String → Prop) (parameters : Parameters) (values : Dict Json)
    (condition : Json) : QueryError → Prop
  | conflict {name : String} {bound value : Json} (old : parameters.get? name = some bound)
      (new : values.get? name = some value) (differ : bound ≠ value) :
      Refuses available parameters values condition (.parameterConflict name)
  | unreadable {e : Condition.Error} (agrees : parameters.values.Agrees values)
      (unread : Condition.ofJson condition = .error e) :
      Refuses available parameters values condition (.condition e)
  | unavailable {tree : Condition} {column : String} (agrees : parameters.values.Agrees values)
      (read : Condition.ofJson condition = .ok tree)
      (first : IsFirstWithout available tree.columns column) :
      Refuses available parameters values condition (.columnNotAvailable column)
  | unbound {tree : Condition} {name : String} (agrees : parameters.values.Agrees values)
      (read : Condition.ofJson condition = .ok tree)
      (known : ∀ property ∈ tree.columns, available property)
      (first : IsFirstWithout (IsBound parameters values) tree.parameters name) :
      Refuses available parameters values condition (.condition (.missingParameter name))

variable {dialect : Sql.Dialect} {lookup : Dict String} {parameters : Parameters}
  {values : Dict Json} {restriction : Restriction} {condition : Json} {e : QueryError}

theorem isBound_iff {name : String} :
    IsBound parameters values name ↔ (parameters.bind values).values.contains name = true := by
  rw [IsBound, Parameters.contains_bind, Bool.or_eq_true, or_comm]

/-- A condition in SQL, with the columns that a look-up gives. -/
def sqlIn (dialect : Sql.Dialect) (lookup : Dict String) (tree : Condition) : String :=
  (tree.mapColumns (Condition.nameIn lookup.get?)).sql dialect

theorem rename_of_available {tree : Condition}
    (known : ∀ property ∈ tree.columns, lookup.contains property = true) :
    tree.rename lookup.get? = .ok (tree.mapColumns (Condition.nameIn lookup.get?)) := by
  refine Condition.rename_eq_ok_iff.2 ⟨fun property hproperty => ?_, rfl⟩
  exact Option.isSome_iff_ne_none.1 (known property hproperty)

theorem ofCondition_eq_ok_iff_accepts {values : Values} :
    ofCondition dialect lookup parameters condition values = .ok restriction ↔
      ∃ tree, Condition.ofJson condition = .ok tree ∧
        Accepts (lookup.contains · = true) parameters values.bindings tree ∧
        restriction = ⟨some (sqlIn dialect lookup tree), parameters.bind values.bindings⟩ := by
  rw [ofCondition_eq_ok_iff]
  constructor
  · rintro ⟨tree, renamed, htree, known, hrenamed, hbound, hsql, hextend⟩
    obtain ⟨agrees, hparameters⟩ := Parameters.extend_eq_ok_iff.1 hextend
    obtain rfl := Except.ok.inj (hrenamed.symm.trans (rename_of_available known))
    rw [hparameters, Condition.checkBound_eq_ok, Condition.parameters_mapColumns] at hbound
    refine ⟨tree, htree, ⟨agrees, known, fun name hname => isBound_iff.2 (hbound name hname)⟩, ?_⟩
    obtain ⟨sql, bound⟩ := restriction
    rw [mk.injEq]
    exact ⟨hsql, hparameters⟩
  · rintro ⟨tree, htree, ⟨agrees, known, bound⟩, rfl⟩
    refine ⟨tree, _, htree, known, rename_of_available known, ?_, rfl,
      Parameters.extend_eq_ok_iff.2 ⟨agrees, rfl⟩⟩
    rw [Condition.checkBound_eq_ok, Condition.parameters_mapColumns]
    exact fun name hname => isBound_iff.1 (bound name hname)

theorem refuses_of_ofCondition {values : Values}
    (h : ofCondition dialect lookup parameters condition values = .error e) :
    Refuses (lookup.contains · = true) parameters values.bindings condition e := by
  rcases bind_eq_error.1 h with hextend | ⟨extended, hextend, h⟩
  · obtain ⟨name, bound, value, old, new, differ, rfl⟩ := Parameters.conflict_of_extend hextend
    exact .conflict old new differ
  obtain ⟨agrees, rfl⟩ := Parameters.extend_eq_ok_iff.1 hextend
  rcases bind_eq_error.1 h with hread | ⟨tree, hread, h⟩
  · obtain ⟨e', unread, rfl⟩ := mapError_eq_error.1 hread
    exact .unreadable agrees unread
  have read := mapError_eq_ok.1 hread
  dsimp only at h
  split at h
  next column hfound =>
    cases h
    exact .unavailable agrees read (isFirstWithout_of_find? hfound)
  next hfound =>
    have known : ∀ property ∈ tree.columns, lookup.contains property = true := by
      simpa using List.find?_eq_none.1 (Option.eq_none_iff_forall_ne_some.2 hfound)
    rw [rename_of_available known, mapError_ok] at h
    rcases bind_eq_error.1 h with hrenamed | ⟨renamed, hrenamed, h⟩
    · cases hrenamed
    obtain rfl := Except.ok.inj hrenamed
    rcases bind_eq_error.1 h with hcompile | ⟨sql, -, h⟩
    · obtain ⟨e', hfails, rfl⟩ := mapError_eq_error.1 hcompile
      obtain ⟨name, hname, rfl⟩ := Condition.compile_eq_error_iff.1 hfails
      rw [Condition.parameters_mapColumns] at hname
      have first := isFirstWithout_of_find? hname
      simp only [← isBound_iff] at first
      exact .unbound agrees read known first
    · cases h

/-- No column lacks a name once it may be used. -/
theorem Refuses.ne_unmappedColumn {available : String → Prop}
    (h : Refuses available parameters values condition e) (column : String) :
    e ≠ .condition (.unmappedColumn column) := by
  cases h with
  | conflict => exact nofun
  | unreadable _ unread =>
      exact fun heq => Condition.unmappedColumn_ne_of_ofJson unread column
        (QueryError.condition.inj heq)
  | unavailable => exact nofun
  | unbound => exact nofun

end Restriction

/-! ### Errors of other kinds -/

theorem Relationship.error_of_keyCondition {r : Relationship} {parent label : String}
    {e : QueryError} (h : r.keyCondition parent label = .error e) :
    e = .invalidJoinKeys r.property := by
  rcases bind_eq_error.1 h with hkeys | ⟨equalities, -, h⟩
  · obtain ⟨pair, -, hpair⟩ := exists_of_mapM_eq_error hkeys
    split at hpair
    next => cases hpair
    next => exact (Except.error.inj hpair).symm
  · split at h
    next => exact (Except.error.inj h).symm
    next => cases h
    next => cases h

namespace JoinGraph

variable {g : JoinGraph} {error : Condition.Error}

theorem linkOf_ne_condition (g : JoinGraph) (spec : TableSpec) (error : Condition.Error) :
    g.linkOf spec ≠ .error (.condition error) := by
  intro h
  unfold linkOf at h
  split at h
  next =>
    split at h
    next => cases h
    next =>
      split at h
      next => cases h
      next =>
        rcases bind_eq_error.1 h with hrelationship | ⟨_, -, h⟩
        · cases Catalog.error_of_relationship hrelationship
        · cases h
  next => cases h

theorem keyCondition_ne_condition (g : JoinGraph) (spec : JoinSpec) (parent property : String)
    (error : Condition.Error) : g.keyCondition spec parent property ≠ .error (.condition error) := by
  intro h
  unfold keyCondition at h
  split at h
  next => cases h
  next =>
    rcases bind_eq_error.1 h with hrelationship | ⟨r, -, h⟩
    · cases Catalog.error_of_relationship hrelationship
    rcases bind_eq_error.1 h with hkeys | ⟨_, -, h⟩
    · cases Relationship.error_of_keyCondition hkeys
    · cases h

/-- Where the condition of a table is blamed, it was refused. -/
theorem exists_ofCondition_of_withTable {spec : TableSpec}
    (h : g.withTable spec = .error (.condition error)) :
    ∃ lookup condition, Restriction.ofCondition g.dialect lookup g.parameters condition
      spec.values = .error (.condition error) := by
  rcases bind_eq_error.1 h with halias | ⟨_, -, h⟩
  · unfold checkAlias at halias
    split at halias <;> cases halias
  dsimp only at h
  split at h
  next => cases h
  rcases bind_eq_error.1 h with htable | ⟨table, -, h⟩
  · unfold Catalog.table at htable
    split at htable <;> cases htable
  rcases bind_eq_error.1 h with hlink | ⟨link, -, h⟩
  · exact absurd hlink (g.linkOf_ne_condition spec error)
  rcases bind_eq_error.1 h with hrestriction | ⟨_, -, h⟩
  · unfold Restriction.ofCondition? at hrestriction
    split at hrestriction
    next => cases hrestriction
    next condition _ =>
      split at hrestriction
      next => cases hrestriction
      next => exact ⟨_, condition, hrestriction⟩
  · cases h

/-- Where an operation blames a condition, it was refused. -/
theorem exists_ofCondition_of_stage {operation : GraphOperation}
    (h : operation.stage g = .error (.condition error)) :
    ∃ lookup condition values, Restriction.ofCondition g.dialect lookup g.parameters condition
      values = .error (.condition error) := by
  cases operation with
  | addTable spec =>
      obtain ⟨lookup, condition, h⟩ := exists_ofCondition_of_withTable h
      exact ⟨lookup, condition, _, h⟩
  | join kind spec =>
      rw [GraphOperation.stage] at h
      unfold withJoin at h
      split at h
      next => cases h
      next parent property _ =>
        have hadded : ∃ spec : TableSpec, g.withTable spec = .error (.condition error) := by
          dsimp only at h
          split at h
          next => exact ⟨_, h⟩
          next =>
            rcases bind_eq_error.1 h with hkeys | ⟨_, -, h⟩
            · exact absurd hkeys (g.keyCondition_ne_condition spec parent property error)
            · exact ⟨_, h⟩
        obtain ⟨spec, hadded⟩ := hadded
        obtain ⟨lookup, condition, h⟩ := exists_ofCondition_of_withTable hadded
        exact ⟨lookup, condition, _, h⟩
  | filter condition values =>
      rw [GraphOperation.stage, withFilter] at h
      split at h
      next => cases h
      split at h
      next => cases h
      rcases bind_eq_error.1 h with hrestriction | ⟨_, -, h⟩
      · exact ⟨_, condition, values, hrestriction⟩
      · cases h

/-! ### Operations with conditions -/

/-- How an operation goes that brings a condition to a graph: it succeeds exactly if the
condition over some properties is accepted, and leads to a graph that depends
on the condition; otherwise it fails for the first reason and leaves the graph as it was. -/
structure IsDecidedBy (outcome : Except QueryError Unit × JoinGraph) (g : JoinGraph)
    (properties : List String) (condition : Json) (values : Dict Json)
    (next : Condition → JoinGraph) : Prop where
  succeeds_iff : outcome.1 = .ok () ↔ ∃ tree, Condition.ofJson condition = .ok tree ∧
    Restriction.Accepts (· ∈ properties) g.parameters values tree
  of_ok : outcome.1 = .ok () → ∀ tree, Condition.ofJson condition = .ok tree →
    outcome.2 = next tree
  of_error : ∀ e, outcome.1 = .error e →
    Restriction.Refuses (· ∈ properties) g.parameters values condition e ∧ outcome.2 = g

theorem isDecidedBy_of_commit (stage : JoinGraph → Except QueryError JoinGraph) {g : JoinGraph}
    {lookup : Dict String} {properties : List String} {condition : Json} {values : Values}
    {finish : Restriction → JoinGraph}
    (available : ∀ property, lookup.contains property = true ↔ property ∈ properties)
    (hstage : stage g =
      (Restriction.ofCondition g.dialect lookup g.parameters condition values).map finish) :
    IsDecidedBy ((GraphM.commit stage).runOn g) g properties condition values.bindings fun tree =>
      finish ⟨some (Restriction.sqlIn g.dialect lookup tree), g.parameters.bind values.bindings⟩ := by
  have hproperties : (lookup.contains · = true) = (· ∈ properties) :=
    funext fun property => propext (available property)
  rw [GraphM.runOn_commit, hstage]
  cases hrestriction : Restriction.ofCondition g.dialect lookup g.parameters condition values with
  | ok restriction =>
      obtain ⟨tree, read, accepts, rfl⟩ := Restriction.ofCondition_eq_ok_iff_accepts.1 hrestriction
      rw [hproperties] at accepts
      constructor
      case succeeds_iff => exact iff_of_true rfl ⟨tree, read, accepts⟩
      case of_ok =>
          intro _ other read'
          obtain rfl := Except.ok.inj (read.symm.trans read')
          rfl
      case of_error => exact nofun
  | error e =>
      have refuses := Restriction.refuses_of_ofCondition hrestriction
      rw [hproperties] at refuses
      constructor
      case succeeds_iff =>
          refine iff_of_false nofun ?_
          rintro ⟨tree, read, accepts⟩
          rw [← hproperties] at accepts
          have hok : Restriction.ofCondition g.dialect lookup g.parameters condition values = _ :=
            Restriction.ofCondition_eq_ok_iff_accepts.2 ⟨tree, read, accepts, rfl⟩
          rw [hrestriction] at hok
          cases hok
      case of_ok => exact nofun
      case of_error =>
          rintro _ ⟨⟩
          exact ⟨refuses, rfl⟩

theorem withFilter_eq_map {condition : Json} (hfiltered : g.filtered = false)
    (hblank : Condition.isBlank condition = false) (values : Values) :
    g.withFilter condition values =
      (Restriction.ofCondition g.dialect g.lookup g.parameters condition values).map
        fun restriction =>
          { g with
            base := { g.base with condition := some condition, sql := restriction.sql }
            parameters := restriction.parameters
            filtered := true } := by
  rw [withFilter, hfiltered, hblank, if_neg Bool.false_ne_true, if_neg Bool.false_ne_true]
  rfl

theorem withTable_eq_map {spec : TableSpec} {condition : Json} {table : Table} {link : Link}
    (hcondition : spec.condition = some condition) (hblank : Condition.isBlank condition = false)
    (named : Text.isName spec.alias = true) (fresh : g.table? spec.alias = none)
    (htable : g.catalog.table spec.entity = .ok table) (hlink : g.linkOf spec = .ok link) :
    let added : GraphTable :=
      { table, «alias» := spec.alias, link := some link, condition := some condition }
    g.withTable spec =
      (Restriction.ofCondition g.dialect (extendLookup g.lookup added.columns) g.parameters
        condition spec.values).map fun restriction =>
          g.concat { added with sql := restriction.sql } link restriction.parameters := by
  have halias : checkAlias spec.alias = .ok () := if_pos named
  rw [withTable, halias, fresh, htable, hlink, hcondition]
  simp only [Restriction.ofCondition?, hblank]
  rfl

/-- What a graph takes as a condition, whatever calls have been made on it. The condition on
the rows may use the properties of all tables, and the condition of a new table those of
that table too. No operation ever misses the column of a property. -/
theorem conditions_decided {catalog : Catalog} {dialect : Sql.Dialect} {entity label : String}
    (h : start catalog dialect entity label = .ok g) (calls : List GraphCall) {condition : Json}
    (hblank : Condition.isBlank condition = false) (values : Values) :
    let reached := g.after calls
    (reached.filtered = false →
      IsDecidedBy ((GraphM.filter condition values).runOn reached) reached
        (reached.tables.flatMap GraphTable.properties) condition values.bindings fun tree =>
          { reached with
            base := { reached.base with
              condition := some condition
              sql := some (Restriction.sqlIn dialect reached.lookup tree) }
            parameters := reached.parameters.bind values.bindings
            filtered := true }) ∧
    (∀ (spec : TableSpec) (table : Table) (link : Link),
      spec.condition = some condition → spec.values = values →
      Text.isName spec.alias = true → reached.table? spec.alias = none →
      catalog.table spec.entity = .ok table → reached.linkOf spec = .ok link →
      let added : GraphTable :=
        { table, «alias» := spec.alias, link := some link, condition := some condition }
      IsDecidedBy ((GraphM.addTable spec).runOn reached) reached
        (reached.tables.flatMap GraphTable.properties ++ added.properties) condition
        values.bindings fun tree =>
          let lookup := extendLookup reached.lookup added.columns
          reached.concat { added with sql := some (Restriction.sqlIn dialect lookup tree) } link
            (reached.parameters.bind values.bindings)) ∧
    ∀ (operation : GraphOperation) (column : String),
      (operation.action.runOn reached).1 ≠ .error (.condition (.unmappedColumn column)) := by
  have hcoherent := (isCoherent_start h).after calls
  obtain ⟨hcatalog, hdialect, -⟩ := isOver_after h calls
  generalize g.after calls = reached at hcoherent hcatalog hdialect
  subst hcatalog hdialect
  refine ⟨fun hfiltered => ?_, ?_, fun operation column hunmapped => ?_⟩
  · rw [GraphM.filter_eq_commit]
    exact isDecidedBy_of_commit (·.withFilter condition values)
      (fun _ => contains_iff_mem_properties hcoherent.isDisjointUnion_lookup)
      (withFilter_eq_map hfiltered hblank values)
  · rintro spec table link hcondition rfl named fresh htable hlink
    have hfresh := table?_eq_none_iff.1 fresh
    rw [GraphM.addTable_eq_commit]
    refine isDecidedBy_of_commit (·.withTable spec) (fun property => ?_)
      (withTable_eq_map hcondition hblank named fresh htable hlink)
    rw [contains_iff_mem_properties (isDisjointUnion_extendLookup hcoherent named hfresh),
      List.flatMap_append, List.flatMap_singleton]
  · rw [operation.action_eq_commit, GraphM.runOn_commit] at hunmapped
    cases hstage : operation.stage reached with
    | ok g' =>
        rw [hstage] at hunmapped
        cases hunmapped
    | error e =>
        rw [hstage] at hunmapped
        obtain rfl := Except.error.inj hunmapped
        obtain ⟨_, _, _, hrefused⟩ := exists_ofCondition_of_stage hstage
        exact (Restriction.refuses_of_ofCondition hrefused).ne_unmappedColumn column rfl

/-- The phone has a given number and is not the user's. -/
def notOwn : Json :=
  .obj [("$and", .arr [.obj [("$eq", .obj [("p.no", .str ":no")])],
    .obj [("$neq", .obj [("p.owner", .str "u.id")])]])]

/-- The user of a phone, under the condition that the phone has a given number and is not the
first user's. -/
def otherUser : TableSpec :=
  { entity := "User", «alias» := "v", parent := some "p", relationship := some "user"
    condition := some notOwn, values := .ofList [("no", .str "1")] }

theorem conditions_decided_notOwn :
    ∃ g, start phoneBook .mysql "User" "u" = .ok g ∧ Condition.isBlank notOwn = false ∧
      let reached := g.after [.join .inner ⟨"Phone", "p", "u.phones", none, ∅⟩]
      let refused := (GraphM.filter notOwn ∅).runOn reached
      let added := (GraphM.addTable otherUser).runOn reached
      reached.filtered = false ∧
        refused.1 = .error (.condition (.missingParameter "no")) ∧ refused.2 = reached ∧
        added.1 = .ok () ∧ added.2.tables.map GraphTable.sql =
          [none, some "`u`.`user_id` = `p`.`user_id`",
            some "(`p`.`no` = :no AND `p`.`user_id` <> `u`.`user_id`)"] ∧
        ∃ tree, Condition.ofJson notOwn = .ok tree ∧
          Restriction.Accepts (· ∈ ["u.id", "p.no", "p.owner", "v.id"]) reached.parameters
            otherUser.values.bindings tree := by
  have hname : checkAlias "u" = .ok () := if_pos (by decide +kernel)
  have hblank : Condition.isBlank notOwn = false := rfl
  let calls : List GraphCall := [.join .inner ⟨"Phone", "p", "u.phones", none, ∅⟩]
  obtain ⟨g, hg, hfiltered, hproperties, hrefused, hadded, htexts⟩ :
      ∃ g, start phoneBook .mysql "User" "u" = .ok g ∧ (g.after calls).filtered = false ∧
        (g.after calls).tables.flatMap GraphTable.properties = ["u.id", "p.no", "p.owner"] ∧
        ((GraphM.filter notOwn ∅).runOn (g.after calls)).1 =
          .error (.condition (.missingParameter "no")) ∧
        ((GraphM.addTable otherUser).runOn (g.after calls)).1 = .ok () ∧
        ((GraphM.addTable otherUser).runOn (g.after calls)).2.tables.map GraphTable.sql =
          [none, some "`u`.`user_id` = `p`.`user_id`",
            some "(`p`.`no` = :no AND `p`.`user_id` <> `u`.`user_id`)"] := by
    rw [start, hname]
    refine ⟨_, rfl, ?_, ?_, ?_, ?_, ?_⟩ <;> decide +kernel
  obtain ⟨hrows, -, -⟩ := conditions_decided hg calls hblank ∅
  obtain ⟨-, htables, -⟩ := conditions_decided hg calls hblank otherUser.values
  have hover := (isOver_after hg calls).catalog_eq
  obtain ⟨-, hsame⟩ := (hrows hfiltered).of_error _ hrefused
  refine ⟨g, hg, hblank, hfiltered, hrefused, hsame, hadded, htexts, ?_⟩
  cases hstage : (g.after calls).withTable otherUser with
  | ok g' =>
      obtain ⟨table, link, _, named, fresh, htable, hlink, -, -⟩ := of_withTable hstage
      rw [hover] at htable
      have hdecided := htables otherUser table link rfl rfl named fresh htable hlink
      obtain rfl := Except.ok.inj htable
      rw [hproperties] at hdecided
      exact hdecided.succeeds_iff.1 hadded
  | error e =>
      rw [GraphM.addTable_eq_commit, GraphM.runOn_commit, hstage] at hadded
      cases hadded

end JoinGraph

end EntityQuery
