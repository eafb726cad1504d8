import EntityQuery.Condition.Parser
import EntityQuery.Condition.Renaming
import EntityQuery.Condition.Sql
import EntityQuery.JoinGraph.Basic

/-!
# Building join graphs

Three operations extend a graph: a table under a parent, a join that finds its
condition in the relationship, and the condition on the rows. They work on the
graph in place: first come checks, which read it and may fail, then the fields
are assigned one after the other.

A condition may use every property that is available when it is given, a
joined table's own included. Each table's columns are available to later
conditions from then on.
-/

namespace EntityQuery

/-- A table to add under a parent. -/
structure TableSpec where
  entity : String
  «alias» : String
  parent : Option String := none
  relationship : Option String := none
  kind : Option JoinKind := none
  condition : Option Json := none
  values : Values := ∅

/-- A table to join through a property of its parent. -/
structure JoinSpec where
  entity : String
  «alias» : String
  /-- The parent's alias and its property, as `alias.property`. -/
  parentProperty : String
  /-- The condition, where the keys of the relationship are not meant. -/
  condition : Option Json := none
  values : Values := ∅

/-- A condition as a graph keeps it: in SQL, unless it is blank, and with the
parameters it brings. -/
structure Restriction where
  sql : Option String
  parameters : Parameters

/-- Read a condition over properties, and write it over columns. Each fault
has its turn: a conflict of values, the text of the condition, a property that
is not available, a placeholder without a value. -/
def Restriction.ofCondition (dialect : Sql.Dialect) (lookup : Dict String)
    (parameters : Parameters) (condition : Json) (values : Values) :
    Except QueryError Restriction := do
  let parameters ← parameters.extend values
  let tree ← (Condition.ofJson condition).mapError .condition
  if let some column := tree.columns.find? fun column => !lookup.contains column then
    throw (.columnNotAvailable column)
  let renamed ← (tree.rename lookup.get?).mapError .condition
  let sql ← (renamed.compile dialect (some parameters.values)).mapError .condition
  return ⟨some sql, parameters⟩

/-- As `ofCondition`, where the condition may be absent or blank; then its
values are not looked at. -/
def Restriction.ofCondition? (dialect : Sql.Dialect) (lookup : Dict String)
    (parameters : Parameters) (condition : Option Json) (values : Values) :
    Except QueryError Restriction :=
  match condition with
  | none => .ok ⟨none, parameters⟩
  | some condition =>
      if Condition.isBlank condition then .ok ⟨none, parameters⟩
      else ofCondition dialect lookup parameters condition values

/-- The condition that the key pairs of a relationship state: one equality, or
several that hold together. -/
def Relationship.keyCondition (r : Relationship) (parent label : String) :
    Except QueryError Condition := do
  let equalities ← r.keys.mapM fun pair =>
    match pair with
    | [owner, target] =>
        .ok (.comparison .eq (parent ++ "." ++ owner) (.column (label ++ "." ++ target)))
    | _ => .error (.invalidJoinKeys r.property)
  match equalities with
  | [] => .error (.invalidJoinKeys r.property)
  | [equality] => .ok equality
  | _ => .ok (.boolean .and equalities)

namespace JoinGraph

/-- Refuse an alias with other than word characters. -/
def checkAlias (label : String) : Except QueryError Unit :=
  if Text.isName label then .ok () else .error (.invalidAlias label)

/-- The properties of a table after those that are available. -/
def extendLookup (lookup : Dict String) (columns : List GraphColumn) : Dict String :=
  lookup.insertAll (columns.map fun c => (c.property, c.reference))

/-- A graph of one table. -/
def start (catalog : Catalog) (dialect : Sql.Dialect) (entity label : String) :
    Except QueryError JoinGraph := do
  checkAlias label
  let table ← catalog.table entity
  let base : GraphTable := { table, «alias» := label }
  return {
    catalog, dialect, base
    joined := []
    columns := base.columns
    lookup := extendLookup ∅ base.columns
    mappings := []
    parameters := .empty
    filtered := false }

/-- The parent of a new table and the relationship that joins it. -/
def linkOf (g : JoinGraph) (spec : TableSpec) : Except QueryError Link :=
  match spec.parent, spec.relationship with
  | some parent, some property =>
      match g.table? parent with
      | none => .error (.missingParent parent)
      | some owner =>
          if g.mappings.contains (parent, property) then .error (.mappingNotUnique parent property)
          else do
            let relationship ← g.catalog.relationship owner.table.entity spec.entity property
            return ⟨parent, relationship, spec.kind⟩
  | _, _ => .error (.parentRequired spec.alias)

/-- The condition that joins a table where none is given. -/
def keyCondition (g : JoinGraph) (spec : JoinSpec) (parent property : String) :
    Except QueryError Json :=
  match g.table? parent with
  | none => .error (.missingParent parent)
  | some owner => do
      let relationship ← g.catalog.relationship owner.table.entity spec.entity property
      return (← relationship.keyCondition parent spec.alias).toJson

end JoinGraph

/-- Operations on a graph under construction. They may fail, and the graph is
there afterwards in any case, with all that was assigned until then. -/
abbrev GraphM (α : Type) := ExceptT QueryError (StateM JoinGraph) α

namespace GraphM

/-- Add a table under a parent. Its condition is read with a copy of the look-up that has its own
columns, and its values are bound in a copy of the parameters. -/
def addTable (spec : TableSpec) : GraphM Unit := do
  JoinGraph.checkAlias spec.alias
  if ((← get).table? spec.alias).isSome then throw (.duplicateAlias spec.alias)
  let table ← (← get).catalog.table spec.entity
  let link ← (← get).linkOf spec
  let added : GraphTable :=
    { table, «alias» := spec.alias, link := some link, condition := spec.condition }
  let lookup := JoinGraph.extendLookup (← get).lookup added.columns
  let restriction ←
    Restriction.ofCondition? (← get).dialect lookup (← get).parameters spec.condition spec.values
  modify fun g => { g with lookup }
  modify fun g => { g with columns := g.columns ++ added.columns }
  modify fun g => { g with parameters := restriction.parameters }
  modify fun g => { g with mappings := (link.parent, link.relationship.property) :: g.mappings }
  modify fun g => { g with joined := g.joined ++ [{ added with sql := restriction.sql }] }

/-- Join a table through a property of its parent. -/
def join (kind : JoinKind) (spec : JoinSpec) : GraphM Unit := do
  match Sql.splitQualified spec.parentProperty with
  | none => throw (.invalidParentProperty spec.parentProperty)
  | some (parent, property) =>
      let condition ←
        match spec.condition with
        | some condition => pure condition
        | none => (← get).keyCondition spec parent property
      addTable {
        entity := spec.entity
        «alias» := spec.alias
        parent := some parent
        relationship := some property
        kind := some kind
        condition := some condition
        values := spec.values }

/-- Give the condition on the rows, which is given once. A blank one restricts
nothing, but it has been given. -/
def filter (condition : Json) (values : Values) : GraphM Unit := do
  if (← get).filtered then throw (.alreadyPerformed .filter)
  if Condition.isBlank condition then
    modify fun g => { g with filtered := true }
  else
    let restriction ←
      Restriction.ofCondition (← get).dialect (← get).lookup (← get).parameters condition values
    modify fun g => { g with parameters := restriction.parameters }
    modify fun g => { g with filtered := true }
    modify fun g => { g with base := { g.base with condition := some condition } }
    modify fun g => { g with base := { g.base with sql := restriction.sql } }

/-- Work on the parameters of the query. What the work has done to them stays,
also where it fails. -/
def onParameters {α : Type} (work : Parameters → Except QueryError α × Parameters) : GraphM α :=
  ExceptT.mk (modifyGet fun g =>
    let (outcome, parameters) := work g.parameters
    (outcome, { g with parameters }))

/-- Bind a parameter of the query. -/
def addParameter (overwrite : Bool) (name : String) (value : Json) : GraphM Unit := do
  let parameters ← (← get).parameters.add overwrite name value
  modify fun g => { g with parameters }

/-- Bind parameters of the query in turn, up to the first conflict. -/
def addParameters (overwrite : Bool) (values : Values) : GraphM Unit :=
  onParameters (·.addAll overwrite values.order)

/-- Bind the parameters of another query in turn, up to the first conflict. -/
def mergeParameters (overwrite : Bool) (other : Parameters) : GraphM Unit :=
  onParameters (·.merge overwrite other)

/-- Make up a parameter name. -/
def mint (base : String) : GraphM String :=
  onParameters fun parameters =>
    let (name, parameters) := parameters.mint base
    (.ok name, parameters)

/-- Run an operation on a graph. -/
def runOn {α : Type} (action : GraphM α) (g : JoinGraph) : Except QueryError α × JoinGraph :=
  action.run.run g

end GraphM

end EntityQuery
