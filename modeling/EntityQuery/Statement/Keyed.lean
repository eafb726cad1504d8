import EntityQuery.JoinGraph.Build
import EntityQuery.Statement.Delete
import EntityQuery.Statement.Update

/-!
# Changing one model

A model names its own row by the values of its key. An update of a model
writes its other properties to that row; a deletion removes the row.
-/

namespace EntityQuery

namespace Keyed

/-- The alias under which an entity's table is changed. -/
def «alias» (entity : String) : String := Text.toName entity

/-- A key property, the placeholder of its value, and the value. -/
structure Binding where
  property : String
  placeholder : String
  value : Json

/-- Bind the key values of a model to names made up for them, in turn. Names
that were made up before a missing value stay used. -/
def bindKeys (label : String) (model : Model) (parameters : Parameters) :
    List Column → Except QueryError (List Binding) × Parameters
  | [] => (.ok [], parameters)
  | key :: rest =>
      match model.get? key.property with
      | none | some .null => (.error (.missingModelKey key.property), parameters)
      | some value =>
          let property := label ++ "." ++ key.property
          let (placeholder, parameters) := parameters.mint property
          match bindKeys label model parameters rest with
          | (.ok bindings, parameters) =>
              (.ok (⟨property, placeholder, key.save value⟩ :: bindings), parameters)
          | (.error error, parameters) => (.error error, parameters)

/-- The equality of a key property and its placeholder. -/
def Binding.condition (b : Binding) : Condition :=
  .comparison .eq b.property (.parameter b.placeholder)

/-- The condition that all keys have their values: one equality, or any other
number of them that hold together. -/
def conditionOf : List Binding → Condition
  | [b] => b.condition
  | bindings => .boolean .and (bindings.map Binding.condition)

/-- The values of the placeholders. -/
def valuesOf (bindings : List Binding) : Dict Json :=
  Dict.ofList (bindings.map fun b => (b.placeholder, b.value))

/-- The condition that picks the row of a model, and the values it needs. -/
def keyCondition (table : Table) (label : String) (model : Model) (parameters : Parameters) :
    Except QueryError (Json × Dict Json) × Parameters :=
  match bindKeys label model parameters table.primaryKey with
  | (.ok bindings, parameters) =>
      (.ok ((conditionOf bindings).toJson, valuesOf bindings), parameters)
  | (.error error, parameters) => (.error error, parameters)

/-- The graph of the one row that a model names. The order of the values is any, since
their names are made up. -/
def graph (catalog : Catalog) (dialect : Sql.Dialect) (entity : String) (model : Model) :
    Except QueryError JoinGraph := do
  let g ← JoinGraph.start catalog dialect entity («alias» entity)
  let (outcome, parameters) := keyCondition g.base.table g.base.alias model g.parameters
  let (condition, values) ← outcome
  let (filtered, g) := (GraphM.filter condition values).runOn { g with parameters }
  filtered
  return g

/-- The properties of a model that are mapped and no keys, as `alias.property`. -/
def changes (g : JoinGraph) (model : Model) : Model :=
  Dict.ofList <| g.base.columns.filterMap fun c =>
    if c.column.isPrimary then none
    else (model.get? c.column.property).map fun value => (c.property, value)

/-- The update of the row that a model names. -/
def update (catalog : Catalog) (dialect : Sql.Dialect) (entity : String) (model : Model) :
    Except QueryError Update := do
  let g ← graph catalog dialect entity model
  Update.ofModel g (changes g model)

/-- The deletion of the row that a model names. -/
def delete (catalog : Catalog) (dialect : Sql.Dialect) (entity : String) (model : Model) :
    Except QueryError Delete := do
  return .ofGraph (← graph catalog dialect entity model)

end Keyed

end EntityQuery
