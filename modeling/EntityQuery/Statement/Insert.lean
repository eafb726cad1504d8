import EntityQuery.Engine.Basic
import EntityQuery.JoinGraph.Sql

/-!
# Insertions

An insertion writes one model. Only properties that the model has are written,
null among them. Placeholders carry the names of the properties.
-/

namespace EntityQuery

open Sql (Token)

/-- An insertion of a model into its table. -/
structure Insert where
  table : Table
  dialect : Sql.Dialect
  model : Model
  /-- The columns that are written. -/
  columns : List Column
  parameters : Parameters

namespace Insert

/-- Bind the properties of a model, column by column, and list the columns
whose property it has. -/
def bindColumns (model : Model) (parameters : Parameters) :
    List Column → Except QueryError (List Column × Parameters)
  | [] => .ok ([], parameters)
  | column :: rest =>
      match model.get? column.property with
      | none => bindColumns model parameters rest
      | some value => do
          let parameters ← parameters.add false column.property (column.save value)
          let (columns, parameters) ← bindColumns model parameters rest
          return (column :: columns, parameters)

/-- The insertion of a model. -/
def ofModel (table : Table) (dialect : Sql.Dialect) (model : Model) :
    Except QueryError Insert := do
  let (columns, parameters) ← bindColumns model .empty table.columns
  return { table, dialect, model, columns, parameters }

/-- The tokens of the statement; there are none if no column is written. -/
def sqlTokens (i : Insert) : List Token :=
  if i.columns.isEmpty then []
  else
    Sql.stack [
      Sql.words [.keyword .insert, .keyword .into, .table i.table.schema i.table.name] ++
        .space :: Sql.parenthesized
          (Sql.commaSeparated (i.columns.map fun column => [.ident column.name])),
      .keyword .values :: .space :: Sql.parenthesized
        (Sql.commaSeparated (i.columns.map fun column => [.placeholder column.property]))]

/-- The statement in its dialect. -/
def sql (i : Insert) : String := Sql.render i.dialect i.sqlTokens

/-- The model with an identifier that the database made. -/
def withId (i : Insert) (id : Json) : Except QueryError Model :=
  match i.table.primaryKey with
  | [key] => .ok (i.model.insert key.property id)
  | _ => .error (.compositeGeneratedKey i.table.entity)

/-- Run the statement, and return the model with the identifier that the
database made for it. Nothing runs if no column is written. -/
def execute {σ : Type} (i : Insert) (engine : Engine σ) : EngineM σ Model := do
  if i.columns.isEmpty then return i.model
  match ← EngineM.ofCall (engine.insert i.sql i.parameters.values) with
  | none => return i.model
  | some id => if id.isNull then return i.model else liftM (i.withId id)

end Insert

end EntityQuery
