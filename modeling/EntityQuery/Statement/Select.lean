import EntityQuery.Engine.Basic
import EntityQuery.Shape.Fold
import EntityQuery.Statement.Order

/-!
# Selections

A selection reads columns of a graph, each under the name of its property, and
folds the rows into models. Chosen properties must include the primary key of
every table, since the rows are told apart by it.
-/

namespace EntityQuery

open Sql (Token)

/-- A selection under construction. -/
structure Select where
  graph : JoinGraph
  /-- The chosen properties; all of them where none are chosen. -/
  selected : Option (List String) := none
  order : Order := none
  /-- At most so many rows, after so many others. -/
  limit : Option (UInt64 × Option UInt64) := none

namespace Select

/-- Refuse a property that is not available or is chosen twice. -/
def checkProperties (g : JoinGraph) (seen : List String) : List String → Except QueryError Unit
  | [] => .ok ()
  | property :: rest => do
      let _ ← g.column property
      if property ∈ seen then throw (.duplicateSelect property)
      checkProperties g (property :: seen) rest

/-- Refuse a choice that lacks a key property of some table. -/
def checkKeys (chosen : List String) : List GraphTable → Except QueryError Unit
  | [] => .ok ()
  | t :: rest =>
      if t.keyColumns.all fun key => key.property ∈ chosen then checkKeys chosen rest
      else .error (.missingPrimaryKey t.table.name t.alias)

/-- Choose properties. No properties mean all of them. -/
def select (s : Select) (properties : List String) : Except QueryError Select := do
  if s.selected.isSome then throw (.alreadyPerformed .select)
  checkProperties s.graph [] properties
  if !properties.isEmpty then checkKeys properties s.graph.tables
  return { s with selected := some properties }

/-- Give the order. -/
def orderBy (s : Select) (items : List (String × SortDirection)) : Except QueryError Select := do
  return { s with order := ← s.order.set s.graph items }

/-- Ask for at most `count` rows after the first `offset`. -/
def take (s : Select) (count : UInt64) (offset : Option UInt64) : Except QueryError Select :=
  if s.limit.isSome then .error (.alreadyPerformed .limit)
  else .ok { s with limit := some (count, offset) }

/-- The selected columns, in the order chosen or else in that of the graph. -/
def columns (s : Select) : List GraphColumn :=
  match s.selected with
  | none | some [] => s.graph.columns
  | some properties => properties.filterMap s.graph.column?

/-- A column under the name of its property. -/
def columnTokens (c : GraphColumn) : List Token :=
  Sql.words [.column c.reference, .keyword .as, .ident c.property]

/-- The line for a page of rows. Where a page needs an order and none is given,
any order will do. -/
def pageLines (s : Select) : List (List Token) :=
  match s.limit with
  | none => []
  | some (count, offset) =>
      let anyOrder := .keyword .orderBy :: .space ::
        Sql.parenthesized (Sql.phrase [.select, .null])
      (if s.order.items.isEmpty && s.graph.dialect.pagesNeedOrder then [anyOrder] else []) ++
        [s.graph.dialect.paging (some count) offset]

/-- The tokens of the statement. -/
def sqlTokens (s : Select) : List Token :=
  Sql.stack
    ([.keyword .select :: .space :: Sql.commaSeparated (s.columns.map columnTokens)] ++
      s.graph.lines ++ s.order.line?.toList ++ s.pageLines)

/-- The statement in its dialect. -/
def sql (s : Select) : String := Sql.render s.graph.dialect s.sqlTokens

/-- Add columns to a shape. -/
def addColumns (shape : Shape) : List GraphColumn → Except QueryError Shape
  | [] => .ok shape
  | c :: rest => do
      let shape ← shape.addColumn
        { name := c.property, property := c.column.property, onRetrieve := c.column.onRetrieve? }
      addColumns shape rest

/-- The shape of one table's selected columns. -/
def tableShape (s : Select) (t : GraphTable) : Except QueryError Shape :=
  addColumns (.ofTable t.table (t.keyColumns.map GraphColumn.property))
    (s.columns.filter fun c => c.alias = t.alias)

/-- Nest the tables joined to an alias, out of the tables that came after it,
each with the tables joined to it in turn. -/
def nestTables (s : Select) (label : String) (shape : Shape) :
    List GraphTable → Except QueryError Shape
  | [] => .ok shape
  | t :: later =>
      match t.link with
      | none => nestTables s label shape later
      | some link =>
          if link.parent = label then do
            let child ← nestTables s t.alias (← s.tableShape t) later
            nestTables s label (← shape.addChild link.relationship child) later
          else nestTables s label shape later

/-- The shape that the rows of the statement fold into. -/
def shape (s : Select) : Except QueryError Shape := do
  s.nestTables s.graph.base.alias (← s.tableShape s.graph.base) s.graph.joined

/-- Run the statement and fold the rows into models. -/
def execute {σ : Type} (s : Select) (engine : Engine σ) : EngineM σ (List Model) := do
  let shape ← liftM s.shape
  let rows ← EngineM.ofCall (engine.select s.sql s.graph.parameters.values)
  return shape.fold rows

/-- Run the statement for models that hold nothing but text. -/
def executeAsTexts {σ : Type} (s : Select) (engine : Engine σ) : EngineM σ (List (Dict String)) := do
  (← s.execute engine).mapM fun model => liftM model.toTexts

end Select

end EntityQuery
