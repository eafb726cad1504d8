import EntityQuery.Catalog.Basic
import EntityQuery.Model

/-!
# Shapes of nested models

A join repeats a parent's columns in the rows of each of its children. A shape
says how such rows make up nested models: which columns identify a model,
which of them it holds, and which relationships lead from it to further
models. No property of a shape is used twice.
-/

namespace EntityQuery

/-- A column of the rows and the property that it goes to. -/
structure ShapeColumn where
  name : String
  property : String
  /-- The change of the value on its way to the model. -/
  onRetrieve : Option (Json → Json) := none

/-- How rows make up the models of one table and, nested in them, of others. -/
inductive Shape where
  | node (table : Table) (keys : List String) (columns : List ShapeColumn)
      (children : List (Relationship × Shape))

namespace Shape

/-- A shape without properties. -/
def ofTable (table : Table) (keys : List String) : Shape := node table keys [] []

/-- The table whose models the shape makes up. -/
def table : Shape → Table
  | node table _ _ _ => table

/-- The columns that identify a model. -/
def keys : Shape → List String
  | node _ keys _ _ => keys

/-- The columns that a model holds. -/
def columns : Shape → List ShapeColumn
  | node _ _ columns _ => columns

/-- The shapes nested in this one, each under a relationship. -/
def children : Shape → List (Relationship × Shape)
  | node _ _ _ children => children

/-- The properties that the shape uses. -/
def properties (shape : Shape) : List String :=
  shape.columns.map ShapeColumn.property ++ shape.children.map fun child => child.1.property

/-- Refuse a property that the shape uses already. -/
def claim (shape : Shape) (property : String) : Except QueryError Unit :=
  if property ∈ shape.properties then .error (.duplicateShapeProperty property) else .ok ()

/-- The shape with one more column. -/
def addColumn (shape : Shape) (column : ShapeColumn) : Except QueryError Shape := do
  shape.claim column.property
  return node shape.table shape.keys (shape.columns ++ [column]) shape.children

/-- The shape with one more shape under a relationship. -/
def addChild (shape : Shape) (relationship : Relationship) (child : Shape) :
    Except QueryError Shape := do
  shape.claim relationship.property
  return node shape.table shape.keys shape.columns (shape.children ++ [(relationship, child)])

end Shape

end EntityQuery
