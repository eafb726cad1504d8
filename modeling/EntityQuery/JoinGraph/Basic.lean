import EntityQuery.Catalog.Basic
import EntityQuery.Parameters

/-!
# Join graphs

A query starts from a base table and joins further tables to it, each under an
alias of its own and each through a relationship of a table that is there
already. A join graph keeps the tables in the order they came in, the columns
that they make available, and the parameters of its conditions.

Properties and columns are referred to as `alias.property` and `alias.column`.
-/

namespace EntityQuery

/-- The kinds of joins. -/
inductive JoinKind where
  | inner
  | leftOuter
  | rightOuter
  deriving DecidableEq

/-- How a joined table hangs on its parent. -/
structure Link where
  parent : String
  relationship : Relationship
  /-- The kind of the join; an inner join where none is given. -/
  kind : Option JoinKind

/-- A table of a query under its alias. -/
structure GraphTable where
  table : Table
  «alias» : String
  /-- Where the table is joined; the base table is joined nowhere. -/
  link : Option Link := none
  /-- The condition as it was given: of the join, or of the rows for the base table. -/
  condition : Option Json := none
  /-- The condition in SQL. -/
  sql : Option String := none

/-- A column that a table of the query makes available. -/
structure GraphColumn where
  «alias» : String
  column : Column

namespace GraphColumn

/-- The property as `alias.property`. -/
def property (c : GraphColumn) : String := c.alias ++ "." ++ c.column.property

/-- The column as `alias.column`. -/
def reference (c : GraphColumn) : String := c.alias ++ "." ++ c.column.name

end GraphColumn

namespace GraphTable

/-- The columns of the table under its alias. -/
def columns (t : GraphTable) : List GraphColumn := t.table.columns.map (⟨t.alias, ·⟩)

/-- The key columns of the table under its alias. -/
def keyColumns (t : GraphTable) : List GraphColumn := t.table.primaryKey.map (⟨t.alias, ·⟩)

/-- The alias of the table that this one is joined to. -/
def parent? (t : GraphTable) : Option String := t.link.map Link.parent

end GraphTable

/-- The tables, columns, conditions and parameters of a query. -/
structure JoinGraph where
  catalog : Catalog
  dialect : Sql.Dialect
  base : GraphTable
  /-- The joined tables in order. -/
  joined : List GraphTable
  /-- The available columns in order. -/
  columns : List GraphColumn
  /-- The column of each available property. -/
  lookup : Dict String
  /-- The pairs of a parent alias and a relationship that are joined. -/
  mappings : List (String × String)
  parameters : Parameters
  /-- Whether the condition on the rows has been given. -/
  filtered : Bool

namespace JoinGraph

/-- The tables in order, the base table first. -/
def tables (g : JoinGraph) : List GraphTable := g.base :: g.joined

/-- The table of an alias. -/
def table? (g : JoinGraph) (label : String) : Option GraphTable :=
  g.tables.find? fun t => t.alias = label

/-- The tables joined to an alias, in order. -/
def children (g : JoinGraph) (label : String) : List GraphTable :=
  g.tables.filter fun t => t.parent? = some label

/-- The first available column of a property. -/
def column? (g : JoinGraph) (property : String) : Option GraphColumn :=
  g.columns.find? fun c => c.property = property

/-- Whether conditions may use a property. -/
def isAvailable (g : JoinGraph) (property : String) : Bool := g.lookup.contains property

/-- The column of a property, which must be available. -/
def column (g : JoinGraph) (property : String) : Except QueryError GraphColumn :=
  match g.column? property with
  | some c => .ok c
  | none => .error (.propertyNotAvailable property)

/-- Whether any table is joined. -/
def hasJoins (g : JoinGraph) : Bool := !g.joined.isEmpty

end JoinGraph

end EntityQuery
