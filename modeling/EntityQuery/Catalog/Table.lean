import EntityQuery.Catalog.Converter
import EntityQuery.Catalog.DataType

/-!
# Mapped tables

An entity is stored in a table. Each column holds one property of the entity,
under the same name or another.
-/

namespace EntityQuery

/-- A column and the property that it holds. -/
structure Column where
  name : String
  property : String
  isPrimary : Bool := false
  /-- Whether the database makes the value. -/
  isGenerated : Bool := false
  isRequired : Bool := false
  dataType : Option DataType := none
  converter : Option Converter := none

namespace Column

/-- A column that holds the property of its own name. -/
def named (name : String) : Column := { name, property := name }

/-- Whether the column may be null; key columns may not. -/
def isNullable (column : Column) : Bool := !column.isPrimary && !column.isRequired

/-- The largest number of characters, as the type says. -/
def maxLength? (column : Column) : Option UInt32 := column.dataType.bind DataType.maxLength?

/-- The form of a property's value in the database. -/
def save (column : Column) (value : Json) : Json :=
  match column.converter with
  | some converter => converter.save value
  | none => value

/-- The form of a column's value in a model. -/
def retrieve (column : Column) (value : Json) : Json :=
  match column.converter with
  | some converter => converter.retrieve value
  | none => value

/-- The change of a value as it is retrieved, if there is one. -/
def onRetrieve? (column : Column) : Option (Json → Json) :=
  column.converter.bind Converter.onRetrieve

end Column

/-- A table and the entity that it stores. -/
structure Table where
  entity : String
  name : String
  schema : Option String := none
  columns : List Column := []

namespace Table

/-- The columns of the primary key in order of declaration. -/
def primaryKey (table : Table) : List Column := table.columns.filter Column.isPrimary

/-- The first column that holds a property. -/
def columnOf? (table : Table) (property : String) : Option Column :=
  table.columns.find? fun column => column.property = property

end Table

end EntityQuery
