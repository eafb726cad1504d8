import EntityQuery.Catalog.Table
import EntityQuery.Dict
import EntityQuery.Error

/-!
# Catalogs

A catalog lists the tables of a database and the relationships between their
entities. It is built from declarations and checked once: entities are
distinct and have a key, relationships connect declared entities, and no owner
has two relationships of one property. A value of `Catalog` has passed.
-/

namespace EntityQuery

/-- How many targets belong to one owner. -/
inductive Cardinality where
  | oneToMany
  | manyToOne
  | oneToOne
  deriving DecidableEq

/-- A property of one entity that holds another entity, or several of them. -/
structure Relationship where
  owner : String
  target : String
  property : String
  cardinality : Cardinality
  /-- Pairs of an owner property and the target property that equals it. -/
  keys : List (List String) := []
  deriving DecidableEq

/-- Whether the property holds a list. -/
def Relationship.isCollection (relationship : Relationship) : Bool :=
  relationship.cardinality = .oneToMany

namespace Catalog

/-- The first fault among table declarations, after some entities. -/
def tableFault? (declared : List String) : List Table → Option QueryError
  | [] => none
  | table :: rest =>
      if table.primaryKey.isEmpty then some (.noPrimaryKey table.entity)
      else if table.entity ∈ declared then some (.duplicateEntity table.entity)
      else tableFault? (table.entity :: declared) rest

/-- The first fault among relationship declarations between some entities,
after some pairs of an owner and a property. -/
def relationshipFault? (entities : List String) (declared : List (String × String)) :
    List Relationship → Option QueryError
  | [] => none
  | r :: rest =>
      if r.owner ∉ entities then some (.unknownEntity r.owner)
      else if r.target ∉ entities then some (.unknownEntity r.target)
      else if (r.owner, r.property) ∈ declared then
        some (.duplicateRelationship r.owner r.property)
      else relationshipFault? entities ((r.owner, r.property) :: declared) rest

/-- The first fault of some declarations, tables before relationships. -/
def fault? (tables : List Table) (relationships : List Relationship) : Option QueryError :=
  (tableFault? [] tables).or
    (relationshipFault? (tables.map Table.entity) [] relationships)

end Catalog

/-- Tables and relationships without a fault. -/
structure Catalog where
  tables : List Table
  relationships : List Relationship
  sound : Catalog.fault? tables relationships = none

namespace Catalog

/-- Check declarations, or report their first fault. -/
def build (tables : List Table) (relationships : List Relationship) :
    Except QueryError Catalog :=
  match h : fault? tables relationships with
  | none => .ok ⟨tables, relationships, h⟩
  | some error => .error error

/-- The table of an entity. -/
def table (catalog : Catalog) (entity : String) : Except QueryError Table :=
  match catalog.tables.find? fun table => table.entity = entity with
  | some table => .ok table
  | none => .error (.unknownEntity entity)

/-- The relationships of an owner in order of declaration. -/
def relationshipsOf (catalog : Catalog) (owner : String) : List Relationship :=
  catalog.relationships.filter fun r => r.owner = owner

/-- The relationship of a property from an owner to a target. -/
def relationship (catalog : Catalog) (owner target property : String) :
    Except QueryError Relationship :=
  match (catalog.relationshipsOf owner).find? fun r => r.target = target ∧ r.property = property with
  | some r => .ok r
  | none => .error (.unknownRelationship owner target property)

/-- A name after an alias and a dot. -/
def qualify (alias? : Option String) (name : String) : String :=
  match alias? with
  | some label => label ++ "." ++ name
  | none => name

/-- The column name of each property of an entity, both after an alias if one
is given. The last column of a property counts. -/
def propertyMap (catalog : Catalog) (entity : String) (alias? : Option String) :
    Except QueryError (Dict String) := do
  let table ← catalog.table entity
  return Dict.ofList (table.columns.map fun column =>
    (qualify alias? column.property, qualify alias? column.name))

end Catalog

end EntityQuery
