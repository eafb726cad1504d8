import EntityQuery.Condition.Error
import EntityQuery.Sql.Dialect

/-!
# What can be wrong with a query

Errors are causes: each carries the names it is about, and `message` puts it
into words.
-/

namespace EntityQuery

/-- The clauses that a statement takes once. -/
inductive Clause where
  | filter
  | select
  | orderBy
  | limit
  | count
  deriving DecidableEq

/-- A clause in words. -/
def Clause.text : Clause → String
  | filter => "where"
  | select => "select"
  | orderBy => "order by"
  | limit => "limit"
  | count => "count"

/-- What can be wrong with a catalog, a query or its run. -/
inductive QueryError where
  /-- A condition that is malformed or lacks a value. -/
  | condition (error : Condition.Error)
  | duplicateAlias (label : String)
  | invalidAlias (label : String)
  | unknownAlias (label : String)
  | missingParent (label : String)
  | mappingNotUnique (parent relationship : String)
  | parentRequired (label : String)
  | invalidParentProperty (property : String)
  /-- A column that a condition cannot use. -/
  | columnNotAvailable (column : String)
  /-- A property that no table of the query has. -/
  | propertyNotAvailable (property : String)
  | invalidJoinKeys (relationship : String)
  | unknownEntity (entity : String)
  | duplicateEntity (entity : String)
  | noPrimaryKey (entity : String)
  | unknownRelationship (owner target property : String)
  | duplicateRelationship (owner property : String)
  /-- A clause that the statement has already. -/
  | alreadyPerformed (clause : Clause)
  | duplicateSelect (property : String)
  | missingPrimaryKey (table label : String)
  /-- A placeholder that is bound to another value. -/
  | parameterConflict (name : String)
  /-- A model without a value for a key property. -/
  | missingModelKey (property : String)
  | compositeGeneratedKey (entity : String)
  | invalidModel
  /-- An update that assigns a joined table's property where only the base table may change. -/
  | joinedUpdateTarget (dialect : Sql.Dialect) (property : String)
  | duplicateShapeProperty (property : String)
  | noRowsAffected
  | invalidCountResult
  /-- A failure of the engine that runs statements, in its own words. -/
  | engine (message : String)
  /-- A value that does not have the form asked for. -/
  | unconvertible
  deriving DecidableEq

namespace QueryError

open Text (quoted)

/-- An error in words. -/
def message : QueryError → String
  | condition error => error.message
  | duplicateAlias label => "table alias " ++ quoted label ++ " already in use"
  | invalidAlias label =>
      "table alias " ++ quoted label ++ " is invalid; aliases must contain only word characters"
  | unknownAlias label => "table alias " ++ quoted label ++ " is not part of the query"
  | missingParent label => "parent alias " ++ quoted label ++ " not found"
  | mappingNotUnique parent relationship =>
      "mapping not unique: relationship " ++ quoted relationship ++ " already joined under " ++
        quoted parent
  | parentRequired label =>
      "table " ++ quoted label ++ " must be joined to a parent through a relationship"
  | invalidParentProperty property =>
      "invalid parent property " ++ quoted property ++ "; expected \"alias.property\""
  | columnNotAvailable column => "column " ++ quoted column ++ " not available for a condition"
  | propertyNotAvailable property => "property " ++ quoted property ++ " is not available"
  | invalidJoinKeys relationship =>
      "invalid join keys for relationship " ++ quoted relationship ++
        "; each pair needs exactly two entries"
  | unknownEntity entity => "unknown entity " ++ quoted entity
  | duplicateEntity entity => "entity " ++ quoted entity ++ " registered twice"
  | noPrimaryKey entity => "entity " ++ quoted entity ++ " has no primary key"
  | unknownRelationship owner target property =>
      "no relationship " ++ quoted property ++ " from " ++ quoted owner ++ " to " ++ quoted target
  | duplicateRelationship owner property =>
      "relationship " ++ quoted property ++ " declared twice on " ++ quoted owner
  | alreadyPerformed clause => clause.text ++ " already performed"
  | duplicateSelect property => "property " ++ quoted property ++ " selected more than once"
  | missingPrimaryKey table label =>
      "primary key of table " ++ quoted table ++ " (alias " ++ quoted label ++
        ") must be selected"
  | parameterConflict name =>
      "parameter " ++ quoted name ++ " already defined with a different value"
  | missingModelKey property => "primary key " ++ quoted property ++ " is required"
  | compositeGeneratedKey entity =>
      "generated keys are not supported for composite primary keys on " ++ quoted entity
  | invalidModel => "model must be a JSON object"
  | joinedUpdateTarget dialect property =>
      dialect.name ++ " updates only the base table; " ++ quoted property ++
        " belongs to a joined table"
  | duplicateShapeProperty property =>
      "property " ++ quoted property ++ " appears more than once in the schema"
  | noRowsAffected => "operation did not affect any rows"
  | invalidCountResult => "count query returned no usable \"count\" value"
  | engine message => message
  | unconvertible => "failed to convert model"

end QueryError

end EntityQuery
