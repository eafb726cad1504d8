import EntityQuery.Settings.Basic
import EntityQuery.Statement.Count
import EntityQuery.Statement.Insert
import EntityQuery.Statement.Keyed
import EntityQuery.Statement.Select

/-!
# Sessions

A session holds what all statements of a program have in common: the catalog,
the dialect, and whether a change of no row is an error. Queries start from it,
and it saves, changes and removes models by their keys. Lists of models are
worked through in turn, and the first failure ends the work; what has been
done up to then stays done.
-/

namespace EntityQuery

/-- What all statements of a program have in common. -/
structure Session where
  catalog : Catalog
  dialect : Sql.Dialect := .mysql
  /-- Whether it is an error for an update or a deletion to affect no row. -/
  requireAffected : Bool := true

namespace Session

/-- The session that settings ask for. -/
def ofSettings (catalog : Catalog) (settings : Settings) (environment : Environment) :
    Except SettingsError Session := do
  let dialect ← settings.dialect environment
  return { catalog, dialect, requireAffected := settings.requireAffected }

/-- A graph of one table, from which a query starts. -/
def start (s : Session) (entity label : String) : Except QueryError JoinGraph :=
  JoinGraph.start s.catalog s.dialect entity label

/-- The update of a graph that gives properties the values of a model. -/
def updateOf (s : Session) (g : JoinGraph) (model : Model) : Except QueryError Update := do
  return { ← Update.ofModel g model with requireAffected := s.requireAffected }

/-- The deletion from the base table of a graph. -/
def deleteOf (s : Session) (g : JoinGraph) : Delete :=
  { Delete.ofGraph g with requireAffected := s.requireAffected }

/-- The insertion of a model. -/
def insertOf (s : Session) (entity : String) (model : Model) : Except QueryError Insert := do
  Insert.ofModel (← s.catalog.table entity) s.dialect model

/-- The update of the row that a model names. -/
def updateModelOf (s : Session) (entity : String) (model : Model) :
    Except QueryError Update := do
  return { ← Keyed.update s.catalog s.dialect entity model with
    requireAffected := s.requireAffected }

/-- The deletion of the row that a model names. -/
def deleteModelOf (s : Session) (entity : String) (model : Model) :
    Except QueryError Delete := do
  return { ← Keyed.delete s.catalog s.dialect entity model with
    requireAffected := s.requireAffected }

variable {σ : Type}

/-- Save a model, and return it with the identifier that the database made. -/
def insert (s : Session) (engine : Engine σ) (entity : String) (model : Model) :
    EngineM σ Model := do
  (← liftM (s.insertOf entity model)).execute engine

/-- Save models in turn. -/
def insertAll (s : Session) (engine : Engine σ) (entity : String) :
    List Model → EngineM σ (List Model)
  | [] => return []
  | model :: rest => do
      let saved ← s.insert engine entity model
      let rest ← s.insertAll engine entity rest
      return saved :: rest

/-- Change the row that a model names, and return the number of changed rows. -/
def updateModel (s : Session) (engine : Engine σ) (entity : String) (model : Model) :
    EngineM σ UInt64 := do
  (← liftM (s.updateModelOf entity model)).execute engine

/-- Change the rows that models name, and return the number of changed rows. -/
def updateModels (s : Session) (engine : Engine σ) (entity : String) :
    List Model → EngineM σ UInt64
  | [] => return 0
  | model :: rest => do
      let affected ← s.updateModel engine entity model
      let others ← s.updateModels engine entity rest
      return affected + others

/-- Remove the row that a model names, and return the number of removed rows. -/
def deleteModel (s : Session) (engine : Engine σ) (entity : String) (model : Model) :
    EngineM σ UInt64 := do
  (← liftM (s.deleteModelOf entity model)).execute engine

/-- Remove the rows that models name, and return the number of removed rows. -/
def deleteModels (s : Session) (engine : Engine σ) (entity : String) :
    List Model → EngineM σ UInt64
  | [] => return 0
  | model :: rest => do
      let affected ← s.deleteModel engine entity model
      let others ← s.deleteModels engine entity rest
      return affected + others

end Session

end EntityQuery
