import EntityQuery.Engine.Basic
import EntityQuery.JoinGraph.Sql

/-!
# Updates

An update assigns new values to properties of a graph, each bound to a name
made up for it. Dialects differ in how they reach joined tables: one assigns
them too, one repeats the query after the assignments, and the others narrow
the base table by its keys.
-/

namespace EntityQuery

open Sql (Token)

/-- A column that is assigned and the placeholder of its new value. -/
structure Assignment where
  column : GraphColumn
  placeholder : String

/-- An update of the tables of a graph. -/
structure Update where
  graph : JoinGraph
  assignments : List Assignment
  /-- Whether it is an error to change no row. -/
  requireAffected : Bool := true

namespace Update

/-- The column of a property that an update may assign. -/
def targetOf (g : JoinGraph) (property : String) : Except QueryError GraphColumn := do
  let c ← g.column property
  if c.alias ≠ g.base.alias ∧ !g.dialect.mutationStyle.assignsJoined then
    throw (.joinedUpdateTarget g.dialect property)
  return c

/-- Bind the values of properties to names made up for them, in turn. -/
def assign (g : JoinGraph) (parameters : Parameters) :
    List (String × Json) → Except QueryError (List Assignment × Parameters)
  | [] => .ok ([], parameters)
  | (property, value) :: rest => do
      let column ← targetOf g property
      let (placeholder, parameters) := parameters.mint property
      let parameters ← parameters.add false placeholder (column.column.save value)
      let (assignments, parameters) ← assign g parameters rest
      return (⟨column, placeholder⟩ :: assignments, parameters)

/-- The update that gives properties the values of a model. -/
def ofModel (g : JoinGraph) (model : Model) : Except QueryError Update := do
  let (assignments, parameters) ← assign g g.parameters model.entries
  return { graph := { g with parameters }, assignments }

/-- One assignment. A statement with a single table names its columns alone. -/
def assignmentTokens (style : Sql.MutationStyle) (a : Assignment) : List Token :=
  let target := match style with
    | .keySubquery => .ident a.column.column.name
    | .multiTable | .targetAlias => .column a.column.reference
  Sql.words [target, .keyword .eq, .placeholder a.placeholder]

/-- The line of assignments. -/
def setLine (u : Update) : List Token :=
  .keyword .set :: .space :: Sql.commaSeparated
    (u.assignments.map (assignmentTokens u.graph.dialect.mutationStyle))

/-- The lines of the statement, around that of its assignments. -/
def linesAround (u : Update) (setLine : List Token) : List (List Token) :=
  let g := u.graph
  let updateBase := .keyword .update :: .space :: g.base.sqlTokens
  match g.dialect.mutationStyle with
  | .multiTable => updateBase :: g.joinLines ++ setLine :: g.whereLine?.toList
  | .targetAlias => Sql.words [.keyword .update, .ident g.base.alias] :: setLine :: g.lines
  | .keySubquery =>
      updateBase :: setLine ::
        if g.hasJoins then [g.keySubquery g.base] else g.whereLine?.toList

/-- The tokens of the statement; there are none if nothing is assigned. -/
def sqlTokens (u : Update) : List Token :=
  if u.assignments.isEmpty then [] else Sql.stack (u.linesAround u.setLine)

/-- The statement in its dialect. -/
def sql (u : Update) : String := Sql.render u.graph.dialect u.sqlTokens

/-- Run the statement, and return the number of changed rows. Nothing runs if
nothing is assigned. -/
def execute {σ : Type} (u : Update) (engine : Engine σ) : EngineM σ UInt64 := do
  if u.assignments.isEmpty then return 0
  let affected ← EngineM.ofCall (engine.update u.sql u.graph.parameters.values)
  if affected = 0 ∧ u.requireAffected then throw .noRowsAffected
  return affected

end Update

end EntityQuery
