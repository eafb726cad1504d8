import EntityQuery.Engine.Basic
import EntityQuery.JoinGraph.Sql

/-!
# Deletions

A deletion removes the rows of one table of a graph, the base table or
another. Where the statement has a single table, the joins of the graph narrow
it by its keys.
-/

namespace EntityQuery

open Sql (Token)

/-- A deletion from one table of a graph. -/
structure Delete where
  graph : JoinGraph
  target : GraphTable
  /-- Whether it is an error to remove no row. -/
  requireAffected : Bool := true

namespace Delete

/-- The deletion from the base table. -/
def ofGraph (g : JoinGraph) : Delete := { graph := g, target := g.base }

/-- The deletion from the table of an alias instead. -/
def fromAlias (d : Delete) (label : String) : Except QueryError Delete :=
  match d.graph.table? label with
  | some target => .ok { d with target }
  | none => .error (.unknownAlias label)

/-- The lines of the statement after its first word. -/
def linesAfter (d : Delete) : List (List Token) :=
  let g := d.graph
  match g.dialect.mutationStyle with
  | .multiTable | .targetAlias => [.ident d.target.alias] :: g.lines
  | .keySubquery =>
      if g.hasJoins then
        [.keyword .from_ :: .space :: d.target.sqlTokens, g.keySubquery d.target]
      else g.lines

/-- The tokens of the statement. -/
def sqlTokens (d : Delete) : List Token :=
  .keyword .delete :: .space :: Sql.stack d.linesAfter

/-- The statement in its dialect. -/
def sql (d : Delete) : String := Sql.render d.graph.dialect d.sqlTokens

/-- Run the statement, and return the number of removed rows. -/
def execute {σ : Type} (d : Delete) (engine : Engine σ) : EngineM σ UInt64 := do
  let affected ← EngineM.ofCall (engine.delete d.sql d.graph.parameters.values)
  if affected = 0 ∧ d.requireAffected then throw .noRowsAffected
  return affected

end Delete

end EntityQuery
