import EntityQuery.Engine.Basic
import EntityQuery.Statement.Order
import EntityQuery.Text.Unsigned

/-!
# Counts

A count tells how many rows a graph has, or how many of them have a value in
some column.
-/

namespace EntityQuery

open Sql (Token)

/-- A count under construction. -/
structure Count where
  graph : JoinGraph
  /-- What is counted, once it has been said: the values of a column, or rows. -/
  counted : Option (Option GraphColumn) := none
  order : Order := none

namespace Count

/-- Say what is counted: the values of a property, or rows. -/
def count (c : Count) (property : Option String) : Except QueryError Count :=
  if c.counted.isSome then .error (.alreadyPerformed .count)
  else
    match property with
    | none => .ok { c with counted := some none }
    | some property => do return { c with counted := some (some (← c.graph.column property)) }

/-- Give the order. -/
def orderBy (c : Count) (items : List (String × SortDirection)) : Except QueryError Count := do
  return { c with order := ← c.order.set c.graph items }

/-- What is counted. -/
def countedToken (c : Count) : Token :=
  match c.counted.join with
  | some column => .column column.reference
  | none => .keyword .star

/-- The tokens of the statement. -/
def sqlTokens (c : Count) : List Token :=
  let counting := Token.keyword .count :: Sql.parenthesized [c.countedToken]
  Sql.stack
    ([.keyword .select :: .space :: counting ++
        .space :: Sql.words [.keyword .as, .ident "count"]] ++
      c.graph.lines ++ c.order.line?.toList)

/-- The statement in its dialect. -/
def sql (c : Count) : String := Sql.render c.graph.dialect c.sqlTokens

/-- The count that a value is. Some engines return it as text. -/
def ofValue? : Json → Option UInt64
  | .num spelling => Text.uint64? spelling
  | .str text => Text.uint64? text
  | _ => none

/-- The count in the first row. -/
def ofRows? (rows : List Row) : Option UInt64 := do
  let row ← rows.head?
  ofValue? (← row.get? "count")

/-- Run the statement. -/
def execute {σ : Type} (c : Count) (engine : Engine σ) : EngineM σ UInt64 := do
  let rows ← EngineM.ofCall (engine.select c.sql c.graph.parameters.values)
  match ofRows? rows with
  | some count => return count
  | none => throw .invalidCountResult

end Count

end EntityQuery
