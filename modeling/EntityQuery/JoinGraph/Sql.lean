import EntityQuery.JoinGraph.Basic

/-!
# Join graphs in SQL

A graph is written as lines: the base table, one line for each join, and the
condition on the rows. Statements that change one table only reach the rows of
a graph through the keys of that table.
-/

namespace EntityQuery

open Sql (Token)

/-- The words of a join. -/
def JoinKind.sqlTokens : JoinKind → List Token
  | inner => Sql.phrase [.inner, .join]
  | leftOuter => Sql.phrase [.left, .outer, .join]
  | rightOuter => Sql.phrase [.right, .outer, .join]

/-- A table and its alias. -/
def GraphTable.sqlTokens (t : GraphTable) : List Token :=
  Sql.words [.table t.table.schema t.table.name, .keyword .as, .ident t.alias]

/-- The line of a joined table. -/
def GraphTable.joinLine (t : GraphTable) : List Token :=
  ((t.link.bind Link.kind).getD .inner).sqlTokens ++ .space :: t.sqlTokens ++
    match t.sql with
    | some sql => .space :: Sql.words [.keyword .on, .written sql]
    | none => []

namespace JoinGraph

/-- The line of the base table. -/
def fromLine (g : JoinGraph) : List Token := .keyword .from_ :: .space :: g.base.sqlTokens

/-- The lines of the joined tables. -/
def joinLines (g : JoinGraph) : List (List Token) := g.joined.map GraphTable.joinLine

/-- The line of the condition on the rows, if there is one. -/
def whereLine? (g : JoinGraph) : Option (List Token) :=
  g.base.sql.map fun sql => Sql.words [.keyword .where_, .written sql]

/-- All lines of the graph. -/
def lines (g : JoinGraph) : List (List Token) := g.fromLine :: g.joinLines ++ g.whereLine?.toList

/-- The tokens of the graph. -/
def sqlTokens (g : JoinGraph) : List Token := Sql.stack g.lines

/-- The graph in its dialect. -/
def sql (g : JoinGraph) : String := Sql.render g.dialect g.sqlTokens

/-- The key columns of a table, as a row value if there are several. -/
def keyTokens (keys : List GraphColumn) : List Token :=
  let columns := Sql.commaSeparated (keys.map fun c => [Token.column c.reference])
  if keys.length > 1 then Sql.parenthesized columns else columns

/-- The condition that a table's keys are among those that the graph reaches. -/
def keySubquery (g : JoinGraph) (target : GraphTable) : List Token :=
  let columns := Sql.commaSeparated (target.keyColumns.map fun c => [Token.column c.reference])
  Token.keyword .where_ :: .space :: keyTokens target.keyColumns ++
    .space :: .keyword .in_ :: .space ::
      Sql.parenthesized (Token.keyword .select :: .space :: columns ++
        .keyword .newline :: g.sqlTokens)

end JoinGraph

end EntityQuery
