import EntityQuery.JoinGraph.Sql

/-!
# The order of result rows

Selections and counts may be ordered, once, by available properties.
-/

namespace EntityQuery

open Sql (Token)

/-- The directions of sorting. -/
inductive SortDirection where
  | ascending
  | descending
  deriving DecidableEq

/-- The word of a direction. -/
def SortDirection.sqlToken : SortDirection → Token
  | ascending => .keyword .asc
  | descending => .keyword .desc

/-- A column of the order and its direction. -/
structure OrderItem where
  column : GraphColumn
  direction : SortDirection

/-- The order of a statement: not given yet, or given and possibly empty. -/
abbrev Order := Option (List OrderItem)

namespace Order

/-- Give the order, which is given once and names available properties. -/
def set (order : Order) (g : JoinGraph) (items : List (String × SortDirection)) :
    Except QueryError Order :=
  match order with
  | some _ => .error (.alreadyPerformed .orderBy)
  | none => do
      let items ← items.mapM fun (property, direction) => do
        return ⟨← g.column property, direction⟩
      return some items

/-- The items of the order. -/
def items (order : Order) : List OrderItem := order.getD []

/-- The line of the order, if it has any items. -/
def line? (order : Order) : Option (List Token) :=
  if order.items.isEmpty then none
  else some (.keyword .orderBy :: .space :: Sql.commaSeparated (order.items.map fun item =>
    Sql.words [.column item.column.reference, item.direction.sqlToken]))

end Order

end EntityQuery
