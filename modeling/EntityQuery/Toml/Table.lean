import EntityQuery.Toml.Value

/-!
# Tables

A table grows while a document is read, and what may still be added to a table
depends on how it came about. A table that a header names is complete when the
next header begins. One that was made on the way to another, as `a` in `[a.b]`,
may still get a header of its own. One that was made by a dotted key, as `a` in
`a.b = 1`, may get further keys of that form. Inline tables are values, and
nothing is added to them.

A repeated header `[[a]]` makes a list of tables; what is said about `a`
afterwards is about the last of them.
-/

namespace EntityQuery.Toml

/-- How a table came about. -/
inductive Origin where
  /-- On the way to a table that a header names. -/
  | implied
  /-- By a dotted key. -/
  | dotted
  /-- By a header of its own. -/
  | header
  deriving DecidableEq

/-- An entry of a table that is being read. -/
inductive Node where
  | value (value : Value)
  | table (origin : Origin) (members : List (String × Node))
  /-- The tables of a repeated header: the last one and those before it, latest first. -/
  | tables (last : List (String × Node)) (earlier : List (List (String × Node)))

/-- The members of a table that is being read. -/
abbrev Members := List (String × Node)

mutual

/-- The value that an entry has become. -/
def Node.toValue : Node → Value
  | .value v => v
  | .table _ members => .table (Node.memberValues members)
  | .tables last earlier =>
      .array ((Node.tableValues earlier).reverse ++ [.table (Node.memberValues last)])

/-- The values that the members of a table have become. -/
def Node.memberValues : List (String × Node) → List (String × Value)
  | [] => []
  | (key, node) :: rest => (key, node.toValue) :: Node.memberValues rest

/-- The values that tables have become. -/
def Node.tableValues : List (List (String × Node)) → List Value
  | [] => []
  | members :: rest => .table (Node.memberValues members) :: Node.tableValues rest

end

/-- The place of a value or table: the keys of the tables around it, and its own. -/
structure Path where
  outer : List String
  key : String

namespace Members

/-- Put an entry under a key, in place of an earlier one. -/
def put (key : String) (node : Node) : Members → Members
  | [] => [(key, node)]
  | (k, n) :: rest => if k = key then (key, node) :: rest else (k, n) :: put key node rest

/-- Give a value to a key, which may be dotted. No key gets two values, and
dotted keys reach into no table that has a header of its own. -/
def assign (key : String) (v : Value) : List String → Members → Option Members
  | [], members =>
      match members.lookup key with
      | none => some (members.put key (.value v))
      | some _ => none
  | k :: rest, members =>
      match members.lookup k with
      | none => do return members.put k (.table .dotted (← assign key v rest []))
      | some (.table .dotted inner) => do
          return members.put k (.table .dotted (← assign key v rest inner))
      | some (.table .implied inner) =>
          if rest.isEmpty then none
          else do return members.put k (.table .implied (← assign key v rest inner))
      | some (.tables last earlier) =>
          if rest.isEmpty then none
          else do return members.put k (.tables (← assign key v rest last) earlier)
      | some (.table .header _) | some (.value _) => none

/-- Give values to keys in turn. -/
def assignAll (assignments : List (Path × Value)) (members : Members) : Option Members :=
  assignments.foldlM (fun members (path, v) => members.assign path.key v path.outer) members

/-- Change the table at the end of a path. Tables on the way are made where
they are missing. -/
def within (change : Members → Option Members) : List String → Members → Option Members
  | [], members => change members
  | k :: rest, members =>
      match members.lookup k with
      | none => do return members.put k (.table .implied (← within change rest []))
      | some (.table origin inner) => do
          return members.put k (.table origin (← within change rest inner))
      | some (.tables last earlier) => do
          return members.put k (.tables (← within change rest last) earlier)
      | some (.value _) => none

/-- Open the table of a header and fill it. It is new, or was made on the way
to another table. -/
def openTable (key : String) (fill : Members → Option Members) (members : Members) :
    Option Members :=
  match members.lookup key with
  | none => do return members.put key (.table .header (← fill []))
  | some (.table .implied inner) => do return members.put key (.table .header (← fill inner))
  | some _ => none

/-- Add a table to the list of a repeated header and fill it. -/
def appendTable (key : String) (fill : Members → Option Members) (members : Members) :
    Option Members :=
  match members.lookup key with
  | none => do return members.put key (.tables (← fill []) [])
  | some (.tables last earlier) => do
      return members.put key (.tables (← fill []) (last :: earlier))
  | some _ => none

end Members

end EntityQuery.Toml
