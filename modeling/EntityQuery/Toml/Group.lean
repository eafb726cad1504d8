import EntityQuery.Toml.Token

/-!
# Groups

Matching brackets enclose groups: an array, an inline table, or the header of
a table. The tokens are read one by one. For each bracket that is open, the
groups before it are kept, latest first, until it closes. Only so many brackets
may be open at once.
-/

namespace EntityQuery.Toml

/-- How deep brackets may be nested, and how many names a key may have. -/
def nestingLimit : Nat := 80

/-- A leaf, or what a pair of brackets encloses. -/
inductive Group where
  | leaf (leaf : Leaf)
  | enclosed (bracket : Bracket) (items : List Group)

namespace Group

/-- A bracket that is open, and the groups before it, latest first. -/
structure Pending where
  bracket : Bracket
  before : List Group

/-- Read tokens inside the brackets that are open, after the groups that
stand there already, latest first. -/
def read (stack : List Pending) (current : List Group) : List Token → Option (List Group)
  | [] => if stack.isEmpty then some current.reverse else none
  | .leaf l :: rest => read stack (leaf l :: current) rest
  | .opening bracket :: rest =>
      if stack.length < nestingLimit then read (⟨bracket, current⟩ :: stack) [] rest else none
  | .closing bracket :: rest =>
      match stack with
      | [] => none
      | pending :: stack =>
          if pending.bracket = bracket then
            read stack (enclosed bracket current.reverse :: pending.before) rest
          else none

/-- The groups that tokens form, if every bracket has its partner and none is
nested too deep. -/
def ofTokens? (tokens : List Token) : Option (List Group) := read [] [] tokens

end Group

end EntityQuery.Toml
