import EntityQuery.Toml.Group
import EntityQuery.Toml.Table

/-!
# Keys

A key is one name, or several with dots between them and blanks around the
dots. A name of letters, digits, underscores and hyphens needs no quotes, so a
word may hold several names at once.
-/

namespace EntityQuery.Toml

/-- A key that is being read: its names, latest first, and whether another
name must follow. -/
structure PartialKey where
  names : List String := []
  isOpen : Bool := true

namespace PartialKey

/-- Whether a name needs no quotes for a character. -/
def isBareChar (c : Char) : Bool := c.isAlphanum || c == '_' || c == '-'

/-- The key with one more name. -/
def addName (k : PartialKey) (name : List Char) : Option PartialKey :=
  if k.isOpen then some ⟨String.ofList name :: k.names, false⟩ else none

/-- The key with a dot after its names. -/
def addDot (k : PartialKey) : Option PartialKey :=
  if k.isOpen then none else some { k with isOpen := true }

/-- The key with one more name if the name is not empty. -/
def addBareName (k : PartialKey) (name : List Char) : Option PartialKey :=
  if name.isEmpty then some k
  else if name.all isBareChar then k.addName name
  else none

/-- The key with the names of a word, which has dots between them. -/
def addWord (k : PartialKey) (word : List Char) : Option PartialKey :=
  match Text.pieces '.' word with
  | [] => some k
  | first :: others => do
      others.foldlM (fun k name => do (← k.addDot).addBareName name) (← k.addBareName first)

/-- The key with what a leaf adds to it. -/
def addLeaf (k : PartialKey) : Leaf → Option PartialKey
  | .blank => some k
  | .word chars => k.addWord chars
  | .text content false => k.addName content
  | _ => none

/-- The place that the key names, if it is complete and does not have too many
names. -/
def path? (k : PartialKey) : Option Path :=
  match k.isOpen, k.names with
  | false, key :: outer =>
      if outer.length < nestingLimit then some ⟨outer.reverse, key⟩ else none
  | _, _ => none

/-- The place that the rest of a key leads to. -/
def read (k : PartialKey) : List Group → Option Path
  | [] => k.path?
  | .leaf l :: rest => do (← k.addLeaf l).read rest
  | .enclosed _ _ :: _ => none

end PartialKey

end EntityQuery.Toml
