import EntityQuery.Toml.Key

/-!
# Documents

A document is read line by line. A line gives a value to a key, or it is the
header of a table, to which the lines up to the next header belong. Brackets
have been matched before, so a line does not end inside an array or an inline
table.
-/

namespace EntityQuery.Toml

/-- The value of a word. -/
def Value.ofWord? (chars : List Char) : Option Value :=
  if chars = ['t', 'r', 'u', 'e'] then some (.boolean true)
  else if chars = ['f', 'a', 'l', 's', 'e'] then some (.boolean false)
  else if Moment.isMoment chars then some (.moment (String.ofList chars))
  else (Number.ofChars? chars).map .number

/-- A place inside an inline table. -/
inductive InlinePlace where
  /-- At the start or after a comma, where a key may follow. -/
  | ready
  /-- In a key. -/
  | key (k : PartialKey)
  /-- On a line after the key, where the equals sign must follow. -/
  | equals (path : Path)
  /-- After the equals sign of a key. -/
  | value (path : Path)
  /-- After a value. -/
  | after

mutual

/-- The value of a group. -/
def Value.ofGroup? : Group → Option Value
  | .leaf (.word chars) => Value.ofWord? chars
  | .leaf (.text content _) => some (.string (String.ofList content))
  | .leaf _ => none
  | .enclosed .square items => (Value.items? true items).map .array
  | .enclosed .curly items => do
      let members ← Members.assignAll (← Value.assignments? .ready items) []
      return .table (Node.memberValues members)

/-- The items of an array from a place on where there may be a value, or where
one must be followed by a comma. A comma may follow the last one too. -/
def Value.items? (isReady : Bool) : List Group → Option (List Value)
  | [] => some []
  | .leaf .blank :: rest | .leaf .newline :: rest => Value.items? isReady rest
  | .leaf .comma :: rest => if isReady then none else Value.items? true rest
  | item :: rest =>
      if isReady then do
        let v ← Value.ofGroup? item
        let others ← Value.items? false rest
        return v :: others
      else none

/-- The keys and values of an inline table from a place on. It may run over
several lines, of which none ends within a key. A comma may follow the last
value too. -/
def Value.assignments? : InlinePlace → List Group → Option (List (Path × Value))
  | .ready, [] | .after, [] => some []
  | .key _, [] | .equals _, [] | .value _, [] => none
  | place, .leaf .blank :: rest => Value.assignments? place rest
  | .key k, .leaf .newline :: rest => do Value.assignments? (.equals (← k.path?)) rest
  | place, .leaf .newline :: rest => Value.assignments? place rest
  | .ready, .leaf l :: rest => do Value.assignments? (.key (← PartialKey.addLeaf {} l)) rest
  | .key k, .leaf .equals :: rest => do Value.assignments? (.value (← k.path?)) rest
  | .key k, .leaf l :: rest => do Value.assignments? (.key (← k.addLeaf l)) rest
  | .equals path, .leaf .equals :: rest => Value.assignments? (.value path) rest
  | .value path, item :: rest => do
      let v ← Value.ofGroup? item
      let others ← Value.assignments? .after rest
      return (path, v) :: others
  | .after, .leaf .comma :: rest => Value.assignments? .ready rest
  | _, _ => none

end

/-- What a line says. -/
inductive Line where
  | empty
  /-- A header, and whether it may be repeated. -/
  | header (isRepeated : Bool) (path : Path)
  | assignment (path : Path) (value : Value)

namespace Line

/-- Whether a group is a blank. -/
def isBlank : Group → Bool
  | .leaf .blank => true
  | _ => false

/-- The header that brackets enclose. -/
def headerOf? : List Group → Option Line
  | [.enclosed .square items] => do return header true (← PartialKey.read {} items)
  | items => do return header false (← PartialKey.read {} items)

/-- The value after an equals sign. -/
def valueOf? (groups : List Group) : Option Value :=
  match groups.filter (!isBlank ·) with
  | [group] => Value.ofGroup? group
  | _ => none

/-- The assignment whose key has been read up to some place. -/
def assignmentOf? (k : PartialKey) : List Group → Option Line
  | .leaf .equals :: rest => do return assignment (← k.path?) (← valueOf? rest)
  | .leaf l :: rest => do assignmentOf? (← k.addLeaf l) rest
  | _ => none

/-- What the groups of a line say. -/
def ofGroups? (groups : List Group) : Option Line :=
  match groups.dropWhile isBlank with
  | [] => some empty
  | .enclosed .square items :: rest => if rest.all isBlank then headerOf? items else none
  | groups => assignmentOf? {} groups

/-- The groups of each line. -/
def split : List Group → List (List Group)
  | [] => [[]]
  | .leaf .newline :: rest => [] :: split rest
  | group :: rest =>
      match split rest with
      | [] => [[group]]
      | line :: lines => (group :: line) :: lines

end Line

/-- A header and the values that belong to it. -/
structure Section where
  isRepeated : Bool
  path : Path
  assignments : List (Path × Value)

namespace Section

/-- The values before the first header, and the sections. -/
def ofLines : List Line → List (Path × Value) × List Section
  | [] => ([], [])
  | .empty :: rest => ofLines rest
  | .assignment path v :: rest =>
      let (assignments, sections) := ofLines rest
      ((path, v) :: assignments, sections)
  | .header isRepeated path :: rest =>
      let (assignments, sections) := ofLines rest
      ([], ⟨isRepeated, path, assignments⟩ :: sections)

/-- Add a section to a document. -/
def addTo (s : Section) (document : Members) : Option Members :=
  let fill := Members.assignAll s.assignments
  let change := if s.isRepeated then Members.appendTable s.path.key fill
    else Members.openTable s.path.key fill
  document.within change s.path.outer

end Section

/-- A byte order mark at the start is no part of a document. -/
def dropByteOrderMark : List Char → List Char
  | '\ufeff' :: rest => rest
  | chars => chars

/-- The members of a document, if it is well formed. -/
def parse? (source : String) : Option (List (String × Value)) := do
  let tokens ← Token.ofChars? (dropByteOrderMark source.toList)
  let groups ← Group.ofTokens? tokens
  let lines ← (Line.split groups).mapM Line.ofGroups?
  let (assignments, sections) := Section.ofLines lines
  let document ← Members.assignAll assignments []
  let document ← sections.foldlM (fun document s => s.addTo document) document
  return Node.memberValues document

end EntityQuery.Toml
