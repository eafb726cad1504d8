import EntityQuery.Json.Printer
import EntityQuery.Shape.Basic

/-!
# Folding rows into models

The rows are read one by one. For each model under construction, and each
relationship that leads from it, there is a group of the models nested there,
listed in the order in which their keys were first seen. A row whose key is in
the group adds to that model; a row with a new key begins a model; a row
without a key adds nothing at that place, as an outer join without a match
should not.

A key is written down as the text of its values, so that models are told apart
by text alone.
-/

namespace EntityQuery

/-- A model under construction: its own properties, and one group for each
relationship, which lists models by the text of their key. -/
inductive Draft where
  | mk (document : Model) (groups : List (List (String × Draft)))

namespace Draft

/-- The properties of the model itself. -/
def document : Draft → Model
  | mk document _ => document

/-- The groups of nested models. -/
def groups : Draft → List (List (String × Draft))
  | mk _ groups => groups

/-- Change the model of a key in a group, or put a new one at its end. -/
def upsert (key : String) (fresh : Draft) (change : Draft → Draft) :
    List (String × Draft) → List (String × Draft)
  | [] => [(key, change fresh)]
  | (k, draft) :: rest =>
      if k = key then (k, change draft) :: rest
      else (k, draft) :: upsert key fresh change rest

end Draft

/-- The values of some columns, if each is there and not null. -/
def Row.key? (row : Row) : List String → Option (List Json)
  | [] => some []
  | column :: rest =>
      match row.get? column with
      | none | some .null => none
      | some value => (key? row rest).map (value :: ·)

/-- The text of a key, if each of its columns is there and not null. -/
def Row.keyText? (row : Row) (columns : List String) : Option String :=
  (Row.key? row columns).map fun values => (Json.arr values).text

/-- The value of a column in a row; an absent column is null. -/
def ShapeColumn.valueIn (column : ShapeColumn) (row : Row) : Json :=
  let value := (row.get? column.name).getD .null
  match column.onRetrieve with
  | some change => change value
  | none => value

namespace Shape

/-- The properties that a row gives to the model it begins. -/
def documentOf (columns : List ShapeColumn) (row : Row) : Model :=
  Dict.ofList (columns.map fun column => (column.property, column.valueIn row))

mutual

/-- Add a row to a group of models. -/
def absorb (row : Row) : Shape → List (String × Draft) → List (String × Draft)
  | node _ keys columns children, group =>
      match row.keyText? keys with
      | none => group
      | some key =>
          Draft.upsert key (.mk (documentOf columns row) [])
            (fun draft => .mk draft.document (absorbEach row children draft.groups)) group

/-- Add a row to the group of each relationship. -/
def absorbEach (row : Row) :
    List (Relationship × Shape) → List (List (String × Draft)) → List (List (String × Draft))
  | [], _ => []
  | (_, shape) :: rest, groups =>
      absorb row shape (groups.headD []) :: absorbEach row rest groups.tail

end

mutual

/-- The models of a group. -/
def models : Shape → List (String × Draft) → List Model
  | node _ _ _ children, group =>
      group.map fun (_, draft) => nest children draft.groups draft.document

/-- A model with the nested models of each relationship: all of them as a
list, or the first of them or null. -/
def nest : List (Relationship × Shape) → List (List (String × Draft)) → Model → Model
  | [], _, document => document
  | (relationship, shape) :: rest, groups, document =>
      let found := (models shape (groups.headD [])).map Model.toJson
      let value := if relationship.isCollection then .arr found else found.head?.getD .null
      nest rest groups.tail (document.insert relationship.property value)

end

/-- The models that rows make up, in the order in which their keys are first seen. -/
def fold (shape : Shape) (rows : List Row) : List Model :=
  shape.models (rows.foldl (fun group row => shape.absorb row group) [])

end Shape

end EntityQuery
