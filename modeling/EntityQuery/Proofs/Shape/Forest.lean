import EntityQuery.Proofs.Shape.Grouping

/-!
# Forests of models and their rows

A forest is flattened as a join does it: each model stands in one row for every
combination of rows that its relationships contribute, and a relationship
without models contributes one row of nulls. What a shape asks of its models is
decidable, so that a given forest can be checked.
-/

namespace EntityQuery

/-- The model that a value is, if it is an object. -/
def Model.ofObject? : Json → Option Model
  | .obj members => some (Dict.ofList members)
  | _ => none

/-- The models that a model holds under a relationship. -/
def Relationship.modelsIn (relationship : Relationship) (model : Model) : List Model :=
  match model.get? relationship.property with
  | some (.arr items) => items.filterMap Model.ofObject?
  | some value => (Model.ofObject? value).toList
  | none => []

/-- The columns of two rows in one. -/
def Row.merge (row other : Row) : Row := row.insertAll other.entries

/-- A row of nulls. -/
def Row.nulls (columns : List String) : Row :=
  Dict.ofList (columns.map fun column => (column, .null))

namespace Shape

mutual

/-- The row columns of a shape and of all shapes nested in it. -/
def rowColumns : Shape → List String
  | node _ _ columns children => columns.map ShapeColumn.name ++ rowColumnsOfEach children

/-- The row columns of nested shapes. -/
def rowColumnsOfEach : List (Relationship × Shape) → List String
  | [] => []
  | (_, shape) :: rest => rowColumns shape ++ rowColumnsOfEach rest

end

/-- The column values of a model itself. -/
def ownRow (columns : List ShapeColumn) (model : Model) : Row :=
  Dict.ofList (columns.map fun column => (column.name, model.valueOf column.property))

/-- The values that identify a model among its siblings. -/
def keyOf : Shape → Model → List Json
  | node _ keys columns _, model => (ownRow columns model).keyValues keys

mutual

/-- The rows of a model: its own values with every combination of rows from its relationships. -/
def rowsOf : Shape → Model → List Row
  | node _ _ columns children, model =>
      (combinations children model).map (ownRow columns model).merge

/-- The combinations of one row from each relationship, those of the first
changing slowest. A relationship without models gives one row of nulls. -/
def combinations : List (Relationship × Shape) → Model → List Row
  | [], _ => [∅]
  | (relationship, shape) :: rest, model =>
      let rows := match relationship.modelsIn model with
        | [] => [Row.nulls shape.rowColumns]
        | models => models.flatMap (rowsOf shape)
      rows.flatMap fun row => (combinations rest model).map row.merge

end

/-- Every shape has a key among its own columns, and values are kept as they are. -/
inductive IsPlain : Shape → Prop
  | node {table keys columns children} (hasKey : keys ≠ [])
      (ownKey : ∀ key ∈ keys, key ∈ columns.map ShapeColumn.name)
      (unchanged : ∀ column ∈ columns, column.onRetrieve = none)
      (nested : ∀ child ∈ children, IsPlain child.2) :
      IsPlain (node table keys columns children)

/-- A model has the properties of a shape and no others. It has a value for
each column, which is not null in the key. Each relationship holds models of
the nested shape with different keys, and at most one unless it is a
collection. -/
inductive IsShaped : Shape → Model → Prop
  | node {table keys columns children model}
      (noOther : ∀ property ∈ model.keys,
        property ∈ columns.map ShapeColumn.property ++ children.map fun child => child.1.property)
      (hasValue : ∀ column ∈ columns, model.contains column.property = true)
      (spelled : ∀ column ∈ columns, (model.valueOf column.property).isWellSpelled = true)
      (hasKey : ∀ column ∈ columns, column.name ∈ keys → model.valueOf column.property ≠ .null)
      (hasModels : ∀ child ∈ children,
        model.get? child.1.property = some (child.1.valueOf (child.1.modelsIn model)))
      (atMostOne : ∀ child ∈ children,
        child.1.isCollection = true ∨ (child.1.modelsIn model).length ≤ 1)
      (nested : ∀ child ∈ children, ∀ other ∈ child.1.modelsIn model, IsShaped child.2 other)
      (distinct : ∀ child ∈ children, ((child.1.modelsIn model).map (keyOf child.2)).Nodup) :
      IsShaped (node table keys columns children) model

/-- Models of a shape with different keys. -/
structure IsForest (shape : Shape) (models : List Model) : Prop where
  shaped : ∀ model ∈ models, IsShaped shape model
  distinct : (models.map shape.keyOf).Nodup

/-! ### Deciding -/

theorem isPlain_node_iff {table : Table} {keys : List String} {columns : List ShapeColumn}
    {children : List (Relationship × Shape)} :
    (node table keys columns children).IsPlain ↔
      (keys ≠ [] ∧ (∀ key ∈ keys, key ∈ columns.map ShapeColumn.name) ∧
        ∀ column ∈ columns, column.onRetrieve = none) ∧ ∀ child ∈ children, child.2.IsPlain := by
  constructor
  · rintro (⟨hasKey, ownKey, unchanged, nested⟩)
    exact ⟨⟨hasKey, ownKey, unchanged⟩, nested⟩
  · rintro ⟨⟨hasKey, ownKey, unchanged⟩, nested⟩
    exact .node hasKey ownKey unchanged nested

mutual

def decidableIsPlain : (shape : Shape) → Decidable shape.IsPlain
  | node _ _ _ children =>
      have := decidableIsPlainOfEach children
      decidable_of_iff _ isPlain_node_iff.symm

def decidableIsPlainOfEach : (children : List (Relationship × Shape)) →
    Decidable (∀ child ∈ children, child.2.IsPlain)
  | [] => isTrue fun _ h => absurd h List.not_mem_nil
  | (_, shape) :: rest =>
      have := decidableIsPlain shape
      have := decidableIsPlainOfEach rest
      decidable_of_iff _ List.forall_mem_cons.symm

end

instance (shape : Shape) : Decidable shape.IsPlain := decidableIsPlain shape

theorem isShaped_node_iff {table : Table} {keys : List String} {columns : List ShapeColumn}
    {children : List (Relationship × Shape)} {model : Model} :
    (node table keys columns children).IsShaped model ↔
      ((∀ property ∈ model.keys, property ∈
          columns.map ShapeColumn.property ++ children.map fun child => child.1.property) ∧
        (∀ column ∈ columns, model.contains column.property = true) ∧
        (∀ column ∈ columns, (model.valueOf column.property).isWellSpelled = true) ∧
        (∀ column ∈ columns, column.name ∈ keys → model.valueOf column.property ≠ .null) ∧
        (∀ child ∈ children,
          model.get? child.1.property = some (child.1.valueOf (child.1.modelsIn model))) ∧
        (∀ child ∈ children,
          child.1.isCollection = true ∨ (child.1.modelsIn model).length ≤ 1) ∧
        (∀ child ∈ children, ((child.1.modelsIn model).map (keyOf child.2)).Nodup)) ∧
      ∀ child ∈ children, ∀ other ∈ child.1.modelsIn model, IsShaped child.2 other := by
  constructor
  · rintro (⟨noOther, hasValue, spelled, hasKey, hasModels, atMostOne, nested, distinct⟩)
    exact ⟨⟨noOther, hasValue, spelled, hasKey, hasModels, atMostOne, distinct⟩, nested⟩
  · rintro ⟨⟨noOther, hasValue, spelled, hasKey, hasModels, atMostOne, distinct⟩, nested⟩
    exact .node noOther hasValue spelled hasKey hasModels atMostOne nested distinct

mutual

def decidableIsShaped : (shape : Shape) → (model : Model) → Decidable (shape.IsShaped model)
  | node _ _ _ children, model =>
      have := decidableNested children model
      decidable_of_iff _ isShaped_node_iff.symm

def decidableNested : (children : List (Relationship × Shape)) → (model : Model) →
    Decidable (∀ child ∈ children, ∀ other ∈ child.1.modelsIn model, child.2.IsShaped other)
  | [], _ => isTrue fun _ h => absurd h List.not_mem_nil
  | (_, shape) :: rest, model =>
      have := decidableIsShaped shape
      have := decidableNested rest model
      decidable_of_iff _ List.forall_mem_cons.symm

end

instance (shape : Shape) (model : Model) : Decidable (shape.IsShaped model) :=
  decidableIsShaped shape model

instance (shape : Shape) (models : List Model) : Decidable (shape.IsForest models) :=
  decidable_of_iff ((∀ model ∈ models, shape.IsShaped model) ∧ (models.map shape.keyOf).Nodup)
    ⟨fun h => ⟨h.1, h.2⟩, fun h => ⟨h.shaped, h.distinct⟩⟩

end Shape

end EntityQuery
