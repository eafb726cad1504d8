import EntityQuery.Proofs.Except
import EntityQuery.Proofs.Shape.Forest
import Mathlib.Data.List.Nodup

/-!
# The nodes of a shape

A shape and the shapes nested in it, at any depth, are its nodes. Whether a
shape may be built is a matter of its nodes: none of them uses a property twice
(`IsDistinct`). A column or a child is added exactly where that stays so.
-/

namespace EntityQuery

namespace Shape

mutual

/-- The shape and all shapes nested in it, each before those nested in it. -/
def nodes : Shape → List Shape
  | node table keys columns children => node table keys columns children :: nodesOfEach children

/-- The nodes of nested shapes. -/
def nodesOfEach : List (Relationship × Shape) → List Shape
  | [] => []
  | (_, shape) :: rest => nodes shape ++ nodesOfEach rest

end

/-- No node uses a property twice. -/
def IsDistinct (shape : Shape) : Prop := ∀ other ∈ shape.nodes, other.properties.Nodup

instance (shape : Shape) : Decidable shape.IsDistinct :=
  inferInstanceAs (Decidable (∀ other ∈ shape.nodes, _))

/-- The shape with further shapes nested in it. -/
def withChildren (shape : Shape) (more : List (Relationship × Shape)) : Shape :=
  node shape.table shape.keys shape.columns (shape.children ++ more)

variable {shape shape' child : Shape} {r : Relationship} {column : ShapeColumn}
  {more : List (Relationship × Shape)}

theorem mem_nodesOfEach {children : List (Relationship × Shape)} :
    shape ∈ nodesOfEach children ↔ ∃ child ∈ children, shape ∈ child.2.nodes := by
  induction children with
  | nil => simp [nodesOfEach]
  | cons child children ih => simp [nodesOfEach, ih]

theorem nodes_eq (shape : Shape) : shape.nodes = shape :: nodesOfEach shape.children := by
  cases shape
  rw [nodes, children]

theorem isDistinct_iff :
    shape.IsDistinct ↔ shape.properties.Nodup ∧ ∀ child ∈ shape.children, child.2.IsDistinct := by
  rw [IsDistinct, nodes_eq, List.forall_mem_cons]
  refine and_congr_right fun _ => ⟨fun h child hchild other hother => ?_, fun h other hother => ?_⟩
  · exact h other (mem_nodesOfEach.2 ⟨child, hchild, hother⟩)
  · obtain ⟨child, hchild, hmem⟩ := mem_nodesOfEach.1 hother
    exact h child hchild other hmem

mutual

/-- The row columns of a shape are those of its nodes. -/
theorem rowColumns_eq_nodes : (shape : Shape) →
    shape.rowColumns = shape.nodes.flatMap fun other => other.columns.map ShapeColumn.name
  | node _ _ _ children => by
      rw [rowColumns, nodes, List.flatMap_cons, rowColumnsOfEach_eq_nodes children, columns]

theorem rowColumnsOfEach_eq_nodes : (children : List (Relationship × Shape)) →
    rowColumnsOfEach children =
      (nodesOfEach children).flatMap fun other => other.columns.map ShapeColumn.name
  | [] => rfl
  | (_, shape) :: rest => by
      rw [rowColumnsOfEach, nodesOfEach, List.flatMap_append, rowColumns_eq_nodes shape,
        rowColumnsOfEach_eq_nodes rest]

end

/-! ### Nesting -/

theorem withChildren_nil (shape : Shape) : shape.withChildren [] = shape := by
  cases shape
  rw [withChildren, children, List.append_nil]
  rfl

theorem withChildren_withChildren (shape : Shape) (more others : List (Relationship × Shape)) :
    (shape.withChildren more).withChildren others = shape.withChildren (more ++ others) := by
  rw [withChildren, withChildren, withChildren, ← List.append_assoc]
  rfl

theorem properties_withChildren (shape : Shape) (more : List (Relationship × Shape)) :
    (shape.withChildren more).properties =
      shape.properties ++ more.map fun child => child.1.property := by
  rw [properties, withChildren, columns, children, List.map_append, ← List.append_assoc]
  rfl

theorem isDistinct_withChildren : (shape.withChildren more).IsDistinct ↔
    (shape.withChildren more).properties.Nodup ∧
      (∀ child ∈ shape.children, child.2.IsDistinct) ∧ ∀ child ∈ more, child.2.IsDistinct := by
  rw [isDistinct_iff, ← List.forall_mem_append]
  rfl

/-- A shape with fewer shapes nested in it uses fewer properties. -/
theorem IsDistinct.of_withChildren (h : (shape.withChildren more).IsDistinct) :
    shape.IsDistinct := by
  obtain ⟨hproperties, hchildren, -⟩ := isDistinct_withChildren.1 h
  rw [properties_withChildren] at hproperties
  exact isDistinct_iff.2 ⟨List.Nodup.of_append_left hproperties, hchildren⟩

/-- One more child fits where its property is free. -/
theorem isDistinct_withChildren_singleton (distinct : shape.IsDistinct) :
    (shape.withChildren [(r, child)]).IsDistinct ↔
      r.property ∉ shape.properties ∧ child.IsDistinct := by
  obtain ⟨hproperties, hchildren⟩ := isDistinct_iff.1 distinct
  rw [isDistinct_withChildren, properties_withChildren, List.map_singleton, List.nodup_append,
    List.forall_mem_singleton]
  constructor
  · rintro ⟨⟨-, -, hfresh⟩, -, hchild⟩
    exact ⟨fun hmem => hfresh _ hmem _ (List.mem_singleton.2 rfl) rfl, hchild⟩
  · rintro ⟨hfresh, hchild⟩
    refine ⟨⟨hproperties, List.nodup_singleton _, ?_⟩, hchildren, hchild⟩
    rintro property hmem other hother rfl
    exact hfresh (List.mem_singleton.1 hother ▸ hmem)

/-! ### Building -/

theorem claim_eq_ok {property : String} {outcome : Unit} :
    shape.claim property = .ok outcome ↔ property ∉ shape.properties := by
  unfold claim
  split <;> simp_all

theorem addColumn_eq_ok : shape.addColumn column = .ok shape' ↔
    column.property ∉ shape.properties ∧
      shape' = node shape.table shape.keys (shape.columns ++ [column]) shape.children := by
  refine bind_eq_ok.trans ⟨?_, ?_⟩
  · rintro ⟨_, hclaim, h⟩
    exact ⟨claim_eq_ok.1 hclaim, (pure_eq_ok.1 h).symm⟩
  · rintro ⟨hfresh, rfl⟩
    exact ⟨(), claim_eq_ok.2 hfresh, rfl⟩

theorem addChild_eq_ok : shape.addChild r child = .ok shape' ↔
    r.property ∉ shape.properties ∧ shape' = shape.withChildren [(r, child)] := by
  refine bind_eq_ok.trans ⟨?_, ?_⟩
  · rintro ⟨_, hclaim, h⟩
    exact ⟨claim_eq_ok.1 hclaim, (pure_eq_ok.1 h).symm⟩
  · rintro ⟨hfresh, rfl⟩
    exact ⟨(), claim_eq_ok.2 hfresh, rfl⟩

/-- The shapes that are built: from a table, by one column or one shape at a time. -/
inductive IsBuilt : Shape → Prop
  | ofTable (table : Table) (keys : List String) : IsBuilt (ofTable table keys)
  | addColumn {shape shape' : Shape} {column : ShapeColumn} (built : IsBuilt shape)
      (h : shape.addColumn column = .ok shape') : IsBuilt shape'
  | addChild {shape shape' child : Shape} {r : Relationship} (built : IsBuilt shape)
      (nested : IsBuilt child) (h : shape.addChild r child = .ok shape') : IsBuilt shape'

theorem IsBuilt.isDistinct (h : shape.IsBuilt) : shape.IsDistinct := by
  induction h with
  | ofTable table keys => exact isDistinct_iff.2 ⟨List.nodup_nil, fun child h => nomatch h⟩
  | @addColumn shape shape' column built h ih =>
      obtain ⟨hfresh, rfl⟩ := addColumn_eq_ok.1 h
      obtain ⟨hproperties, hchildren⟩ := isDistinct_iff.1 ih
      refine isDistinct_iff.2 ⟨?_, hchildren⟩
      have hperm : (node shape.table shape.keys (shape.columns ++ [column])
          shape.children).properties.Perm (column.property :: shape.properties) := by
        rw [properties, columns, children, List.map_append, List.append_assoc]
        exact List.perm_middle
      exact hperm.nodup_iff.2 (List.nodup_cons.2 ⟨hfresh, hproperties⟩)
  | addChild built nested h ih ihChild =>
      obtain ⟨hfresh, rfl⟩ := addChild_eq_ok.1 h
      exact (isDistinct_withChildren_singleton ih).2 ⟨hfresh, ihChild⟩

section

variable (table : Table) (keys : List String)

theorem isBuilt_node_nil {columns : List ShapeColumn}
    (distinct : (columns.map ShapeColumn.property).Nodup) :
    (node table keys columns []).IsBuilt := by
  induction columns using List.reverseRecOn with
  | nil => exact .ofTable table keys
  | append_singleton columns column ih =>
      rw [List.map_append, List.map_singleton, List.nodup_append] at distinct
      obtain ⟨hcolumns, -, hne⟩ := distinct
      refine .addColumn (ih hcolumns) (addColumn_eq_ok.2 ⟨fun hmem => ?_, rfl⟩)
      rw [properties, children, List.map_nil, List.append_nil] at hmem
      exact hne _ hmem _ List.mem_cons_self rfl

theorem isBuilt_node {columns : List ShapeColumn} {children : List (Relationship × Shape)}
    (distinct : (node table keys columns children).properties.Nodup)
    (nested : ∀ child ∈ children, child.2.IsBuilt) :
    (node table keys columns children).IsBuilt := by
  induction children using List.reverseRecOn with
  | nil =>
      rw [properties, Shape.children, List.map_nil, List.append_nil] at distinct
      exact isBuilt_node_nil table keys distinct
  | append_singleton children child ih =>
      obtain ⟨hchildren, hchild⟩ := List.forall_mem_append.1 nested
      have happend : (node table keys columns (children ++ [child])).properties =
          (node table keys columns children).properties ++ [child.1.property] :=
        properties_withChildren (node table keys columns children) [child]
      rw [happend, List.nodup_append] at distinct
      obtain ⟨hproperties, -, hne⟩ := distinct
      refine .addChild (ih hproperties hchildren) (hchild child List.mem_cons_self)
        (addChild_eq_ok.2 ⟨fun hmem => ?_, rfl⟩)
      exact hne _ hmem _ List.mem_cons_self rfl

end

/-- What can be built are the shapes whose nodes use no property twice. -/
theorem isBuilt_iff_isDistinct : shape.IsBuilt ↔ shape.IsDistinct := by
  refine ⟨IsBuilt.isDistinct, fun distinct => ?_⟩
  induction shape using inductionOn with
  | step table keys columns children ih =>
      obtain ⟨hproperties, hchildren⟩ := isDistinct_iff.1 distinct
      exact isBuilt_node table keys hproperties fun child hchild =>
        ih child hchild (hchildren child hchild)

end Shape

end EntityQuery
