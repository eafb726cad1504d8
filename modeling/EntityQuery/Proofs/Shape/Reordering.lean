import EntityQuery.Proofs.Shape.Flattening
import EntityQuery.Proofs.Shape.Nodes
import Mathlib.Data.Multiset.MapFold

/-!
# The order of rows

A fold depends on the order of its rows: the first row of a model gives the flat
properties, and a relationship that is not a collection holds the first model that
is found. Where keys determine both, reordered rows make up the same models, with
the lists of models in another order at every depth (`fold_perm`).

The rows of one model agree on the keys of all nodes above it, so what is asked
of all rows at a nested node is asked of the rows of the model at the nested shape
(`IsKeyDetermined.nested`). That carries the induction over the shape.
-/

namespace EntityQuery

/-- Rows have a key, and it is the same one. -/
def Row.SameKey (keys : List String) (row other : Row) : Prop :=
  row.isKeyed keys = true ∧ row.keyValues keys = other.keyValues keys

instance (keys : List String) (row other : Row) : Decidable (row.SameKey keys other) :=
  inferInstanceAs (Decidable (_ ∧ _))

theorem Row.sameKey_append {keys more : List String} {row other : Row}
    (h : row.SameKey keys other) (hmore : row.SameKey more other) :
    row.SameKey (keys ++ more) other := by
  constructor
  · rw [isKeyed, List.all_append, Bool.and_eq_true]
    exact ⟨h.1, hmore.1⟩
  · rw [keyValues, keyValues, List.map_append, List.map_append]
    exact congrArg₂ _ h.2 hmore.2

section Group

variable {keys : List String} {key : List Json} {rows : List Row} {row other : Row}

/-- The rows with a given key. -/
theorem Row.mem_group_iff :
    row ∈ (rows.filter (Row.isKeyed · keys)).filter (fun row => row.keyValues keys = key) ↔
      row ∈ rows ∧ row.isKeyed keys = true ∧ row.keyValues keys = key := by
  rw [List.mem_filter, List.mem_filter, decide_eq_true_eq, and_assoc]

theorem Row.sameKey_of_mem_group
    (h : row ∈ (rows.filter (Row.isKeyed · keys)).filter fun row => row.keyValues keys = key)
    (hother : other ∈
      (rows.filter (Row.isKeyed · keys)).filter fun row => row.keyValues keys = key) :
    row.SameKey keys other := by
  obtain ⟨-, hkeyed, hkey⟩ := mem_group_iff.1 h
  obtain ⟨-, -, hkey'⟩ := mem_group_iff.1 hother
  exact ⟨hkeyed, hkey.trans hkey'.symm⟩

theorem Row.group_ne_nil
    (h : key ∈ ((rows.filter (Row.isKeyed · keys)).map (Row.keyValues · keys)).eraseDups) :
    ((rows.filter (Row.isKeyed · keys)).filter fun row => row.keyValues keys = key) ≠ [] := by
  obtain ⟨row, hrow, hvalues⟩ := List.mem_map.1 (List.mem_eraseDups.1 h)
  exact List.ne_nil_of_mem (List.mem_filter.2 ⟨hrow, decide_eq_true hvalues⟩)

end Group

/-- Values of a relationship's property that hold related models: lists of them in any
order, or one of them each, or none. -/
inductive Relationship.Relates (r : Relationship) (R : Model → Model → Prop) : Json → Json → Prop
  | many {models others : List Model} (collection : r.isCollection = true)
      (related : Multiset.Rel R ↑models ↑others) :
      Relates r R (.arr (models.map Model.toJson)) (.arr (others.map Model.toJson))
  | one {model other : Model} (single : r.isCollection = false) (related : R model other) :
      Relates r R model.toJson other.toJson
  | none (single : r.isCollection = false) : Relates r R .null .null

/-- Related models are related values, where at most one is found if one is asked for. -/
theorem Relationship.relates_valueOf {r : Relationship} {R : Model → Model → Prop}
    {models others : List Model} (related : Multiset.Rel R ↑models ↑others)
    (atMostOne : r.isCollection = false → models.length ≤ 1) :
    r.Relates R (r.valueOf models) (r.valueOf others) := by
  cases hmany : r.isCollection with
  | true =>
      rw [valueOf_of_collection hmany, valueOf_of_collection hmany]
      exact .many hmany related
  | false =>
      rw [valueOf_of_single hmany, valueOf_of_single hmany]
      have hlength : models.length = others.length := Multiset.card_eq_card_of_rel related
      obtain hnone | hone := Nat.le_one_iff_eq_zero_or_eq_one.1 (atMostOne hmany)
      · obtain rfl := List.eq_nil_of_length_eq_zero hnone
        obtain rfl := List.eq_nil_of_length_eq_zero (hlength.symm.trans hnone)
        exact .none hmany
      · obtain ⟨model, rfl⟩ := List.length_eq_one_iff.1 hone
        obtain ⟨other, rfl⟩ := List.length_eq_one_iff.1 (hlength.symm.trans hone)
        rw [← Multiset.cons_coe] at related
        obtain ⟨found, rest, hfound, hrest, heq⟩ := Multiset.rel_cons_left.1 related
        rw [Multiset.coe_nil, Multiset.rel_zero_left] at hrest
        obtain rfl := Multiset.singleton_inj.1 (hrest ▸ heq)
        exact .one hmany hfound

namespace Shape

mutual

/-- Models of a shape that are the same up to the order of the lists of models in them. -/
def Alike : Shape → Model → Model → Prop
  | node _ _ _ children, model, other =>
      (∀ property ∉ children.map fun child => child.1.property,
        model.get? property = other.get? property) ∧ AlikeEach children model other

/-- Under each relationship, models of the nested shape that are alike. -/
def AlikeEach : List (Relationship × Shape) → Model → Model → Prop
  | [], _, _ => True
  | (relationship, shape) :: rest, model, other =>
      (∃ value ∈ model.get? relationship.property, ∃ value' ∈ other.get? relationship.property,
        relationship.Relates (Alike shape) value value') ∧ AlikeEach rest model other

end

mutual

/-- The nodes of a shape, each with the key columns of all nodes from the shape down to it. -/
def keyedNodes : Shape → List (List String × Shape)
  | node table keys columns children =>
      (keys, node table keys columns children) ::
        (keyedNodesOfEach children).map fun entry => (keys ++ entry.1, entry.2)

/-- The nodes of nested shapes with their key columns. -/
def keyedNodesOfEach : List (Relationship × Shape) → List (List String × Shape)
  | [] => []
  | (_, shape) :: rest => keyedNodes shape ++ keyedNodesOfEach rest

end

/-- Rows that agree on the keys of a node and of all nodes above it agree on its columns,
and on the key of the model that a relationship holds, unless it is a collection. -/
structure IsKeyDetermined (shape : Shape) (rows : List Row) : Prop where
  columns : ∀ entry ∈ shape.keyedNodes, ∀ row ∈ rows, ∀ other ∈ rows,
    row.SameKey entry.1 other →
      ∀ column ∈ entry.2.columns, row.valueOf column.name = other.valueOf column.name
  single : ∀ entry ∈ shape.keyedNodes, ∀ child ∈ entry.2.children, child.1.isCollection = false →
    ∀ row ∈ rows, ∀ other ∈ rows, row.SameKey entry.1 other →
      row.isKeyed child.2.keys = true → other.isKeyed child.2.keys = true →
        row.keyValues child.2.keys = other.keyValues child.2.keys

instance (shape : Shape) (rows : List Row) : Decidable (shape.IsKeyDetermined rows) :=
  decidable_of_iff (_ ∧ _) ⟨fun h => IsKeyDetermined.mk h.1 h.2, fun h => ⟨h.columns, h.single⟩⟩

section Node

variable {table : Table} {keys : List String} {columns : List ShapeColumn}
  {children : List (Relationship × Shape)} {rows others : List Row}

theorem alikeEach_iff {model other : Model} :
    AlikeEach children model other ↔ ∀ child ∈ children,
      ∃ value ∈ model.get? child.1.property, ∃ value' ∈ other.get? child.1.property,
        child.1.Relates child.2.Alike value value' := by
  induction children with
  | nil => simp [AlikeEach]
  | cons child children ih => rw [AlikeEach, ih, List.forall_mem_cons]

theorem mem_keyedNodesOfEach {entry : List String × Shape} :
    entry ∈ keyedNodesOfEach children ↔ ∃ child ∈ children, entry ∈ child.2.keyedNodes := by
  induction children with
  | nil => simp [keyedNodesOfEach]
  | cons child children ih => simp [keyedNodesOfEach, ih]

theorem mem_keyedNodes_of_child {child : Relationship × Shape} (hchild : child ∈ children)
    {entry : List String × Shape} (h : entry ∈ child.2.keyedNodes) :
    (keys ++ entry.1, entry.2) ∈ (node table keys columns children).keyedNodes := by
  rw [keyedNodes]
  refine List.mem_cons_of_mem _ (List.mem_map.2 ⟨entry, ?_, rfl⟩)
  exact mem_keyedNodesOfEach.2 ⟨child, hchild, h⟩

theorem IsKeyDetermined.of_subset {shape : Shape} (h : shape.IsKeyDetermined rows)
    (sub : ∀ row ∈ others, row ∈ rows) : shape.IsKeyDetermined others where
  columns entry hentry row hrow other hother :=
    h.columns entry hentry row (sub row hrow) other (sub other hother)
  single entry hentry child hchild hsingle row hrow other hother :=
    h.single entry hentry child hchild hsingle row (sub row hrow) other (sub other hother)

/-- What keys determine of a shape they determine of the shapes nested in it, among rows
with the same key. -/
theorem IsKeyDetermined.nested (h : (node table keys columns children).IsKeyDetermined rows)
    (same : ∀ row ∈ rows, ∀ other ∈ rows, row.SameKey keys other)
    {child : Relationship × Shape} (hchild : child ∈ children) :
    child.2.IsKeyDetermined rows := by
  constructor
  case columns =>
      intro entry hentry row hrow other hother hkey
      exact h.columns _ (mem_keyedNodes_of_child hchild hentry) row hrow other hother
        (Row.sameKey_append (same row hrow other hother) hkey)
  case single =>
      intro entry hentry nested hnested hsingle row hrow other hother hkey
      exact h.single _ (mem_keyedNodes_of_child hchild hentry) nested hnested hsingle row hrow
        other hother (Row.sameKey_append (same row hrow other hother) hkey)

/-- Where all rows with a key have the same, they make up at most one model. -/
theorem length_fold_le_one (shape : Shape) (spelled : ∀ row ∈ rows, row.isWellSpelled = true)
    (same : ∀ row ∈ rows, ∀ other ∈ rows, row.isKeyed shape.keys = true →
      other.isKeyed shape.keys = true → row.keyValues shape.keys = other.keyValues shape.keys) :
    (shape.fold rows).length ≤ 1 := by
  obtain ⟨table, keys, columns, children⟩ := shape
  rw [fold_node_eq_map_keyValues table keys columns children spelled, List.length_map]
  apply length_eraseDups_le_one
  intro key hkey key' hkey'
  obtain ⟨row, hrow, rfl⟩ := List.mem_map.1 hkey
  obtain ⟨other, hother, rfl⟩ := List.mem_map.1 hkey'
  obtain ⟨hrow, hkeyed⟩ := List.mem_filter.1 hrow
  obtain ⟨hother, hkeyed'⟩ := List.mem_filter.1 hother
  exact same row hrow other hother hkeyed hkeyed'

/-- The properties of a model where no property is used twice: those of its relationships
are related models, the others are flat. -/
theorem get?_modelOf_of_child (distinct : (node table keys columns children).properties.Nodup)
    {child : Relationship × Shape} (hchild : child ∈ children) :
    (modelOf columns children rows).get? child.1.property =
      some (child.1.valueOf (child.2.fold rows)) := by
  have hproperties : (children.map fun child => child.1.property).Nodup :=
    List.Nodup.of_append_right distinct
  rw [modelOf, Dict.get?_insertAll, Dict.lookup_reverse, Dict.lookup_of_mem, Option.some_or]
  · rw [List.map_map]
    exact hproperties
  · exact List.mem_map.2 ⟨child, hchild, rfl⟩
  · rw [List.map_map]
    exact hproperties

theorem get?_modelOf_of_notMem {property : String}
    (h : property ∉ children.map fun child => child.1.property) :
    (modelOf columns children rows).get? property =
      (documentOf columns (rows.headD ∅)).get? property := by
  have hnone : Dict.lookup property (children.map fun child =>
      (child.1.property, child.1.valueOf (child.2.fold rows))).reverse = none := by
    rw [Dict.lookup_eq_none_iff, List.map_reverse, List.mem_reverse, List.map_map]
    exact h
  rw [modelOf, Dict.get?_insertAll, hnone, Option.none_or]

/-- The rows of one model in any order make up alike models, if that holds of the models
nested in it. -/
theorem alike_modelOf (distinct : (node table keys columns children).IsDistinct)
    (spelled : ∀ row ∈ rows, row.isWellSpelled = true)
    (determined : (node table keys columns children).IsKeyDetermined rows)
    (same : ∀ row ∈ rows, ∀ other ∈ rows, row.SameKey keys other) (ne : rows ≠ [])
    (h : rows.Perm others)
    (ih : ∀ child ∈ children, Multiset.Rel child.2.Alike ↑(child.2.fold rows)
      ↑(child.2.fold others)) :
    (node table keys columns children).Alike (modelOf columns children rows)
      (modelOf columns children others) := by
  have hself : (keys, node table keys columns children) ∈
      (node table keys columns children).keyedNodes := by
    rw [keyedNodes]
    exact List.mem_cons_self
  have hproperties := (isDistinct_iff.1 distinct).1
  rw [Alike, alikeEach_iff]
  constructor
  · -- flat properties are those of the first rows, which have the same key
    intro property hproperty
    have hne : others ≠ [] := fun hnil => ne (List.perm_nil.1 (hnil ▸ h))
    obtain ⟨first, rest, hrows⟩ := List.exists_cons_of_ne_nil ne
    obtain ⟨first', rest', hothers⟩ := List.exists_cons_of_ne_nil hne
    have hfirst : first ∈ rows := hrows ▸ List.mem_cons_self
    have hfirst' : first' ∈ rows := h.mem_iff.2 (hothers ▸ List.mem_cons_self)
    rw [get?_modelOf_of_notMem hproperty, get?_modelOf_of_notMem hproperty, hrows, hothers,
      List.headD_cons, List.headD_cons]
    refine congrArg (Dict.get? · property) (documentOf_congr ?_)
    exact determined.columns _ hself first hfirst first' hfirst' (same _ hfirst _ hfirst')
  · intro child hchild
    refine ⟨_, get?_modelOf_of_child hproperties hchild, _,
      get?_modelOf_of_child hproperties hchild, ?_⟩
    refine Relationship.relates_valueOf (ih child hchild) fun hsingle => ?_
    refine length_fold_le_one child.2 spelled fun row hrow other hother => ?_
    exact determined.single _ hself child hchild hsingle row hrow other hother
      (same row hrow other hother)

end Node

theorem fold_perm_of_isDistinct (shape : Shape) (distinct : shape.IsDistinct)
    {rows others : List Row} (spelled : ∀ row ∈ rows, row.isWellSpelled = true)
    (determined : shape.IsKeyDetermined rows) (h : rows.Perm others) :
    Multiset.Rel shape.Alike ↑(shape.fold rows) ↑(shape.fold others) := by
  induction shape using inductionOn generalizing rows others with
  | step table keys columns children ih =>
      have spelled' : ∀ row ∈ others, row.isWellSpelled = true :=
        fun row hrow => spelled row (h.mem_iff.2 hrow)
      -- both lists have the same keys, so it remains to compare the rows of one key
      have hkeyed := h.filter (Row.isKeyed · keys)
      have hkeys := Multiset.coe_eq_coe.2 (perm_eraseDups (hkeyed.map (Row.keyValues · keys)))
      rw [fold_node_eq_map_keyValues table keys columns children spelled,
        fold_node_eq_map_keyValues table keys columns children spelled', ← Multiset.map_coe,
        ← Multiset.map_coe, ← hkeys, Multiset.rel_map]
      refine Multiset.rel_refl_of_refl_on fun key hkey => ?_
      have hgroup := hkeyed.filter fun row => row.keyValues keys = key
      generalize hown : (rows.filter (Row.isKeyed · keys)).filter
        (fun row => row.keyValues keys = key) = group at hgroup
      have hsub : ∀ row ∈ group, row ∈ rows :=
        fun row hrow => (Row.mem_group_iff.1 (hown ▸ hrow)).1
      have hsame : ∀ row ∈ group, ∀ other ∈ group, row.SameKey keys other :=
        fun row hrow other hother => Row.sameKey_of_mem_group (hown ▸ hrow) (hown ▸ hother)
      have hne : group ≠ [] := hown ▸ Row.group_ne_nil hkey
      have hspelled : ∀ row ∈ group, row.isWellSpelled = true :=
        fun row hrow => spelled row (hsub row hrow)
      have hdetermined := determined.of_subset hsub
      refine alike_modelOf distinct hspelled hdetermined hsame hne hgroup fun child hchild => ?_
      exact ih child hchild ((isDistinct_iff.1 distinct).2 child hchild) hspelled
        (hdetermined.nested hsame hchild) hgroup

/-- Where keys determine what models take from the first of their rows, the order of the
rows does not matter: they make up the same models up to the order of the lists of models,
at the top and under each collection. -/
theorem fold_perm {shape : Shape} (built : shape.IsBuilt) {rows others : List Row}
    (spelled : ∀ row ∈ rows, row.isWellSpelled = true) (determined : shape.IsKeyDetermined rows)
    (h : rows.Perm others) :
    Multiset.Rel shape.Alike ↑(shape.fold rows) ↑(shape.fold others) :=
  fold_perm_of_isDistinct shape built.isDistinct spelled determined h

/-- Rows of two users, of whom one has two phones and a boss. -/
def bossRows : List Row :=
  [Dict.ofList [("u.id", .num "1"), ("u.on", .num "1"), ("p.id", .str "a"), ("p.no", .str "1"),
      ("b.id", .num "2")],
    Dict.ofList [("u.id", .num "2"), ("u.on", .num "0"), ("p.id", .null), ("b.id", .null)],
    Dict.ofList [("u.id", .num "1"), ("u.on", .num "1"), ("p.id", .str "a"), ("p.no", .str "2"),
      ("b.id", .null)]]

theorem fold_perm_bossRows :
    userShape.IsBuilt ∧ (∀ row ∈ bossRows, row.isWellSpelled = true) ∧
      userShape.IsKeyDetermined bossRows ∧ bossRows.Perm bossRows.reverse ∧
      userShape.fold bossRows ≠ userShape.fold bossRows.reverse ∧
      Multiset.Rel userShape.Alike ↑(userShape.fold bossRows)
        ↑(userShape.fold bossRows.reverse) := by
  have built : userShape.IsBuilt := isBuilt_iff_isDistinct.2 (by decide)
  have spelled : ∀ row ∈ bossRows, row.isWellSpelled = true := by decide
  have determined : userShape.IsKeyDetermined bossRows := by decide +kernel
  have hperm : bossRows.Perm bossRows.reverse := (List.reverse_perm bossRows).symm
  exact ⟨built, spelled, determined, hperm, by decide +kernel,
    fold_perm built spelled determined hperm⟩

end Shape

end EntityQuery
