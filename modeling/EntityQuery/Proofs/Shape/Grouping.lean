import EntityQuery.Proofs.Dict
import EntityQuery.Proofs.FirstOccurrence
import EntityQuery.Proofs.Json.Injectivity
import EntityQuery.Shape.Fold

/-!
# Folding is grouping

`Shape.fold` reads the rows one by one and changes a tree of drafts. What comes
out can be said without drafts: the rows with a key are grouped by it, in the
order in which the keys first occur, and each group makes up one model, whose
nested models the same rows make up under the nested shapes (`Shape.grouped`).

The drafts after any rows are given by those rows: a group lists the texts of
their keys in order of first occurrence, each with the draft of its own rows
(`foldl_absorb`). From this the fold satisfies one equation at each shape
(`fold_node`), which the induction over the shape repeats at every depth.
-/

namespace EntityQuery

/-- The value of a key; an absent key counts as null. -/
def Dict.valueOf (d : Dict Json) (key : String) : Json := (d.get? key).getD .null

/-- Whether every key column is there and not null. -/
def Row.isKeyed (row : Row) (keys : List String) : Bool :=
  keys.all fun column => row.valueOf column != .null

/-- The values of the key columns. -/
def Row.keyValues (row : Row) (keys : List String) : List Json := keys.map row.valueOf

/-- Whether every number in a row is spelled as JSON allows. -/
def Row.isWellSpelled (row : Row) : Bool := Json.areMembersWellSpelled row.entries

/-- The value of a relationship's property: all related models as a list, or
the first of them, or null if there is none. -/
def Relationship.valueOf (relationship : Relationship) (models : List Model) : Json :=
  if relationship.cardinality = .oneToMany then .arr (models.map fun model => .obj model.entries)
  else
    match models with
    | [] => .null
    | first :: _ => .obj first.entries

theorem Relationship.valueOf_of_collection {relationship : Relationship}
    (h : relationship.isCollection = true) (models : List Model) :
    relationship.valueOf models = .arr (models.map Model.toJson) :=
  if_pos (of_decide_eq_true h)

theorem Relationship.valueOf_of_single {relationship : Relationship}
    (h : relationship.isCollection = false) (models : List Model) :
    relationship.valueOf models = (models.head?.map Model.toJson).getD .null := by
  have hsingle : relationship.cardinality ≠ .oneToMany := of_decide_eq_false h
  cases models <;> exact if_neg hsingle

namespace Shape

/-- The properties that a model takes from the first of its rows. -/
def flatProperties (columns : List ShapeColumn) (row : Row) : List (String × Json) :=
  columns.map fun column => (column.property, column.onRetrieve.getD id (row.valueOf column.name))

mutual

/-- The models that rows make up, group by group: rows without a key are
dropped, and each key in order of first occurrence gives one model. -/
def grouped : Shape → List Row → List Model
  | node _ keys columns children, rows =>
      let keyed := rows.filter fun row => row.isKeyed keys
      (keyed.map fun row => row.keyValues keys).eraseDups.map fun key =>
        let group := keyed.filter fun row => row.keyValues keys = key
        Dict.ofList (flatProperties columns (group.headD ∅) ++ nestedProperties children group)

/-- The properties of relationships, from the models that the same rows make up
under the nested shapes. -/
def nestedProperties : List (Relationship × Shape) → List Row → List (String × Json)
  | [], _ => []
  | (relationship, shape) :: rest, rows =>
      (relationship.property, relationship.valueOf (grouped shape rows)) ::
        nestedProperties rest rows

end

end Shape

/-! ### Drafts -/

namespace Draft

theorem upsert_map {key : String} {fresh : Draft} {change : Draft → Draft} {keys : List String}
    (f : String → Draft) (nodup : keys.Nodup) :
    upsert key fresh change (keys.map fun k => (k, f k)) =
      if key ∈ keys then keys.map fun k => (k, if k = key then change (f k) else f k)
      else keys.map (fun k => (k, f k)) ++ [(key, change fresh)] := by
  induction keys with
  | nil => rfl
  | cons k keys ih =>
      obtain ⟨hk, hkeys⟩ := List.nodup_cons.1 nodup
      rw [List.map_cons, upsert]
      by_cases h : k = key
      · subst h
        have hrest : (keys.map fun l => (l, if l = k then change (f l) else f l)) =
            keys.map fun l => (l, f l) := by
          apply List.map_congr_left
          intro l hl
          rw [if_neg]
          rintro rfl
          exact hk hl
        simp [hrest]
      · have h' : key ≠ k := Ne.symm h
        rw [if_neg h, ih hkeys]
        by_cases hmem : key ∈ keys <;> simp [h, h', hmem]

/-- A change at one more text, in a group of texts in order of first occurrence. -/
theorem upsert_eraseDups {key : String} {fresh : Draft} {change : Draft → Draft}
    {texts : List String} {f g : String → Draft} (hother : ∀ text, text ≠ key → g text = f text)
    (hmem : key ∈ texts → g key = change (f key)) (hfresh : key ∉ texts → g key = change fresh) :
    upsert key fresh change (texts.eraseDups.map fun text => (text, f text)) =
      (texts ++ [key]).eraseDups.map fun text => (text, g text) := by
  rw [upsert_map f (nodup_eraseDups _), eraseDups_concat]
  simp only [List.mem_eraseDups]
  by_cases h : key ∈ texts
  · rw [if_pos h, if_pos h]
    apply List.map_congr_left
    intro text _
    by_cases htext : text = key
    · rw [htext, if_pos rfl, hmem h]
    · rw [if_neg htext, hother text htext]
  · rw [if_neg h, if_neg h, List.map_append, List.map_singleton, hfresh h]
    congr 1
    apply List.map_congr_left
    intro text htext
    rw [hother]
    rintro rfl
    exact h (List.mem_eraseDups.1 htext)

end Draft

namespace Shape

section Drafts

variable (table : Table) (keys : List String) (columns : List ShapeColumn)
  (children : List (Relationship × Shape))

/-- The draft of a model after its rows: begun by the first, changed by all. -/
def draftOf (rows : List Row) : Draft :=
  .mk (documentOf columns (rows.headD ∅))
    (rows.foldl (fun groups row => absorbEach row children groups) [])

theorem draftOf_concat {rows : List Row} (h : rows ≠ []) (row : Row) :
    draftOf columns children (rows ++ [row]) =
      .mk (draftOf columns children rows).document
        (absorbEach row children (draftOf columns children rows).groups) := by
  obtain ⟨first, rest, rfl⟩ := List.exists_cons_of_ne_nil h
  simp [draftOf, Draft.document, Draft.groups]

/-- A group after any rows: their keys in order of first occurrence, each with
the draft of the rows that have it. -/
theorem foldl_absorb (rows : List Row) :
    rows.foldl (fun group row => absorb row (node table keys columns children) group) [] =
      (rows.filterMap (Row.keyText? · keys)).eraseDups.map fun text =>
        (text, draftOf columns children
          (rows.filter fun row => row.keyText? keys = some text)) := by
  induction rows using List.reverseRecOn with
  | nil => rfl
  | append_singleton rows row ih =>
      rw [List.foldl_append, ih, List.foldl_cons, List.foldl_nil, absorb]
      cases hrow : row.keyText? keys with
      | none => simp [hrow, List.filterMap_append, List.filter_append]
      | some key =>
          have hown : (rows ++ [row]).filter (fun row => row.keyText? keys = some key) =
              (rows.filter fun row => row.keyText? keys = some key) ++ [row] := by
            simp [List.filter_append, hrow]
          have htexts : (rows ++ [row]).filterMap (Row.keyText? · keys) =
              rows.filterMap (Row.keyText? · keys) ++ [key] := by
            simp [List.filterMap_append, hrow]
          rw [htexts]
          refine Draft.upsert_eraseDups (fun text htext => ?_) (fun hmem => ?_) fun hfresh => ?_
          · simp [List.filter_append, hrow, Ne.symm htext]
          · obtain ⟨earlier, hearlier, htext⟩ := List.mem_filterMap.1 hmem
            have hne : (rows.filter fun row => row.keyText? keys = some key) ≠ [] := by
              refine List.ne_nil_of_mem (a := earlier) (List.mem_filter.2 ⟨hearlier, ?_⟩)
              exact decide_eq_true htext
            rw [hown, draftOf_concat columns children hne]
          · have hnone : (rows.filter fun row => row.keyText? keys = some key) = [] := by
              refine List.filter_eq_nil_iff.2 fun earlier hearlier htext => hfresh ?_
              exact List.mem_filterMap.2 ⟨earlier, hearlier, of_decide_eq_true htext⟩
            rw [hown, hnone]
            rfl

/-- The group of the first relationship is what its shape makes of the rows. -/
theorem headD_foldl_absorbEach (relationship : Relationship) (shape : Shape) (rows : List Row)
    (groups : List (List (String × Draft))) :
    (rows.foldl (fun groups row => absorbEach row ((relationship, shape) :: children) groups)
        groups).headD [] =
      rows.foldl (fun group row => absorb row shape group) (groups.headD []) := by
  induction rows generalizing groups with
  | nil => rfl
  | cons row rows ih => rw [List.foldl_cons, ih, absorbEach]; rfl

/-- The groups of the other relationships do not depend on the first. -/
theorem tail_foldl_absorbEach (relationship : Relationship) (shape : Shape) (rows : List Row)
    (groups : List (List (String × Draft))) :
    (rows.foldl (fun groups row => absorbEach row ((relationship, shape) :: children) groups)
        groups).tail =
      rows.foldl (fun groups row => absorbEach row children groups) groups.tail := by
  induction rows generalizing groups with
  | nil => rfl
  | cons row rows ih => rw [List.foldl_cons, ih, absorbEach]; rfl

theorem nest_foldl_absorbEach (rows : List Row) (document : Model) :
    nest children (rows.foldl (fun groups row => absorbEach row children groups) []) document =
      document.insertAll (children.map fun child =>
        (child.1.property, child.1.valueOf (child.2.fold rows))) := by
  induction children generalizing document with
  | nil => rfl
  | cons child children ih =>
      obtain ⟨relationship, shape⟩ := child
      have hvalue : relationship.valueOf (shape.fold rows) =
          if relationship.isCollection then .arr ((shape.fold rows).map Model.toJson)
          else ((shape.fold rows).map Model.toJson).head?.getD .null := by
        cases hmany : relationship.isCollection with
        | true => exact Relationship.valueOf_of_collection hmany _
        | false =>
            rw [Relationship.valueOf_of_single hmany, List.head?_map]
            rfl
      rw [nest, headD_foldl_absorbEach, tail_foldl_absorbEach]
      simp only [List.headD_nil, List.tail_nil, ih, List.map_cons, hvalue]
      rfl

/-- The model that the rows of one key make up. -/
def modelOf (rows : List Row) : Model :=
  (documentOf columns (rows.headD ∅)).insertAll (children.map fun child =>
    (child.1.property, child.1.valueOf (child.2.fold rows)))

/-- What folding does at one shape, with keys told apart by their texts. -/
theorem fold_node (rows : List Row) :
    fold (node table keys columns children) rows =
      (rows.filterMap (Row.keyText? · keys)).eraseDups.map fun text =>
        modelOf columns children (rows.filter fun row => row.keyText? keys = some text) := by
  rw [fold, foldl_absorb, models, List.map_map]
  apply List.map_congr_left
  intro text _
  exact nest_foldl_absorbEach children _ _

end Drafts

end Shape

/-! ### Keys -/

namespace Row

variable {row other : Row} {keys : List String}

theorem key?_eq (row : Row) (keys : List String) :
    row.key? keys = if row.isKeyed keys then some (row.keyValues keys) else none := by
  induction keys with
  | nil => rfl
  | cons column keys ih =>
      rw [key?]
      simp only [isKeyed, List.all_cons, keyValues, List.map_cons, Dict.valueOf] at ih ⊢
      cases hvalue : row.get? column with
      | none => simp
      | some value => cases value <;> simp [ih, apply_ite]

theorem keyText?_eq (row : Row) (keys : List String) :
    row.keyText? keys =
      if row.isKeyed keys then some (Json.arr (row.keyValues keys)).text else none := by
  rw [keyText?, key?_eq, apply_ite (Option.map _)]
  rfl

theorem filterMap_keyText? (rows : List Row) (keys : List String) :
    rows.filterMap (keyText? · keys) =
      ((rows.filter (isKeyed · keys)).map (keyValues · keys)).map fun key =>
        (Json.arr key).text := by
  induction rows with
  | nil => rfl
  | cons row rows ih =>
      rw [List.filterMap_cons, keyText?_eq, ih]
      by_cases h : row.isKeyed keys = true <;> simp [h]

theorem isWellSpelled_valueOf (h : row.isWellSpelled = true) (column : String) :
    (row.valueOf column).isWellSpelled = true := by
  rw [Dict.valueOf]
  cases hvalue : row.get? column with
  | none => rfl
  | some value =>
      exact Json.areMembersWellSpelled_iff.1 h _ (Dict.mem_entries_of_get? hvalue)

theorem areItemsWellSpelled_keyValues (h : row.isWellSpelled = true) (keys : List String) :
    Json.areItemsWellSpelled (row.keyValues keys) = true := by
  rw [Json.areItemsWellSpelled_iff]
  intro value hvalue
  obtain ⟨column, _, rfl⟩ := List.mem_map.1 hvalue
  exact isWellSpelled_valueOf h column

/-- The text of a key stands for its values. -/
theorem text_keyValues_inj (keys : List String) (hrow : row.isWellSpelled = true)
    (hother : other.isWellSpelled = true) :
    (Json.arr (row.keyValues keys)).text = (Json.arr (other.keyValues keys)).text ↔
      row.keyValues keys = other.keyValues keys := by
  have hinj := Json.text_inj (v := .arr (row.keyValues keys)) (w := .arr (other.keyValues keys))
    (areItemsWellSpelled_keyValues hrow keys) (areItemsWellSpelled_keyValues hother keys)
  rw [hinj, Json.arr.injEq]

end Row

namespace Shape

/-- What holds of a shape if it holds of the shapes nested in it holds of every shape. -/
theorem inductionOn {motive : Shape → Prop} (shape : Shape)
    (step : ∀ table keys columns children, (∀ child ∈ children, motive child.2) →
      motive (node table keys columns children)) : motive shape := by
  match shape with
  | node table keys columns children =>
      apply step table keys columns children
      intro child hchild
      have hlt := List.sizeOf_lt_of_mem hchild
      exact inductionOn child.2 step
termination_by sizeOf shape
decreasing_by
  obtain ⟨relationship, shape⟩ := child
  simp only [Prod.mk.sizeOf_spec] at hlt
  simp only [node.sizeOf_spec]
  omega

theorem nestedProperties_eq_map (children : List (Relationship × Shape)) (rows : List Row) :
    nestedProperties children rows =
      children.map fun child => (child.1.property, child.1.valueOf (child.2.grouped rows)) := by
  induction children with
  | nil => rfl
  | cons child children ih =>
      obtain ⟨relationship, shape⟩ := child
      rw [nestedProperties, ih]
      rfl

theorem documentOf_eq_ofList (columns : List ShapeColumn) (row : Row) :
    documentOf columns row = Dict.ofList (flatProperties columns row) := by
  rw [documentOf, flatProperties]
  congr 1
  apply List.map_congr_left
  intro column _
  rw [ShapeColumn.valueIn]
  cases column.onRetrieve <;> rfl

variable (table : Table) (keys : List String) (columns : List ShapeColumn)
  (children : List (Relationship × Shape))

/-- What folding does at one shape, with keys told apart by their values. -/
theorem fold_node_eq_map_keyValues {rows : List Row}
    (spelled : ∀ row ∈ rows, row.isWellSpelled = true) :
    fold (node table keys columns children) rows =
      ((rows.filter (Row.isKeyed · keys)).map (Row.keyValues · keys)).eraseDups.map fun key =>
        modelOf columns children
          ((rows.filter (Row.isKeyed · keys)).filter fun row => row.keyValues keys = key) := by
  have hinj : ∀ key ∈ (rows.filter (Row.isKeyed · keys)).map (Row.keyValues · keys),
      ∀ key' ∈ (rows.filter (Row.isKeyed · keys)).map (Row.keyValues · keys),
        (Json.arr key).text = (Json.arr key').text → key = key' := by
    intro key hkey key' hkey' htext
    obtain ⟨row, hrow, rfl⟩ := List.mem_map.1 hkey
    obtain ⟨row', hrow', rfl⟩ := List.mem_map.1 hkey'
    exact (Row.text_keyValues_inj keys (spelled row (List.mem_filter.1 hrow).1)
      (spelled row' (List.mem_filter.1 hrow').1)).1 htext
  rw [fold_node, Row.filterMap_keyText?, eraseDups_map_of_injOn hinj, List.map_map]
  apply List.map_congr_left
  intro key hkey
  obtain ⟨other, hother, rfl⟩ := List.mem_map.1 (List.mem_eraseDups.1 hkey)
  rw [List.filter_filter, Function.comp_apply]
  congr 1
  apply List.filter_congr
  intro row hrow
  have htext := Row.text_keyValues_inj keys (spelled row hrow)
    (spelled other (List.mem_filter.1 hother).1)
  rw [Row.keyText?_eq]
  by_cases hkeyed : row.isKeyed keys = true <;> simp [hkeyed, htext]

/-- Folding rows is grouping them, at every depth. -/
theorem fold_eq_grouped (shape : Shape) (rows : List Row)
    (spelled : ∀ row ∈ rows, row.isWellSpelled = true) : shape.fold rows = shape.grouped rows := by
  induction shape using inductionOn generalizing rows with
  | step table keys columns children ih =>
      rw [fold_node_eq_map_keyValues _ _ _ _ spelled, grouped]
      apply List.map_congr_left
      intro key _
      have hgroup : ∀ row ∈ (rows.filter (Row.isKeyed · keys)).filter
          (fun row => row.keyValues keys = key), row.isWellSpelled = true :=
        fun row hrow => spelled row (List.mem_filter.1 (List.mem_filter.1 hrow).1).1
      dsimp only
      rw [modelOf, documentOf_eq_ofList, nestedProperties_eq_map, Dict.insertAll_ofList]
      congr 2
      apply List.map_congr_left
      intro child hchild
      rw [ih child hchild _ hgroup]

/-- Users with their phones, which have two key columns, and with their boss. -/
def userShape : Shape :=
  node { entity := "User", name := "users" } ["u.id"]
    [{ name := "u.id", property := "id" },
      { name := "u.on", property := "on", onRetrieve := some Converter.bitToBool }]
    [({ owner := "User", target := "Phone", property := "phones", cardinality := .oneToMany },
      node { entity := "Phone", name := "phones" } ["p.id", "p.no"]
        [{ name := "p.no", property := "no" }] []),
     ({ owner := "User", target := "User", property := "boss", cardinality := .manyToOne },
      node { entity := "User", name := "users" } ["b.id"]
        [{ name := "b.id", property := "id" }] [])]

/-- Rows of two users in turn, whose phones have keys of similar texts. -/
def userRows : List Row :=
  [Dict.ofList [("u.id", .num "1"), ("u.on", .num "1"), ("p.id", .str "a\",\"b"),
      ("p.no", .str "c")],
    Dict.ofList [("u.id", .num "2"), ("p.id", .str "a"), ("p.no", .str "b\",\"c"),
      ("b.id", .num "1")],
    Dict.ofList [("u.id", .null), ("p.id", .str "a"), ("p.no", .str "c")],
    Dict.ofList [("u.id", .num "1"), ("p.id", .str "a"), ("p.no", .str "b\",\"c")]]

theorem fold_eq_grouped_userRows :
    (∀ row ∈ userRows, row.isWellSpelled = true) ∧
      userShape.fold userRows = userShape.grouped userRows ∧
      (userShape.fold userRows).map (fun model => Json.obj model.entries) = [
        .obj [("boss", .null), ("id", .num "1"), ("on", .bool true),
          ("phones", .arr [.obj [("no", .str "c")], .obj [("no", .str "b\",\"c")]])],
        .obj [("boss", .obj [("id", .num "1")]), ("id", .num "2"), ("on", .null),
          ("phones", .arr [.obj [("no", .str "b\",\"c")]])]] :=
  ⟨by decide, fold_eq_grouped userShape userRows (by decide), by decide +kernel⟩

end Shape

end EntityQuery
