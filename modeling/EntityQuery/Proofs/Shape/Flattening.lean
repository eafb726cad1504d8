import EntityQuery.Proofs.Shape.Forest
import Mathlib.Data.List.Nodup
import Mathlib.Data.List.ProdSigma

/-!
# Folding undoes flattening

Where the columns of different shapes do not meet, folding the rows of a forest
gives the forest back.

Two facts about `Shape.fold` carry the proof. It reads the columns of its shape
only (`fold_map_congr`), so that the rows of a model can be replaced by what one
relationship has contributed to them. And it does not mind rows that occurred
before (`fold_eraseDups`), so that the repetitions which the other relationships
cause can be left out.
-/

namespace EntityQuery

namespace Shape

/-! ### What folding depends on -/

theorem rowColumnsOfEach_eq_flatMap (children : List (Relationship × Shape)) :
    rowColumnsOfEach children = children.flatMap fun child => child.2.rowColumns := by
  induction children with
  | nil => rfl
  | cons child children ih =>
      obtain ⟨relationship, shape⟩ := child
      rw [rowColumnsOfEach, ih]
      rfl

theorem mem_rowColumnsOfEach {children : List (Relationship × Shape)}
    {child : Relationship × Shape} (hchild : child ∈ children) {column : String}
    (h : column ∈ child.2.rowColumns) : column ∈ rowColumnsOfEach children := by
  rw [rowColumnsOfEach_eq_flatMap]
  exact List.mem_flatMap.2 ⟨child, hchild, h⟩

end Shape

theorem Row.keyText?_congr {row other : Row} {keys : List String}
    (h : ∀ key ∈ keys, row.valueOf key = other.valueOf key) :
    row.keyText? keys = other.keyText? keys := by
  have hkeyed : row.isKeyed keys = other.isKeyed keys := by
    rw [Bool.eq_iff_iff, isKeyed, isKeyed, List.all_eq_true, List.all_eq_true]
    exact forall₂_congr fun key hkey => by rw [h key hkey]
  rw [keyText?_eq, keyText?_eq, hkeyed, keyValues, keyValues, List.map_congr_left h]

namespace Shape

theorem documentOf_congr {columns : List ShapeColumn} {row other : Row}
    (h : ∀ column ∈ columns, row.valueOf column.name = other.valueOf column.name) :
    documentOf columns row = documentOf columns other := by
  rw [documentOf_eq_ofList, documentOf_eq_ofList, flatProperties, flatProperties]
  congr 1
  apply List.map_congr_left
  intro column hcolumn
  rw [h column hcolumn]

theorem documentOf_headD_congr {ι : Type} {columns : List ShapeColumn} {indices : List ι}
    {f g : ι → Row}
    (h : ∀ i ∈ indices, ∀ column ∈ columns,
      (f i).valueOf column.name = (g i).valueOf column.name) :
    documentOf columns ((indices.map f).headD ∅) =
      documentOf columns ((indices.map g).headD ∅) := by
  cases indices with
  | nil => rfl
  | cons i indices => exact documentOf_congr (h i List.mem_cons_self)

/-- Folding reads the columns of its shape only. -/
theorem fold_map_congr {ι : Type} {shape : Shape} (plain : shape.IsPlain) {indices : List ι}
    {f g : ι → Row}
    (h : ∀ i ∈ indices, ∀ column ∈ shape.rowColumns, (f i).valueOf column = (g i).valueOf column) :
    shape.fold (indices.map f) = shape.fold (indices.map g) := by
  induction plain generalizing indices with
  | @node table keys columns children hasKey ownKey unchanged nested ih =>
      rw [rowColumns] at h
      have hown : ∀ i ∈ indices, ∀ name ∈ columns.map ShapeColumn.name,
          (f i).valueOf name = (g i).valueOf name :=
        fun i hi name hname => h i hi name (List.mem_append_left _ hname)
      have htext : ∀ i ∈ indices, (f i).keyText? keys = (g i).keyText? keys :=
        fun i hi => Row.keyText?_congr fun key hkey => hown i hi key (ownKey key hkey)
      have htexts : (indices.map f).filterMap (Row.keyText? · keys) =
          (indices.map g).filterMap (Row.keyText? · keys) := by
        simpa only [List.filterMap_map, Function.comp_def, id] using
          congrArg (List.filterMap id) (List.map_congr_left htext)
      rw [fold_node, fold_node, htexts]
      apply List.map_congr_left
      intro text _
      have hchosen : indices.filter (fun i => (f i).keyText? keys = some text) =
          indices.filter fun i => (g i).keyText? keys = some text :=
        List.filter_congr fun i hi => by rw [htext i hi]
      rw [List.filter_map, List.filter_map]
      simp only [Function.comp_def]
      rw [hchosen]
      have hsub : ∀ i ∈ indices.filter (fun i => (g i).keyText? keys = some text), i ∈ indices :=
        fun i hi => (List.mem_filter.1 hi).1
      -- which of the indices have the key does not matter any more
      generalize indices.filter (fun i => (g i).keyText? keys = some text) = chosen at hsub
      have hdocument : documentOf columns ((chosen.map f).headD ∅) =
          documentOf columns ((chosen.map g).headD ∅) := by
        apply documentOf_headD_congr
        intro i hi column hcolumn
        exact hown i (hsub i hi) _ (List.mem_map_of_mem hcolumn)
      rw [modelOf, modelOf, hdocument]
      congr 1
      apply List.map_congr_left
      intro child hchild
      rw [ih child hchild fun i hi column hcolumn => h i (hsub i hi) column
        (List.mem_append_right _ (mem_rowColumnsOfEach hchild hcolumn))]

/-- Folding does not mind rows that occurred before. -/
theorem fold_eraseDups (shape : Shape) (rows : List Row) :
    shape.fold rows.eraseDups = shape.fold rows := by
  induction shape using inductionOn generalizing rows with
  | step table keys columns children ih =>
      rw [fold_node, fold_node, eraseDups_filterMap_eraseDups]
      apply List.map_congr_left
      intro text _
      rw [filter_eraseDups, modelOf, modelOf, List.headD_eq_head?_getD, head?_eraseDups,
        ← List.headD_eq_head?_getD]
      congr 1
      apply List.map_congr_left
      intro child hchild
      rw [ih child hchild]

theorem fold_congr_eraseDups (shape : Shape) {rows others : List Row}
    (h : rows.eraseDups = others.eraseDups) : shape.fold rows = shape.fold others := by
  rw [← fold_eraseDups, h, fold_eraseDups]

end Shape

/-! ### Rows of a model -/

namespace Row

variable {row other : Row} {key : String}

/-- A row binds no other columns. -/
def Within (row : Row) (columns : List String) : Prop :=
  ∀ column, column ∉ columns → row.get? column = none

theorem get?_merge (row other : Row) (key : String) :
    (row.merge other).get? key = (other.get? key).or (row.get? key) :=
  Dict.get?_insertAll_entries row other key

theorem valueOf_merge_left (h : other.get? key = none) :
    (row.merge other).valueOf key = row.valueOf key := by
  rw [Dict.valueOf, Dict.valueOf, get?_merge, h, Option.none_or]

theorem valueOf_merge_right (h : row.get? key = none) :
    (row.merge other).valueOf key = other.valueOf key := by
  rw [Dict.valueOf, Dict.valueOf, get?_merge, h, Option.or_none]

theorem within_merge {columns others : List String} (hrow : row.Within columns)
    (hother : other.Within others) : (row.merge other).Within (columns ++ others) := by
  intro column hcolumn
  rw [List.mem_append, not_or] at hcolumn
  rw [get?_merge, hrow column hcolumn.1, hother column hcolumn.2]
  rfl

theorem within_nulls (columns : List String) : (nulls columns).Within columns := by
  intro column hcolumn
  refine Dict.get?_ofList_eq_none ?_
  simpa [Function.comp_def] using hcolumn

theorem valueOf_nulls (columns : List String) (key : String) :
    (nulls columns).valueOf key = .null := by
  rw [Dict.valueOf]
  cases hvalue : (nulls columns).get? key with
  | none => rfl
  | some value =>
      rw [nulls, Dict.get?_ofList] at hvalue
      have hmem := List.mem_reverse.1 (Dict.mem_of_lookup hvalue)
      obtain ⟨_, _, heq⟩ := List.mem_map.1 hmem
      cases heq
      rfl

end Row

namespace Shape

/-- The rows that a relationship contributes to those of a model. -/
def contribution (relationship : Relationship) (shape : Shape) (model : Model) : List Row :=
  match relationship.modelsIn model with
  | [] => [Row.nulls shape.rowColumns]
  | models => models.flatMap shape.rowsOf

theorem combinations_cons (relationship : Relationship) (shape : Shape)
    (children : List (Relationship × Shape)) (model : Model) :
    combinations ((relationship, shape) :: children) model =
      (contribution relationship shape model).flatMap fun row =>
        (combinations children model).map row.merge := by
  rw [combinations]
  rfl

theorem within_ownRow (columns : List ShapeColumn) (model : Model) :
    (ownRow columns model).Within (columns.map ShapeColumn.name) := by
  intro column hcolumn
  refine Dict.get?_ofList_eq_none ?_
  simpa [Function.comp_def] using hcolumn

theorem mem_contribution {relationship : Relationship} {shape : Shape} {model : Model} {row : Row}
    (h : row ∈ contribution relationship shape model) :
    row = Row.nulls shape.rowColumns ∨ ∃ other, row ∈ shape.rowsOf other := by
  rw [contribution] at h
  split at h
  · exact Or.inl (List.mem_singleton.1 h)
  · obtain ⟨other, _, hrow⟩ := List.mem_flatMap.1 h
    exact Or.inr ⟨other, hrow⟩

theorem within_combinations {children : List (Relationship × Shape)} {model : Model}
    (h : ∀ child ∈ children, ∀ row ∈ contribution child.1 child.2 model,
      row.Within child.2.rowColumns) :
    ∀ row ∈ combinations children model, row.Within (rowColumnsOfEach children) := by
  induction children with
  | nil =>
      intro row hrow
      rw [combinations, List.mem_singleton] at hrow
      subst hrow
      exact fun _ _ => rfl
  | cons child children ih =>
      obtain ⟨relationship, shape⟩ := child
      intro row hrow
      rw [combinations_cons] at hrow
      obtain ⟨first, hfirst, hrest⟩ := List.mem_flatMap.1 hrow
      obtain ⟨rest, hmem, rfl⟩ := List.mem_map.1 hrest
      refine Row.within_merge (h _ List.mem_cons_self first hfirst) ?_
      exact ih (fun c hc => h c (List.mem_cons_of_mem _ hc)) rest hmem

/-- The rows of a model bind the columns of its shape only. -/
theorem within_rowsOf (shape : Shape) (model : Model) :
    ∀ row ∈ shape.rowsOf model, row.Within shape.rowColumns := by
  induction shape using inductionOn generalizing model with
  | step table keys columns children ih =>
      intro row hrow
      rw [rowsOf] at hrow
      obtain ⟨other, hother, rfl⟩ := List.mem_map.1 hrow
      refine Row.within_merge (within_ownRow columns model) ?_
      refine within_combinations (fun child hchild row hrow => ?_) other hother
      rcases mem_contribution hrow with rfl | ⟨other, hother⟩
      · exact Row.within_nulls _
      · exact ih child hchild other row hother

theorem within_contribution (relationship : Relationship) (shape : Shape) (model : Model) :
    ∀ row ∈ contribution relationship shape model, row.Within shape.rowColumns := by
  intro row hrow
  rcases mem_contribution hrow with rfl | ⟨other, hother⟩
  · exact Row.within_nulls _
  · exact within_rowsOf shape other row hother

theorem combinations_ne_nil {children : List (Relationship × Shape)} {model : Model}
    (h : ∀ child ∈ children, contribution child.1 child.2 model ≠ []) :
    combinations children model ≠ [] := by
  induction children with
  | nil => rw [combinations]; exact List.cons_ne_nil _ _
  | cons child children ih =>
      obtain ⟨relationship, shape⟩ := child
      obtain ⟨row, hrow⟩ := List.exists_mem_of_ne_nil _ (h _ List.mem_cons_self)
      obtain ⟨rest, hrest⟩ := List.exists_mem_of_ne_nil _
        (ih fun c hc => h c (List.mem_cons_of_mem _ hc))
      rw [combinations_cons]
      exact List.ne_nil_of_mem
        (List.mem_flatMap.2 ⟨row, hrow, List.mem_map_of_mem hrest⟩)

theorem contribution_ne_nil_of {relationship : Relationship} {shape : Shape}
    (h : ∀ model, shape.rowsOf model ≠ []) (model : Model) :
    contribution relationship shape model ≠ [] := by
  rw [contribution]
  split
  · exact List.cons_ne_nil _ _
  next hne =>
    cases hmodels : relationship.modelsIn model with
    | nil => exact absurd hmodels hne
    | cons other others =>
        rw [List.flatMap_cons]
        exact List.append_ne_nil_of_left_ne_nil (h other) _

/-- Every model stands in a row. -/
theorem rowsOf_ne_nil (shape : Shape) (model : Model) : shape.rowsOf model ≠ [] := by
  induction shape using inductionOn generalizing model with
  | step table keys columns children ih =>
      rw [rowsOf, ne_eq, List.map_eq_nil_iff]
      exact combinations_ne_nil fun child hchild => contribution_ne_nil_of (ih child hchild) model

theorem contribution_ne_nil (relationship : Relationship) (shape : Shape) (model : Model) :
    contribution relationship shape model ≠ [] :=
  contribution_ne_nil_of shape.rowsOf_ne_nil model

/-! ### One relationship among others -/

/-- A row of nulls makes up no model. -/
theorem fold_nulls {shape : Shape} (plain : shape.IsPlain) (columns : List String) :
    shape.fold [Row.nulls columns] = [] := by
  cases plain with
  | @node table keys cols children hasKey =>
      obtain ⟨key, keys, rfl⟩ := List.exists_cons_of_ne_nil hasKey
      have hnone : (Row.nulls columns).keyText? (key :: keys) = none := by
        rw [Row.keyText?_eq, if_neg]
        simp [Row.isKeyed, Row.valueOf_nulls]
      have hnil : [Row.nulls columns].filterMap (Row.keyText? · (key :: keys)) = [] := by
        simp [hnone]
      rw [fold_node, hnil]
      rfl

section Product

variable {shape : Shape} (plain : shape.IsPlain) {firsts rests : List Row} {others : List String}

include plain

/-- Where rows are merged with others that bind no column of a shape, the shape
sees the rows alone. -/
theorem fold_flatMap_merge_left (hrests : ∀ other ∈ rests, other.Within others)
    (hdisjoint : ∀ column ∈ shape.rowColumns, column ∉ others) (hne : rests ≠ []) :
    shape.fold (firsts.flatMap fun row => rests.map row.merge) = shape.fold firsts := by
  calc
    shape.fold (firsts.flatMap fun row => rests.map row.merge) =
        shape.fold ((firsts.product rests).map fun pair => pair.1.merge pair.2) := by
      rw [List.product, List.map_flatMap]
      simp [Function.comp_def]
    _ = shape.fold ((firsts.product rests).map Prod.fst) := by
      apply fold_map_congr plain
      intro pair hpair column hcolumn
      obtain ⟨-, hrest⟩ := List.mem_product.1 hpair
      exact Row.valueOf_merge_left (hrests _ hrest column (hdisjoint column hcolumn))
    _ = shape.fold (firsts.flatMap fun row => rests.map fun _ => row) := by
      rw [List.product, List.map_flatMap]
      simp [Function.comp_def]
    _ = shape.fold firsts := by
      apply fold_congr_eraseDups
      have hrepeated := eraseDups_flatMap_map_const id (l := firsts) fun _ _ => hne
      rwa [List.map_id] at hrepeated

/-- The same with the rows on the other side. -/
theorem fold_flatMap_merge_right (hfirsts : ∀ row ∈ firsts, row.Within others)
    (hdisjoint : ∀ column ∈ shape.rowColumns, column ∉ others) (hne : firsts ≠ []) :
    shape.fold (firsts.flatMap fun row => rests.map row.merge) = shape.fold rests := by
  calc
    shape.fold (firsts.flatMap fun row => rests.map row.merge) =
        shape.fold ((firsts.product rests).map fun pair => pair.1.merge pair.2) := by
      rw [List.product, List.map_flatMap]
      simp [Function.comp_def]
    _ = shape.fold ((firsts.product rests).map Prod.snd) := by
      apply fold_map_congr plain
      intro pair hpair column hcolumn
      obtain ⟨hfirst, -⟩ := List.mem_product.1 hpair
      exact Row.valueOf_merge_right (hfirsts _ hfirst column (hdisjoint column hcolumn))
    _ = shape.fold (firsts.flatMap fun _ => rests) := by
      rw [List.product, List.map_flatMap]
      simp [Function.comp_def]
    _ = shape.fold rests := fold_congr_eraseDups shape (eraseDups_flatMap_const hne rests)

end Product

/-- Folding the combinations of all relationships under the shape of one of
them is folding what that one contributes. -/
theorem fold_combinations {children : List (Relationship × Shape)} {model : Model}
    (plain : ∀ child ∈ children, child.2.IsPlain) (distinct : (rowColumnsOfEach children).Nodup) :
    ∀ child ∈ children, child.2.fold (combinations children model) =
      child.2.fold (contribution child.1 child.2 model) := by
  induction children with
  | nil => exact fun child hchild => absurd hchild List.not_mem_nil
  | cons first children ih =>
      obtain ⟨relationship, shape⟩ := first
      rw [rowColumnsOfEach, List.nodup_append] at distinct
      obtain ⟨-, hrest, hdisjoint⟩ := distinct
      intro child hchild
      rw [combinations_cons]
      rcases List.mem_cons.1 hchild with rfl | hmem
      · apply fold_flatMap_merge_left (plain _ List.mem_cons_self)
        · exact within_combinations fun _ _ => within_contribution _ _ _
        · exact fun column hcolumn hother => hdisjoint column hcolumn column hother rfl
        · exact combinations_ne_nil fun _ _ => contribution_ne_nil _ _ _
      · rw [fold_flatMap_merge_right (plain _ hchild) (within_contribution relationship shape model)
          _ (contribution_ne_nil relationship shape model)]
        · exact ih (fun c hc => plain c (List.mem_cons_of_mem _ hc)) hrest child hmem
        · exact fun column hcolumn hshape => hdisjoint column hshape column
            (mem_rowColumnsOfEach hmem hcolumn) rfl

end Shape

/-! ### Blocks of rows -/

section Blocks

variable {ι α : Type} {models : List ι} {rows : ι → List α} {text : ι → String}
  {keyOf : α → Option String}

/-- Where every model has rows and all of them have its key, the keys come in
the order of the models. -/
theorem eraseDups_filterMap_flatMap (hkey : ∀ i ∈ models, ∀ row ∈ rows i, keyOf row = some (text i))
    (hrows : ∀ i ∈ models, rows i ≠ []) (distinct : (models.map text).Nodup) :
    ((models.flatMap rows).filterMap keyOf).eraseDups = models.map text := by
  have htexts : (models.flatMap rows).filterMap keyOf =
      models.flatMap fun i => (rows i).map fun _ => text i := by
    rw [List.filterMap_flatMap]
    apply List.flatMap_congr
    intro i hi
    rw [← List.filterMap_eq_map]
    apply List.filterMap_congr
    intro row hrow
    exact hkey i hi row hrow
  rw [htexts, eraseDups_flatMap_map_const text hrows, eraseDups_of_nodup distinct]

/-- The rows with the key of a model are its own. -/
theorem filter_flatMap_own (hkey : ∀ i ∈ models, ∀ row ∈ rows i, keyOf row = some (text i))
    (distinct : (models.map text).Nodup) {i : ι} (hi : i ∈ models) :
    (models.flatMap rows).filter (fun row => keyOf row = some (text i)) = rows i := by
  induction models with
  | nil => cases hi
  | cons j models ih =>
      obtain ⟨hj, hmodels⟩ := List.nodup_cons.1 distinct
      have hfirst := hkey j List.mem_cons_self
      have hother : ∀ l ∈ models, ∀ row ∈ rows l, keyOf row = some (text l) :=
        fun l hl => hkey l (List.mem_cons_of_mem _ hl)
      rw [List.flatMap_cons, List.filter_append]
      rcases List.mem_cons.1 hi with rfl | hmem
      · have hnil : (models.flatMap rows).filter (fun row => keyOf row = some (text i)) = [] := by
          refine List.filter_eq_nil_iff.2 fun row hrow htext => hj ?_
          obtain ⟨l, hl, hrow⟩ := List.mem_flatMap.1 hrow
          rw [hother l hl row hrow, decide_eq_true_eq, Option.some.injEq] at htext
          exact List.mem_map.2 ⟨l, hl, htext⟩
        rw [hnil, List.append_nil, List.filter_eq_self]
        exact fun row hrow => decide_eq_true (hfirst row hrow)
      · have hnil : (rows j).filter (fun row => keyOf row = some (text i)) = [] := by
          refine List.filter_eq_nil_iff.2 fun row hrow htext => hj ?_
          rw [hfirst row hrow, decide_eq_true_eq, Option.some.injEq] at htext
          exact List.mem_map.2 ⟨i, hmem, htext.symm⟩
        rw [hnil, List.nil_append, ih hother hmodels hmem]

end Blocks

namespace Shape

/-! ### The forest -/

section Forest

variable {table : Table} {keys : List String} {columns : List ShapeColumn}
  {children : List (Relationship × Shape)} {model : Model}

theorem valueOf_ownRow (distinct : (columns.map ShapeColumn.name).Nodup) {column : ShapeColumn}
    (h : column ∈ columns) :
    (ownRow columns model).valueOf column.name = model.valueOf column.property := by
  have hmem : (column.name, model.valueOf column.property) ∈
      columns.map fun column => (column.name, model.valueOf column.property) :=
    List.mem_map.2 ⟨column, h, rfl⟩
  have hget := Dict.get?_ofList_of_mem (by simpa [Function.comp_def] using distinct) hmem
  rw [Dict.valueOf, ownRow, hget, Option.getD_some]

/-- The rows of a model hold its own values. -/
theorem valueOf_of_mem_rowsOf
    (distinct : (node table keys columns children).rowColumns.Nodup) {row : Row}
    (hrow : row ∈ (node table keys columns children).rowsOf model) {column : ShapeColumn}
    (h : column ∈ columns) : row.valueOf column.name = model.valueOf column.property := by
  rw [rowColumns, List.nodup_append] at distinct
  obtain ⟨hown, -, hdisjoint⟩ := distinct
  rw [rowsOf] at hrow
  obtain ⟨other, hother, rfl⟩ := List.mem_map.1 hrow
  have hwithin := within_combinations (fun _ _ => within_contribution _ _ _) other hother
  rw [Row.valueOf_merge_left, valueOf_ownRow hown h]
  exact hwithin _ fun hmem => hdisjoint _ (List.mem_map_of_mem h) _ hmem rfl

/-- The text of a model's key. -/
def keyTextOf (shape : Shape) (model : Model) : String := (Json.arr (shape.keyOf model)).text

theorem keyText?_of_mem_rowsOf (plain : (node table keys columns children).IsPlain)
    (distinct : (node table keys columns children).rowColumns.Nodup)
    (shaped : (node table keys columns children).IsShaped model) {row : Row}
    (hrow : row ∈ (node table keys columns children).rowsOf model) :
    row.keyText? keys = some (keyTextOf (node table keys columns children) model) := by
  cases plain with
  | node hasKey ownKey =>
  cases shaped with
  | node noOther hasValue spelled nonNull =>
      have hcolumns : (columns.map ShapeColumn.name).Nodup := by
        rw [rowColumns, List.nodup_append] at distinct
        exact distinct.1
      have hvalues : ∀ key ∈ keys, row.valueOf key = (ownRow columns model).valueOf key := by
        intro key hkey
        obtain ⟨column, hcolumn, rfl⟩ := List.mem_map.1 (ownKey key hkey)
        rw [valueOf_of_mem_rowsOf distinct hrow hcolumn, valueOf_ownRow hcolumns hcolumn]
      have hkeyed : (ownRow columns model).isKeyed keys = true := by
        rw [Row.isKeyed, List.all_eq_true]
        intro key hkey
        obtain ⟨column, hcolumn, rfl⟩ := List.mem_map.1 (ownKey key hkey)
        rw [valueOf_ownRow hcolumns hcolumn, bne_iff_ne]
        exact nonNull column hcolumn hkey
      rw [Row.keyText?_congr hvalues, Row.keyText?_eq, if_pos hkeyed]
      rfl

theorem areItemsWellSpelled_keyOf (plain : (node table keys columns children).IsPlain)
    (distinct : (node table keys columns children).rowColumns.Nodup)
    (shaped : (node table keys columns children).IsShaped model) :
    Json.areItemsWellSpelled (keyOf (node table keys columns children) model) = true := by
  cases plain with
  | node hasKey ownKey =>
  cases shaped with
  | node noOther hasValue spelled =>
      rw [Json.areItemsWellSpelled_iff]
      intro value hvalue
      obtain ⟨key, hkey, rfl⟩ := List.mem_map.1 hvalue
      obtain ⟨column, hcolumn, rfl⟩ := List.mem_map.1 (ownKey key hkey)
      rw [rowColumns, List.nodup_append] at distinct
      rw [valueOf_ownRow distinct.1 hcolumn]
      exact spelled column hcolumn

/-- Models with different keys have different texts of keys. -/
theorem nodup_keyTextOf {models : List Model} (plain : (node table keys columns children).IsPlain)
    (distinct : (node table keys columns children).rowColumns.Nodup)
    (forest : (node table keys columns children).IsForest models) :
    (models.map (keyTextOf (node table keys columns children))).Nodup := by
  have hkeys := forest.distinct
  rw [List.Nodup, List.pairwise_map] at hkeys ⊢
  refine hkeys.imp_of_mem fun hmodel hother hne htext => hne ?_
  have hinj := Json.text_inj
    (v := .arr (keyOf (node table keys columns children) _))
    (w := .arr (keyOf (node table keys columns children) _))
    (areItemsWellSpelled_keyOf plain distinct (forest.shaped _ hmodel))
    (areItemsWellSpelled_keyOf plain distinct (forest.shaped _ hother))
  exact Json.arr.inj (hinj.1 htext)

/-- Under the shape of a relationship, the rows of a model make up the models
that it holds there. -/
theorem fold_rowsOf_child (plain : (node table keys columns children).IsPlain)
    (distinct : (node table keys columns children).rowColumns.Nodup)
    (shaped : (node table keys columns children).IsShaped model)
    {child : Relationship × Shape} (hchild : child ∈ children)
    (ih : ∀ models, child.2.IsForest models →
      child.2.fold (models.flatMap child.2.rowsOf) = models) :
    child.2.fold ((node table keys columns children).rowsOf model) = child.1.modelsIn model := by
  rw [rowColumns, List.nodup_append] at distinct
  obtain ⟨-, hchildren, hdisjoint⟩ := distinct
  cases plain with
  | node hasKey ownKey unchanged plainChildren =>
  cases shaped with
  | node noOther hasValue spelled nonNull hasModels atMostOne nested distinctModels =>
      have hown : child.2.fold
          ([ownRow columns model].flatMap fun row => (combinations children model).map row.merge) =
            child.2.fold (combinations children model) := by
        apply fold_flatMap_merge_right (plainChildren child hchild)
        · exact List.forall_mem_singleton.2 (within_ownRow columns model)
        · exact fun column hcolumn hmem => hdisjoint column hmem column
            (mem_rowColumnsOfEach hchild hcolumn) rfl
        · exact List.cons_ne_nil _ _
      rw [List.flatMap_singleton] at hown
      rw [rowsOf, hown, fold_combinations plainChildren hchildren child hchild, contribution]
      split
      next hnil => rw [hnil, fold_nulls (plainChildren child hchild)]
      next => exact ih _ ⟨nested child hchild, distinctModels child hchild⟩

/-- The rows of a model make up that model. -/
theorem modelOf_rowsOf (plain : (node table keys columns children).IsPlain)
    (distinct : (node table keys columns children).rowColumns.Nodup)
    (shaped : (node table keys columns children).IsShaped model)
    (ih : ∀ child ∈ children, ∀ models, child.2.IsForest models →
      child.2.fold (models.flatMap child.2.rowsOf) = models) :
    modelOf columns children ((node table keys columns children).rowsOf model) = model := by
  have hnested : ∀ child ∈ children,
      child.2.fold ((node table keys columns children).rowsOf model) = child.1.modelsIn model :=
    fun child hchild => fold_rowsOf_child plain distinct shaped hchild (ih child hchild)
  obtain ⟨first, rest, hrows⟩ :=
    List.exists_cons_of_ne_nil (rowsOf_ne_nil (node table keys columns children) model)
  have hfirst : ∀ column ∈ columns, first.valueOf column.name = model.valueOf column.property := by
    intro column hcolumn
    refine valueOf_of_mem_rowsOf distinct ?_ hcolumn
    rw [hrows]
    exact List.mem_cons_self
  rw [modelOf, documentOf_eq_ofList, Dict.insertAll_ofList]
  cases plain with
  | node hasKey ownKey unchanged =>
  cases shaped with
  | node noOther hasValue spelled nonNull hasModels =>
      refine Dict.ofList_eq (fun e he => ?_) fun property hproperty => ?_
      · rcases List.mem_append.1 he with hflat | hrelated
        · obtain ⟨column, hcolumn, rfl⟩ := List.mem_map.1 hflat
          obtain ⟨value, hvalue⟩ := Option.isSome_iff_exists.1 (hasValue column hcolumn)
          rw [unchanged column hcolumn, hrows, List.headD_cons, Option.getD_none, id_eq,
            hfirst column hcolumn, Dict.valueOf, hvalue, Option.getD_some]
        · obtain ⟨child, hchild, rfl⟩ := List.mem_map.1 hrelated
          rw [hnested child hchild]
          exact hasModels child hchild
      · have hmem := noOther property hproperty
        simpa [flatProperties, Function.comp_def] using hmem

end Forest

/-- Folding undoes flattening: the rows of a forest make up the forest again. -/
theorem fold_flatMap_rowsOf (shape : Shape) (models : List Model) (plain : shape.IsPlain)
    (distinct : shape.rowColumns.Nodup) (forest : shape.IsForest models) :
    shape.fold (models.flatMap shape.rowsOf) = models := by
  induction shape using inductionOn generalizing models with
  | step table keys columns children ih =>
      have hkey : ∀ model ∈ models, ∀ row ∈ rowsOf (node table keys columns children) model,
          row.keyText? keys = some (keyTextOf (node table keys columns children) model) :=
        fun model hmodel _ hrow =>
          keyText?_of_mem_rowsOf plain distinct (forest.shaped model hmodel) hrow
      have hkeys := nodup_keyTextOf plain distinct forest
      have hmodels : ∀ model ∈ models,
          modelOf columns children
            ((models.flatMap (node table keys columns children).rowsOf).filter fun row =>
              row.keyText? keys = some (keyTextOf (node table keys columns children) model)) =
            model := by
        intro model hmodel
        rw [filter_flatMap_own hkey hkeys hmodel]
        apply modelOf_rowsOf plain distinct (forest.shaped model hmodel)
        intro child hchild others hothers
        cases plain with
        | node hasKey ownKey unchanged nested =>
            refine ih child hchild others (nested child hchild) ?_ hothers
            rw [rowColumns, rowColumnsOfEach_eq_flatMap] at distinct
            exact (List.nodup_flatMap.1 (List.nodup_append.1 distinct).2.1).1 child hchild
      rw [fold_node, eraseDups_filterMap_flatMap hkey (fun _ _ => rowsOf_ne_nil _ _) hkeys,
        List.map_map]
      exact (List.map_congr_left hmodels).trans (List.map_id models)

/-- Owners with their cars, the trips of each car, their pets, and the town they live in. -/
def ownerShape : Shape :=
  node { entity := "Owner", name := "owners" } ["o.id"] [{ name := "o.id", property := "id" }]
    [({ owner := "Owner", target := "Car", property := "cars", cardinality := .oneToMany },
      node { entity := "Car", name := "cars" } ["c.id"] [{ name := "c.id", property := "id" }]
        [({ owner := "Car", target := "Trip", property := "trips", cardinality := .oneToMany },
          node { entity := "Trip", name := "trips" } ["t.day"]
            [{ name := "t.day", property := "day" }] [])]),
     ({ owner := "Owner", target := "Pet", property := "pets", cardinality := .oneToMany },
      node { entity := "Pet", name := "pets" } ["p.id"] [{ name := "p.id", property := "id" }] []),
     ({ owner := "Owner", target := "Town", property := "town", cardinality := .manyToOne },
      node { entity := "Town", name := "towns" } ["w.id"]
        [{ name := "w.id", property := "id" }] [])]

/-- One owner with two cars, two pets and a town, and one with nothing. -/
def ownerForest : List Model :=
  let trips := Json.arr [.obj [("day", .num "1")], .obj [("day", .num "2")]]
  let cars := Json.arr [.obj [("id", .str "a"), ("trips", trips)],
    .obj [("id", .str "b"), ("trips", .arr [])]]
  let pets := Json.arr [.obj [("id", .str "p")], .obj [("id", .str "q")]]
  [Dict.ofList [("id", .str "x"), ("cars", cars), ("pets", pets),
      ("town", .obj [("id", .str "w")])],
    Dict.ofList [("id", .str "y"), ("cars", .arr []), ("pets", .arr []), ("town", .null)]]

theorem fold_flatMap_rowsOf_ownerForest :
    ownerShape.IsPlain ∧ ownerShape.rowColumns.Nodup ∧ ownerShape.IsForest ownerForest ∧
      ownerShape.fold (ownerForest.flatMap ownerShape.rowsOf) = ownerForest :=
  ⟨by decide, by decide, by decide,
    fold_flatMap_rowsOf ownerShape ownerForest (by decide) (by decide) (by decide)⟩

end Shape

end EntityQuery
