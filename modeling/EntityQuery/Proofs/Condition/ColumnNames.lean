import EntityQuery.Condition.Renaming
import EntityQuery.Proofs.Condition.Grammar
import EntityQuery.Proofs.Except
import EntityQuery.Proofs.FirstOccurrence

/-!
# Columns under other names

To rename a condition is to put a new name for every mention of a column
(`Condition.mapColumns`), as long as every column has one; otherwise the first
column without a name is reported (`Condition.rename_eq`). So everything but the
columns stays. To rename by two look-ups in turn is to rename by both together, and
a look-up that leads back undoes the renaming (`Condition.rename_replaces_columns`).
-/

namespace EntityQuery

namespace Operand

/-- An operand with another name for its column. -/
def mapColumn (f : String → String) : Operand → Operand
  | column name => .column (f name)
  | parameter name => .parameter name
  | number spelling => .number spelling

theorem column?_mapColumn (f : String → String) (value : Operand) :
    (value.mapColumn f).column? = value.column?.map f := by
  cases value <;> rfl

theorem parameter?_mapColumn (f : String → String) (value : Operand) :
    (value.mapColumn f).parameter? = value.parameter? := by
  cases value <;> rfl

theorem mapColumn_congr {f g : String → String} {value : Operand}
    (h : ∀ column ∈ value.column?, f column = g column) : value.mapColumn f = value.mapColumn g := by
  cases value with
  | column name => exact congrArg column (h name rfl)
  | parameter name => rfl
  | number spelling => rfl

theorem mapColumn_mapColumn (f g : String → String) (value : Operand) :
    (value.mapColumn f).mapColumn g = value.mapColumn (g ∘ f) := by
  cases value <;> rfl

theorem mapColumn_id (value : Operand) : value.mapColumn id = value := by
  cases value <;> rfl

end Operand

namespace Condition

mutual

/-- A condition with another name for each mention of a column. -/
def mapColumns (f : String → String) : Condition → Condition
  | comparison op column value => .comparison op (f column) (value.mapColumn f)
  | nullTest op column => .nullTest op (f column)
  | membership op column values => .membership op (f column) (values.map (Operand.mapColumn f))
  | boolean op conditions => .boolean op (mapColumnsIn f conditions)

/-- Each of some conditions with another name for each mention of a column. -/
def mapColumnsIn (f : String → String) : List Condition → List Condition
  | [] => []
  | condition :: rest => mapColumns f condition :: mapColumnsIn f rest

end

theorem mapColumnsIn_eq_map (f : String → String) (conditions : List Condition) :
    mapColumnsIn f conditions = conditions.map (mapColumns f) := by
  induction conditions with
  | nil => rfl
  | cons condition rest ih => rw [mapColumnsIn, ih, List.map_cons]

theorem mentionsIn_eq_flatMap (conditions : List Condition) :
    mentionsIn conditions = conditions.flatMap mentions := by
  induction conditions with
  | nil => rfl
  | cons condition rest ih => rw [mentionsIn, ih, List.flatMap_cons]

theorem operandsIn_eq_flatMap (conditions : List Condition) :
    operandsIn conditions = conditions.flatMap operands := by
  induction conditions with
  | nil => rfl
  | cons condition rest ih => rw [operandsIn, ih, List.flatMap_cons]

theorem renameList_eq_mapM (lookup : String → Option String) (conditions : List Condition) :
    renameList lookup conditions = conditions.mapM (rename lookup) := by
  induction conditions with
  | nil => rfl
  | cons condition rest ih => rw [renameList, ih, List.mapM_cons]

/-! ### What other names change -/

variable {f g : String → String} {condition : Condition}

/-- The mentions of columns are renamed where they stand. -/
theorem mentions_mapColumns (f : String → String) (condition : Condition) :
    (condition.mapColumns f).mentions = condition.mentions.map f := by
  induction condition using inductionOn with
  | comparison op column value => cases value <;> rfl
  | nullTest op column => rfl
  | membership op column values =>
      rw [mapColumns, mentions, mentions, List.filterMap_map, List.map_cons, List.map_filterMap]
      exact congrArg _ (List.filterMap_congr fun value _ => Operand.column?_mapColumn f value)
  | boolean op conditions ih =>
      rw [mapColumns, mentions, mentions, mentionsIn_eq_flatMap, mentionsIn_eq_flatMap,
        mapColumnsIn_eq_map, List.flatMap_map, List.map_flatMap]
      exact List.flatMap_congr ih

theorem operands_mapColumns (f : String → String) (condition : Condition) :
    (condition.mapColumns f).operands = condition.operands.map (Operand.mapColumn f) := by
  induction condition using inductionOn with
  | comparison op column value => rfl
  | nullTest op column => rfl
  | membership op column values => rfl
  | boolean op conditions ih =>
      rw [mapColumns, operands, operands, operandsIn_eq_flatMap, operandsIn_eq_flatMap,
        mapColumnsIn_eq_map, List.flatMap_map, List.map_flatMap]
      exact List.flatMap_congr ih

theorem columns_mapColumns (f : String → String) (condition : Condition) :
    (condition.mapColumns f).columns = (condition.columns.map f).eraseDups := by
  rw [columns, columns, mentions_mapColumns, eraseDups_map_eraseDups]

theorem parameters_mapColumns (f : String → String) (condition : Condition) :
    (condition.mapColumns f).parameters = condition.parameters := by
  rw [parameters, parameters, operands_mapColumns, List.filterMap_map]
  exact congrArg _ (List.filterMap_congr fun value _ => Operand.parameter?_mapColumn f value)

/-- Only the names of columns that are mentioned matter. -/
theorem mapColumns_congr (h : ∀ column ∈ condition.mentions, f column = g column) :
    condition.mapColumns f = condition.mapColumns g := by
  induction condition using inductionOn with
  | comparison op column value =>
      obtain ⟨hcolumn, hvalue⟩ := List.forall_mem_cons.1 h
      rw [mapColumns, mapColumns, hcolumn,
        Operand.mapColumn_congr fun c hc => hvalue c (Option.mem_toList.2 hc)]
  | nullTest op column =>
      rw [mapColumns, mapColumns, h column List.mem_cons_self]
  | membership op column values =>
      obtain ⟨hcolumn, hvalues⟩ := List.forall_mem_cons.1 h
      rw [mapColumns, mapColumns, hcolumn]
      congr 1
      refine List.map_congr_left fun value hvalue => Operand.mapColumn_congr fun c hc => ?_
      exact hvalues c (List.mem_filterMap.2 ⟨value, hvalue, hc⟩)
  | boolean op conditions ih =>
      rw [mentions, mentionsIn_eq_flatMap] at h
      rw [mapColumns, mapColumns, mapColumnsIn_eq_map, mapColumnsIn_eq_map]
      congr 1
      exact List.map_congr_left fun c hc =>
        ih c hc fun column hcolumn => h column (List.mem_flatMap_of_mem hc hcolumn)

theorem mapColumns_mapColumns (f g : String → String) (condition : Condition) :
    (condition.mapColumns f).mapColumns g = condition.mapColumns (g ∘ f) := by
  induction condition using inductionOn with
  | comparison op column value =>
      rw [mapColumns, mapColumns, mapColumns, Operand.mapColumn_mapColumn]
      rfl
  | nullTest op column => rfl
  | membership op column values =>
      rw [mapColumns, mapColumns, mapColumns, List.map_map]
      congr 1
      exact List.map_congr_left fun value _ => Operand.mapColumn_mapColumn f g value
  | boolean op conditions ih =>
      rw [mapColumns, mapColumns, mapColumns, mapColumnsIn_eq_map, mapColumnsIn_eq_map,
        mapColumnsIn_eq_map, List.map_map]
      congr 1
      exact List.map_congr_left ih

theorem mapColumns_id (condition : Condition) : condition.mapColumns id = condition := by
  induction condition using inductionOn with
  | comparison op column value =>
      rw [mapColumns, Operand.mapColumn_id]
      rfl
  | nullTest op column => rfl
  | membership op column values =>
      have hvalues : values.map (Operand.mapColumn id) = values.map id :=
        List.map_congr_left fun value _ => Operand.mapColumn_id value
      rw [mapColumns, hvalues, List.map_id]
      rfl
  | boolean op conditions ih =>
      have hconditions : conditions.map (mapColumns id) = conditions.map id :=
        List.map_congr_left ih
      rw [mapColumns, mapColumnsIn_eq_map, hconditions, List.map_id]

/-! ### Renaming by a look-up -/

section Needing

variable {α β : Type} {lookup : String → Option String}

/-- An outcome that needs a name for each of some columns. The first column without
one is reported. -/
def needing (lookup : String → Option String) (columns : List String) (a : α) : Except Error α :=
  match columns.find? fun column => (lookup column).isNone with
  | some column => .error (.unmappedColumn column)
  | none => .ok a

/-- What is needed by two steps is needed in turn. -/
theorem needing_bind (columns more : List String) (a : α) (k : α → β) :
    (needing lookup columns a >>= fun a => needing lookup more (k a)) =
      needing lookup (columns ++ more) (k a) := by
  rw [needing, needing, List.find?_append]
  cases columns.find? fun column => (lookup column).isNone with
  | some column => rfl
  | none => rfl

theorem needing_bind_pure (columns : List String) (a : α) (k : α → β) :
    (needing lookup columns a >>= fun a => pure (k a)) = needing lookup columns (k a) := by
  rw [needing, needing]
  cases columns.find? fun column => (lookup column).isNone with
  | some column => rfl
  | none => rfl

/-- What each element of a list needs, the list needs in order. -/
theorem mapM_needing {step : α → Except Error β} {needs : α → List String} {k : α → β}
    {xs : List α} (h : ∀ x ∈ xs, step x = needing lookup (needs x) (k x)) :
    xs.mapM step = needing lookup (xs.flatMap needs) (xs.map k) := by
  induction xs with
  | nil => rfl
  | cons x xs ih =>
      obtain ⟨hx, hxs⟩ := List.forall_mem_cons.1 h
      rw [List.mapM_cons, hx, ih hxs, List.flatMap_cons, List.map_cons]
      simp only [needing_bind_pure, needing_bind]

theorem needing_eq_ok_iff {columns : List String} {a b : α} :
    needing lookup columns a = .ok b ↔ (∀ column ∈ columns, lookup column ≠ none) ∧ a = b := by
  rw [needing]
  split
  next column hfound =>
    have hnone := List.find?_some hfound
    have hmem := List.mem_of_find?_eq_some hfound
    refine iff_of_false nofun fun h => h.1 column hmem (Option.isNone_iff_eq_none.1 hnone)
  next hfound =>
    have hall : ∀ column ∈ columns, lookup column ≠ none := by
      simpa using List.find?_eq_none.1 hfound
    rw [Except.ok.injEq, and_iff_right hall]

end Needing

variable {lookup other : String → Option String} {renamed result : Condition}

/-- The new name of a column; a column without one keeps its name. -/
def nameIn (lookup : String → Option String) (column : String) : String :=
  (lookup column).getD column

theorem nameIn_of_some {column name : String} (h : lookup column = some name) :
    nameIn lookup column = name := by
  rw [nameIn, h, Option.getD_some]

theorem renameColumn_eq (lookup : String → Option String) (column : String) :
    renameColumn lookup column = needing lookup [column] (nameIn lookup column) := by
  rw [renameColumn, needing, List.find?_singleton, nameIn]
  cases lookup column <;> rfl

theorem renameOperand_eq (lookup : String → Option String) (value : Operand) :
    renameOperand lookup value =
      needing lookup value.column?.toList (value.mapColumn (nameIn lookup)) := by
  cases value with
  | column name =>
      rw [renameOperand, renameColumn_eq]
      exact needing_bind_pure [name] _ Operand.column
  | parameter name => rfl
  | number spelling => rfl

/-- Renaming puts the new name for each mention of a column, or reports the first
mention without one. -/
theorem rename_eq (lookup : String → Option String) (condition : Condition) :
    condition.rename lookup =
      needing lookup condition.mentions (condition.mapColumns (nameIn lookup)) := by
  induction condition using inductionOn with
  | comparison op column value =>
      rw [rename, renameColumn_eq, renameOperand_eq]
      simp only [needing_bind_pure, needing_bind]
      rfl
  | nullTest op column =>
      rw [rename, renameColumn_eq]
      exact needing_bind_pure [column] _ _
  | membership op column values =>
      rw [rename, renameColumn_eq, mapM_needing fun value _ => renameOperand_eq lookup value,
        ← List.filterMap_eq_flatMap_toList]
      simp only [needing_bind_pure, needing_bind]
      rfl
  | boolean op conditions ih =>
      rw [rename, renameList_eq_mapM, mapM_needing ih, ← mentionsIn_eq_flatMap,
        ← mapColumnsIn_eq_map]
      exact needing_bind_pure _ _ _

theorem mem_columns {column : String} : column ∈ condition.columns ↔ column ∈ condition.mentions :=
  List.mem_eraseDups

theorem rename_eq_ok_iff :
    condition.rename lookup = .ok renamed ↔
      (∀ column ∈ condition.columns, lookup column ≠ none) ∧
        condition.mapColumns (nameIn lookup) = renamed := by
  rw [rename_eq, needing_eq_ok_iff]
  simp only [mem_columns]

theorem rename_eq_error_iff {e : Error} :
    condition.rename lookup = .error e ↔
      ∃ column, condition.columns.find? (fun column => (lookup column).isNone) = some column ∧
        e = .unmappedColumn column := by
  rw [rename_eq, needing, columns, find?_eraseDups]
  cases condition.mentions.find? fun column => (lookup column).isNone with
  | some column => simp [eq_comm]
  | none => simp

/-- To rename twice is to rename by both look-ups together. -/
theorem rename_rename (h : condition.rename lookup = .ok renamed) :
    renamed.rename other = .ok result ↔
      condition.rename (fun column => lookup column >>= other) = .ok result := by
  obtain ⟨hnamed, rfl⟩ := rename_eq_ok_iff.1 h
  have htwice : ∀ column ∈ condition.columns,
      (lookup column >>= other) = other (nameIn lookup column) := by
    intro column hcolumn
    obtain ⟨name, hname⟩ := Option.ne_none_iff_exists'.1 (hnamed column hcolumn)
    rw [nameIn_of_some hname, hname]
    rfl
  have hneeds : (∀ column ∈ (condition.mapColumns (nameIn lookup)).columns,
      other column ≠ none) ↔ ∀ column ∈ condition.columns, (lookup column >>= other) ≠ none := by
    rw [columns_mapColumns]
    simp only [List.mem_eraseDups, List.forall_mem_map]
    exact forall₂_congr fun column hcolumn => by rw [htwice column hcolumn]
  rw [rename_eq_ok_iff, rename_eq_ok_iff, hneeds, mapColumns_mapColumns]
  refine and_congr_right fun hall => ?_
  rw [mapColumns_congr fun column hcolumn => ?_]
  have hmem := mem_columns.2 hcolumn
  obtain ⟨name, hname⟩ := Option.ne_none_iff_exists'.1 (hall column hmem)
  rw [Function.comp_apply, nameIn_of_some ((htwice column hmem).symm.trans hname),
    nameIn_of_some hname]

theorem columns_of_rename (h : condition.rename lookup = .ok renamed) :
    renamed.columns = (condition.columns.filterMap lookup).eraseDups := by
  obtain ⟨hnamed, rfl⟩ := rename_eq_ok_iff.1 h
  have hnames : condition.columns.filterMap lookup = condition.columns.map (nameIn lookup) := by
    rw [← List.filterMap_eq_map]
    refine List.filterMap_congr fun column hcolumn => ?_
    obtain ⟨name, hname⟩ := Option.ne_none_iff_exists'.1 (hnamed column hcolumn)
    rw [Function.comp_apply, nameIn_of_some hname, hname]
  rw [columns_mapColumns, hnames]

/-- A look-up that gives every column its own name changes nothing. -/
theorem rename_eq_self (h : ∀ column ∈ condition.columns, lookup column = some column) :
    condition.rename lookup = .ok condition := by
  rw [rename_eq_ok_iff]
  refine ⟨fun column hcolumn => ?_, ?_⟩
  · rw [h column hcolumn]
    exact Option.some_ne_none column
  · rw [mapColumns_congr fun column hcolumn => nameIn_of_some (h column (mem_columns.2 hcolumn))]
    exact mapColumns_id condition

/-- Renaming fails exactly if some column has no name, for the first such column.
Otherwise it keeps everything but the columns, which get their names; to rename again is
to rename by both look-ups together, and by a look-up that leads back it is undone. -/
theorem rename_replaces_columns (condition : Condition) (lookup : String → Option String) :
    ((∃ e, condition.rename lookup = .error e) ↔
      ∃ column ∈ condition.columns, lookup column = none) ∧
    (∀ e, condition.rename lookup = .error e →
      ∃ column, condition.columns.find? (fun column => (lookup column).isNone) = some column ∧
        e = .unmappedColumn column) ∧
    ∀ renamed, condition.rename lookup = .ok renamed →
      renamed = condition.mapColumns (nameIn lookup) ∧
      renamed.columns = (condition.columns.filterMap lookup).eraseDups ∧
      renamed.parameters = condition.parameters ∧
      (∀ other result, renamed.rename other = .ok result ↔
        condition.rename (fun column => lookup column >>= other) = .ok result) ∧
      ∀ other, (∀ column ∈ condition.columns, (lookup column >>= other) = some column) →
        renamed.rename other = .ok condition := by
  refine ⟨?_, fun e => rename_eq_error_iff.1, fun renamed h => ?_⟩
  · simp only [rename_eq_error_iff]
    constructor
    · rintro ⟨e, column, hfound, -⟩
      have hnone := List.find?_some hfound
      exact ⟨column, List.mem_of_find?_eq_some hfound, Option.isNone_iff_eq_none.1 hnone⟩
    · rintro ⟨column, hcolumn, hnone⟩
      have hsome : (condition.columns.find? fun column => (lookup column).isNone).isSome := by
        rw [List.find?_isSome]
        exact ⟨column, hcolumn, Option.isNone_iff_eq_none.2 hnone⟩
      obtain ⟨first, hfirst⟩ := Option.isSome_iff_exists.1 hsome
      exact ⟨_, first, hfirst, rfl⟩
  · obtain ⟨-, hrenamed⟩ := rename_eq_ok_iff.1 h
    refine ⟨hrenamed.symm, columns_of_rename h, ?_, fun other result => rename_rename h,
      fun other hback => (rename_rename h).2 (rename_eq_self hback)⟩
    rw [← hrenamed, parameters_mapColumns]

end Condition

end EntityQuery
