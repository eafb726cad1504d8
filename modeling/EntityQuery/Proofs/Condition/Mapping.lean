import EntityQuery.Proofs.Condition.Naming

/-!
# Conditions over columns

A condition that was read is readable still once its properties have been
replaced by columns under aliases (`isReadable_of_rename`), so what is said of
its text holds whatever the columns are called.
-/

namespace EntityQuery.Condition

variable {lookup : String → Option String}

/-! ### What other names leave -/

theorem leaves_mapColumns (f : String → String) (condition : Condition) :
    (condition.mapColumns f).leaves = condition.leaves.map (Operand.mapColumn f) := by
  induction condition using inductionOn with
  | comparison op column value => rfl
  | nullTest op column => rfl
  | membership op column values => rfl
  | boolean op conditions ih =>
      rw [mapColumns, leaves, leaves, leavesIn_eq_flatMap, leavesIn_eq_flatMap,
        mapColumnsIn_eq_map, List.flatMap_map, List.map_flatMap]
      exact List.flatMap_congr ih

theorem isWellKinded_mapColumns (f : String → String) (condition : Condition) :
    (condition.mapColumns f).isWellKinded = condition.isWellKinded := by
  induction condition using inductionOn with
  | comparison op column value => rfl
  | nullTest op column => rfl
  | membership op column values => rw [mapColumns, isWellKinded, isWellKinded, List.isEmpty_map]
  | boolean op conditions ih =>
      have hconditions :
          areWellKinded (conditions.map (mapColumns f)) = areWellKinded conditions := by
        rw [Bool.eq_iff_iff, areWellKinded_iff, areWellKinded_iff, List.forall_mem_map]
        exact forall₂_congr fun c hc => by rw [ih c hc]
      rw [mapColumns, isWellKinded, isWellKinded, mapColumnsIn_eq_map, List.isEmpty_map,
        hconditions]

/-- The mentions of columns are among the columns and operands. -/
theorem mentions_eq_filterMap_leaves (condition : Condition) :
    condition.mentions = condition.leaves.filterMap Operand.column? := by
  induction condition using inductionOn with
  | comparison op column value => cases value <;> rfl
  | nullTest op column => rfl
  | membership op column values => rfl
  | boolean op conditions ih =>
      rw [mentions, leaves, mentionsIn_eq_flatMap, leavesIn_eq_flatMap, List.filterMap_flatMap]
      exact List.flatMap_congr ih

theorem mem_mentions {condition : Condition} {column : String} :
    column ∈ condition.mentions ↔ .column column ∈ condition.leaves := by
  rw [mentions_eq_filterMap_leaves, List.mem_filterMap]
  constructor
  · rintro ⟨value, hvalue, hcolumn⟩
    cases value with
    | column name => exact Option.some.inj hcolumn ▸ hvalue
    | parameter name => cases hcolumn
    | number spelling => cases hcolumn
  · exact fun h => ⟨_, h, rfl⟩

/-- Where an operand of a renamed condition comes from: it is one of those
before, or the column of a property. -/
def IsRenamed (lookup : String → Option String) (values : List Operand) (value : Operand) :
    Prop :=
  value ∈ values ∨ ∃ property name, lookup property = some name ∧ value = .column name

/-- Renaming keeps the form of a condition, its placeholders and its numbers. -/
theorem of_rename {condition renamed : Condition} (h : condition.rename lookup = .ok renamed) :
    renamed.isWellKinded = condition.isWellKinded ∧
      ∀ value ∈ renamed.leaves, IsRenamed lookup condition.operands value := by
  obtain ⟨hnamed, rfl⟩ := rename_eq_ok_iff.1 h
  refine ⟨isWellKinded_mapColumns _ condition, fun value hvalue => ?_⟩
  rw [leaves_mapColumns] at hvalue
  obtain ⟨before, hbefore, rfl⟩ := List.mem_map.1 hvalue
  cases before with
  | column property =>
      have hmention := mem_columns.2 (mem_mentions.2 hbefore)
      obtain ⟨name, hname⟩ := Option.ne_none_iff_exists'.1 (hnamed property hmention)
      exact .inr ⟨property, name, hname, congrArg Operand.column (nameIn_of_some hname)⟩
  | parameter name => exact .inl (mem_operands_of_mem_leaves hbefore rfl)
  | number spelling => exact .inl (mem_operands_of_mem_leaves hbefore rfl)

/-- What was read from a text and renamed is readable in SQL, if its placeholders
consist of word characters and its columns are under aliases. -/
theorem isReadable_of_rename {source : String} {condition renamed : Condition}
    (h : parse source = .ok condition)
    (named : ∀ name ∈ condition.parameters, name.toList.all Unicode.isWord = true)
    (columns : ∀ property name, lookup property = some name →
      (Operand.column name).isGenuine = true)
    (hrenamed : condition.rename lookup = .ok renamed) : renamed.IsReadable := by
  obtain ⟨hkinded, hleaves⟩ := of_rename hrenamed
  obtain ⟨hread, hgenuine⟩ := isGenuine_of_parse h
  refine ⟨hkinded.trans hread, fun value hvalue => ?_⟩
  rcases hleaves value hvalue with hold | ⟨property, name, hname, rfl⟩
  · refine ⟨hgenuine value (mem_leaves_of_mem_operands hold), fun name hname => named name ?_⟩
    cases value with
    | column column => cases hname
    | number spelling => cases hname
    | parameter name' => exact Option.some.inj hname ▸ mem_parameters.2 hold
  · exact ⟨columns property name hname, fun _ hparameter => nomatch hparameter⟩

end EntityQuery.Condition
