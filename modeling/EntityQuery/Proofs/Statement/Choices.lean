import EntityQuery.Proofs.JoinGraph.Columns
import EntityQuery.Proofs.Values.Statements

/-!
# Choices of properties

Before it runs, a selection takes calls that choose properties, give the order
and ask for a page. Properties are accepted exactly if they are available and
distinct and have the key of every table among them (`select_eq_ok_iff`), so a
selection that has been built by calls reads the keys of all its tables
(`exists_keyColumn`).
-/

namespace EntityQuery

/-- Properties that tell the rows of all tables apart. -/
structure JoinGraph.IsChoice (g : JoinGraph) (properties : List String) : Prop where
  available : ∀ property ∈ properties, g.isAvailable property = true
  nodup : properties.Nodup
  keyed : ∀ t ∈ g.tables, ∀ key ∈ t.keyColumns, key.property ∈ properties

namespace Select

variable {g : JoinGraph} {s s' : Select} {properties : List String}

/-! ### What is accepted -/

theorem checkProperties_eq_ok {seen : List String} :
    checkProperties g seen properties = .ok () ↔
      (∀ property ∈ properties, ∃ c, g.column property = .ok c) ∧ properties.Nodup ∧
        ∀ property ∈ properties, property ∉ seen := by
  induction properties generalizing seen with
  | nil => simp [checkProperties]
  | cons property rest ih =>
      rw [checkProperties, bind_eq_ok, List.forall_mem_cons, List.forall_mem_cons,
        List.nodup_cons]
      constructor
      · rintro ⟨c, hc, h⟩
        dsimp only at h
        split at h
        next => cases h
        next hunseen =>
          obtain ⟨havailable, hnodup, hseen⟩ := ih.1 h
          refine ⟨⟨⟨c, hc⟩, havailable⟩, ⟨fun hmem => ?_, hnodup⟩, hunseen, fun p hp hps => ?_⟩
          · exact hseen property hmem List.mem_cons_self
          · exact hseen p hp (List.mem_cons_of_mem _ hps)
      · rintro ⟨⟨⟨c, hc⟩, havailable⟩, ⟨hfresh, hnodup⟩, hunseen, hseen⟩
        refine ⟨c, hc, ?_⟩
        dsimp only
        rw [if_neg hunseen]
        refine ih.2 ⟨havailable, hnodup, fun p hp hps => ?_⟩
        rcases List.mem_cons.1 hps with rfl | hps
        · exact hfresh hp
        · exact hseen p hp hps

theorem checkKeys_eq_ok {tables : List GraphTable} : checkKeys properties tables = .ok () ↔
    ∀ t ∈ tables, ∀ key ∈ t.keyColumns, key.property ∈ properties := by
  induction tables with
  | nil => simp [checkKeys]
  | cons t rest ih =>
      have hkeys : (t.keyColumns.all fun key => decide (key.property ∈ properties)) = true ↔
          ∀ key ∈ t.keyColumns, key.property ∈ properties := by
        simp only [List.all_eq_true, decide_eq_true_eq]
      rw [checkKeys, List.forall_mem_cons, ← hkeys, ← ih]
      split
      next h => exact (and_iff_right h).symm
      next h => exact iff_of_false (fun hok => nomatch hok) fun hand => h hand.1

/-- A first choice that is not empty is accepted exactly if its properties are
available and distinct, with the key of every table among them. -/
theorem select_eq_ok_iff (h : s.graph.IsCoherent) (first : s.selected = none)
    (given : properties ≠ []) :
    (∃ s', s.select properties = .ok s') ↔ s.graph.IsChoice properties := by
  have hnone : ¬s.selected.isSome = true := by simp [first]
  have hgiven : (!properties.isEmpty) = true := by simpa using given
  have hselect : (∃ s', s.select properties = .ok s') ↔
      checkProperties s.graph [] properties = .ok () ∧
        checkKeys properties s.graph.tables = .ok () := by
    unfold select
    dsimp only
    rw [if_neg hnone, if_pos hgiven]
    constructor
    · rintro ⟨s', hs'⟩
      obtain ⟨_, hproperties, hs'⟩ := bind_eq_ok.1 hs'
      obtain ⟨_, hkeys, -⟩ := bind_eq_ok.1 hs'
      exact ⟨hproperties, hkeys⟩
    · rintro ⟨hproperties, hkeys⟩
      exact ⟨_, bind_eq_ok.2 ⟨(), hproperties, bind_eq_ok.2 ⟨(), hkeys, rfl⟩⟩⟩
  rw [hselect, checkProperties_eq_ok, checkKeys_eq_ok]
  constructor
  · rintro ⟨⟨havailable, hnodup, -⟩, hkeys⟩
    refine ⟨fun property hmem => ?_, hnodup, hkeys⟩
    exact h.isAvailable_iff.2 (JoinGraph.exists_column_iff.1 (havailable property hmem))
  · rintro ⟨havailable, hnodup, hkeys⟩
    refine ⟨⟨fun property hmem => ?_, hnodup, fun _ _ => List.not_mem_nil⟩, hkeys⟩
    exact JoinGraph.exists_column_iff.2 (h.isAvailable_iff.1 (havailable property hmem))

/-! ### Calls -/

/-- A call that takes a selection further. -/
inductive Call where
  | select (properties : List String)
  | orderBy (items : List (String × SortDirection))
  | take (count : UInt64) (offset : Option UInt64)

/-- The selection after a call. -/
def call (s : Select) : Call → Except QueryError Select
  | .select properties => s.select properties
  | .orderBy items => s.orderBy items
  | .take count offset => s.take count offset

/-- What has been chosen of the graph, unless it is empty, was accepted. -/
def IsSound (s : Select) : Prop :=
  ∀ properties ∈ s.selected, properties ≠ [] → s.graph.IsChoice properties

theorem IsSound.call (h : s.IsSound) (coherent : s.graph.IsCoherent) {call : Call}
    (hs : s.call call = .ok s') : s'.graph = s.graph ∧ s'.IsSound := by
  cases call with
  | select properties =>
      have hfirst : s.selected = none := by
        refine Option.not_isSome_iff_eq_none.1 fun hsome => ?_
        rw [Select.call, Select.select] at hs
        dsimp only at hs
        rw [if_pos hsome] at hs
        cases hs
      obtain rfl := eq_of_select hs
      refine ⟨rfl, fun chosen hchosen given => ?_⟩
      obtain rfl := Option.some.inj hchosen
      exact (select_eq_ok_iff coherent hfirst given).1 ⟨_, hs⟩
  | orderBy items =>
      obtain ⟨order, -, hs⟩ := bind_eq_ok.1 hs
      obtain rfl := pure_eq_ok.1 hs
      exact ⟨rfl, h⟩
  | take count offset =>
      rw [Select.call, Select.take] at hs
      split at hs
      next => cases hs
      next =>
        cases hs
        exact ⟨rfl, h⟩

/-- Calls leave the graph, and what they choose was accepted. -/
theorem IsSound.foldlM_call (h : s.IsSound) (coherent : s.graph.IsCoherent) {calls : List Call}
    (hs : calls.foldlM Select.call s = .ok s') : s'.graph = s.graph ∧ s'.IsSound := by
  induction calls generalizing s with
  | nil =>
      obtain rfl := pure_eq_ok.1 hs
      exact ⟨rfl, h⟩
  | cons call rest ih =>
      rw [List.foldlM_cons] at hs
      obtain ⟨next, hnext, hs⟩ := bind_eq_ok.1 hs
      obtain ⟨hgraph, hsound⟩ := h.call coherent hnext
      obtain ⟨hgraph', hsound'⟩ := ih hsound (hgraph ▸ coherent) hs
      exact ⟨hgraph'.trans hgraph, hsound'⟩

/-! ### The selected columns -/

/-- The properties of the selected columns, which name them in the result. -/
def names (s : Select) : List String := s.columns.map GraphColumn.property

theorem mem_graph_columns {c : GraphColumn} (hc : c ∈ s.columns) : c ∈ s.graph.columns := by
  unfold columns at hc
  split at hc
  next => exact hc
  next => exact hc
  next =>
    obtain ⟨property, -, hfound⟩ := List.mem_filterMap.1 hc
    exact List.mem_of_find?_eq_some hfound

/-- All columns are selected, or those of a choice. -/
theorem columns_eq_or (h : s.IsSound) (coherent : s.graph.IsCoherent) :
    s.columns = s.graph.columns ∨ s.graph.IsChoice s.names := by
  unfold names columns
  split
  next => exact .inl rfl
  next => exact .inl rfl
  next properties given hselected =>
    have hchoice := h properties hselected given
    have hnames : (properties.filterMap s.graph.column?).map GraphColumn.property =
        properties := by
      rw [List.map_filterMap]
      refine (List.filterMap_congr fun property hmem => ?_).trans List.filterMap_some
      obtain ⟨c, hc⟩ :=
        JoinGraph.exists_column_iff.2 (coherent.isAvailable_iff.1 (hchoice.available _ hmem))
      rw [JoinGraph.column] at hc
      split at hc
      next found hfound =>
        have hproperty := List.find?_some hfound
        rw [hfound, Option.map_some, of_decide_eq_true hproperty]
      next => cases hc
    exact .inr (hnames.symm ▸ hchoice)

/-- Every key column of every table is selected, under the alias of the table. -/
theorem exists_keyColumn (h : s.IsSound) (coherent : s.graph.IsCoherent) {t : GraphTable}
    (ht : t ∈ s.graph.tables) {key : GraphColumn} (hkey : key ∈ t.keyColumns) :
    ∃ c ∈ s.columns, c.alias = t.alias ∧ c.property = key.property := by
  have hmem := coherent.mem_columns_of_keyColumns ht hkey
  have halias : key.alias = t.alias := by
    obtain ⟨_, -, rfl⟩ := List.mem_map.1 hkey
    rfl
  rcases columns_eq_or h coherent with hall | hchoice
  · exact ⟨key, hall ▸ hmem, halias, rfl⟩
  · obtain ⟨c, hc, hproperty⟩ := List.mem_map.1 (hchoice.keyed t ht key hkey)
    have hsame := coherent.eq_of_property_eq (mem_graph_columns hc) hmem hproperty
    exact ⟨c, hc, hsame.1.trans halias, hproperty⟩

end Select

end EntityQuery
