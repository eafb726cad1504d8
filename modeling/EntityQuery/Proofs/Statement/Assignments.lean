import EntityQuery.Proofs.JoinGraph.Columns
import EntityQuery.Proofs.Parameters.Bindings
import EntityQuery.Proofs.Parameters.Minting
import EntityQuery.Proofs.Values.Statements

/-!
# Assignments of an update

An update that succeeds assigns to each property of its model the column of the
property, under a name made up for it and bound to the saved value
(`forall₂_of_assign`). Properties that have columns to assign fail only at a made-up
name that is bound to another value, the first of them (`assign_cases`). Names that
are made up later do not meet those made up earlier, so what is bound at the start
decides about that, and where none of the names is bound yet the update succeeds
(`exists_assign`).
-/

namespace EntityQuery

theorem exists_of_mem_forall₂ {α β : Type} {R : α → β → Prop} {xs : List α} {ys : List β}
    (h : List.Forall₂ R xs ys) {y : β} (hy : y ∈ ys) : ∃ x ∈ xs, R x y := by
  induction h with
  | nil => cases hy
  | @cons x y' xs ys hfirst _ ih =>
      rcases List.mem_cons.1 hy with rfl | hmem
      · exact ⟨x, List.mem_cons_self, hfirst⟩
      · obtain ⟨x', hx', hR⟩ := ih hmem
        exact ⟨x', List.mem_cons_of_mem _ hx', hR⟩

namespace Update

/-- The name that is made up for a property with a number is bound to another value
than is assigned. -/
def Conflicts (g : JoinGraph) (parameters : Parameters) (n : Nat) (entry : String × Json) : Prop :=
  ∃ c bound, targetOf g entry.1 = .ok c ∧
    parameters.get? (Parameters.mintedName entry.1 n) = some bound ∧
    bound ≠ c.column.saved entry.2

/-- None of the names that are made up for entries in turn is in conflict. -/
def IsConflictFree (g : JoinGraph) (parameters : Parameters) (entries : List (String × Json)) :
    Prop :=
  ∀ pair ∈ entries.zipIdx parameters.next, ¬Conflicts g parameters pair.2 pair.1

variable {g : JoinGraph} {property : String} {c : GraphColumn} {parameters after : Parameters}
  {entry : String × Json} {entries : List (String × Json)} {assignments : List Assignment}

theorem of_targetOf (h : targetOf g property = .ok c) :
    g.column property = .ok c ∧
      (c.alias = g.base.alias ∨ g.dialect.mutationStyle.assignsJoined = true) := by
  obtain ⟨found, hfound, h⟩ := bind_eq_ok.1 h
  dsimp only at h
  split at h
  next => cases h
  next hallowed =>
    obtain rfl := pure_eq_ok.1 h
    refine ⟨hfound, ?_⟩
    simpa [or_iff_not_imp_left] using hallowed

theorem targetOf_of_base (h : g.column property = .ok c) (hbase : c.alias = g.base.alias) :
    targetOf g property = .ok c := by
  refine bind_eq_ok.2 ⟨c, h, ?_⟩
  rw [if_neg fun hother => hother.1 hbase]
  rfl

/-- Each property's column is assigned, and the name made up for it is bound to
the saved value. -/
theorem forall₂_of_assign (h : assign g parameters entries = .ok (assignments, after)) :
    parameters.KeepsTo after ∧
      List.Forall₂ (fun entry a => targetOf g entry.1 = .ok a.column ∧
        after.get? a.placeholder = some (a.column.column.saved entry.2)) entries assignments := by
  induction entries generalizing parameters assignments with
  | nil =>
      cases h
      exact ⟨.refl _, .nil⟩
  | cons entry rest ih =>
      obtain ⟨property, value⟩ := entry
      obtain ⟨column, bound, others, hcolumn, hadd, hothers, rfl⟩ := of_assign_cons h
      obtain ⟨hkept, hvalue⟩ := Parameters.keepsTo_of_add hadd
      obtain ⟨hkept', hrest⟩ := ih hothers
      exact ⟨Parameters.KeepsTo.trans hkept hkept', .cons ⟨hcolumn, hkept' _ _ hvalue⟩ hrest⟩

/-- The columns are those of the properties in their order. -/
theorem columns_of_assign (h : assign g parameters entries = .ok (assignments, after)) :
    assignments.map (fun a => a.column.property) = entries.map Prod.fst ∧
      ∀ a ∈ assignments, a.column ∈ g.columns := by
  obtain ⟨-, hassigned⟩ := forall₂_of_assign h
  clear h
  induction hassigned with
  | nil => exact ⟨rfl, fun _ ha => nomatch ha⟩
  | @cons entry a entries assignments hfirst _ ih =>
      obtain ⟨hcolumn, -⟩ := of_targetOf hfirst.1
      obtain ⟨hmem, hproperty⟩ := JoinGraph.of_column hcolumn
      refine ⟨?_, List.forall_mem_cons.2 ⟨hmem, ih.2⟩⟩
      rw [List.map_cons, List.map_cons, hproperty, ih.1]

/-- The placeholders are made up in turn, and they are what is bound. -/
theorem placeholders_of_assign (h : assign g parameters entries = .ok (assignments, after)) :
    assignments.map Assignment.placeholder =
        Parameters.mintedNames (entries.map Prod.fst) parameters.next ∧
      ∀ key, after.values.contains key =
        (decide (key ∈ assignments.map Assignment.placeholder) ||
          parameters.values.contains key) := by
  induction entries generalizing parameters assignments with
  | nil =>
      cases h
      exact ⟨rfl, fun key => by simp⟩
  | cons entry rest ih =>
      obtain ⟨property, value⟩ := entry
      obtain ⟨column, bound, others, -, hadd, hothers, rfl⟩ := of_assign_cons h
      obtain ⟨hnext, hfirst⟩ := Parameters.of_add hadd
      obtain ⟨hnames, hrest⟩ := ih hothers
      constructor
      · rw [List.map_cons, List.map_cons, Parameters.mintedNames_cons, hnames, hnext]
        rfl
      · intro key
        simp only [hrest, hfirst, List.map_cons, List.mem_cons, Bool.decide_or]
        rw [Bool.or_left_comm, Bool.or_assoc]
        rfl

/-- To bind a made-up name does not change which later names are in conflict. -/
theorem conflicts_iff_of_add {base : String} {value : Json} {n : Nat}
    (h : (parameters.mint base).2.add false (parameters.mint base).1 value = .ok after)
    (later : after.next ≤ n) : Conflicts g after n entry ↔ Conflicts g parameters n entry := by
  have hname : after.get? (Parameters.mintedName entry.1 n) =
      parameters.get? (Parameters.mintedName entry.1 n) := by
    obtain ⟨-, rfl⟩ := Parameters.add_eq_ok_iff.1 h
    rw [Parameters.get?_insert, if_neg]
    · rfl
    · intro heq
      have hn : n = parameters.next := Parameters.mintedName_inj heq
      have hlater : parameters.next + 1 ≤ n := later
      omega
  rw [Conflicts, hname, Conflicts]

/-- Entries that have targets are assigned unless one of their names is in conflict,
and then it is the first of these that is reported. -/
theorem assign_cases (parameters : Parameters)
    (targets : ∀ entry ∈ entries, ∃ c, targetOf g entry.1 = .ok c) :
    (IsConflictFree g parameters entries ∧
      ∃ assignments after, assign g parameters entries = .ok (assignments, after)) ∨
    ∃ before entry later, entries = before ++ entry :: later ∧
      IsConflictFree g parameters before ∧
      Conflicts g parameters (parameters.next + before.length) entry ∧
      assign g parameters entries = .error (.parameterConflict
        (Parameters.mintedName entry.1 (parameters.next + before.length))) := by
  induction entries generalizing parameters with
  | nil => exact .inl ⟨nofun, [], parameters, rfl⟩
  | cons entry rest ih =>
      obtain ⟨⟨c, hc⟩, hrest⟩ := List.forall_mem_cons.1 targets
      rw [assign, hc]
      simp only [Column.save_eq_saved]
      cases hadd : (parameters.mint entry.1).2.add false (parameters.mint entry.1).1
          (c.column.saved entry.2) with
      | error error =>
          obtain ⟨⟨bound, hbound, hne⟩, rfl⟩ := Parameters.add_eq_error_iff.1 hadd
          refine .inr ⟨[], entry, rest, rfl, nofun, ⟨c, bound, hc, hbound, hne⟩, ?_⟩
          exact bind_eq_error.2 (.inr ⟨c, rfl, bind_eq_error.2 (.inl hadd)⟩)
      | ok bound =>
          have hnext : bound.next = parameters.next + 1 := (Parameters.of_add hadd).1
          have hfirst : ¬Conflicts g parameters parameters.next entry := by
            rintro ⟨c', value, hc', hvalue, hne⟩
            obtain rfl : c = c' := Except.ok.inj (hc.symm.trans hc')
            exact hne ((Parameters.add_eq_ok_iff.1 hadd).1 value hvalue)
          have hcons : ∀ others, IsConflictFree g bound others →
              IsConflictFree g parameters (entry :: others) := fun others hfree => by
            refine List.forall_mem_cons.2 ⟨hfirst, fun pair hpair => ?_⟩
            rw [← hnext] at hpair
            exact mt (conflicts_iff_of_add hadd (List.mem_zipIdx hpair).1).2 (hfree pair hpair)
          rcases ih bound hrest with ⟨hfree, others, after, hothers⟩ |
            ⟨before, other, later, rfl, hfree, hconflict, herror⟩
          · refine .inl ⟨hcons rest hfree, ⟨c, (parameters.mint entry.1).1⟩ :: others, after, ?_⟩
            exact bind_eq_ok.2 ⟨c, rfl, bind_eq_ok.2 ⟨bound, hadd,
              bind_eq_ok.2 ⟨(others, after), hothers, rfl⟩⟩⟩
          · have hlength : parameters.next + (entry :: before).length =
                bound.next + before.length := by
              rw [hnext, List.length_cons]
              omega
            refine .inr ⟨entry :: before, other, later, rfl, hcons before hfree, ?_, ?_⟩
            · rw [hlength]
              exact (conflicts_iff_of_add hadd (Nat.le_add_right _ _)).1 hconflict
            · rw [hlength]
              exact bind_eq_error.2 (.inr ⟨c, rfl, bind_eq_error.2 (.inr ⟨bound, hadd,
                bind_eq_error.2 (.inl herror)⟩)⟩)

/-- Where no name is bound yet that will be made up, the properties alone
decide whether they can be assigned. -/
theorem exists_assign_of_unbound
    (unbound : ∀ name ∈ Parameters.mintedNames (entries.map Prod.fst) parameters.next,
      parameters.get? name = none)
    (targets : ∀ entry ∈ entries, ∃ c, targetOf g entry.1 = .ok c) :
    ∃ assignments after, assign g parameters entries = .ok (assignments, after) := by
  rcases assign_cases parameters targets with ⟨-, hassign⟩ |
    ⟨before, entry, later, rfl, -, ⟨c, bound, -, hbound, -⟩, -⟩
  · exact hassign
  · rw [unbound _ (Parameters.mintedName_mem_mintedNames before entry later _)] at hbound
    cases hbound

theorem exists_assign (fresh : parameters.IsFresh)
    (targets : ∀ entry ∈ entries, ∃ c, targetOf g entry.1 = .ok c) :
    ∃ assignments after, assign g parameters entries = .ok (assignments, after) := by
  refine exists_assign_of_unbound (fun name hname => ?_) targets
  obtain ⟨base, n, hlow, -, rfl⟩ := Parameters.exists_of_mem_mintedNames hname
  exact fresh base n hlow

theorem of_ofModel {model : Model} {u : Update} (h : ofModel g model = .ok u) :
    ∃ assignments after, assign g g.parameters model.entries = .ok (assignments, after) ∧
      u = { graph := { g with parameters := after }, assignments } := by
  obtain ⟨⟨assignments, after⟩, hassign, h⟩ := bind_eq_ok.1 h
  exact ⟨assignments, after, hassign, (pure_eq_ok.1 h).symm⟩

end Update

end EntityQuery
