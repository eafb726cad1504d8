import EntityQuery.Proofs.Dict
import EntityQuery.Proofs.Parameters

/-!
# Values of parameters

Without leave to overwrite, a name that has been bound keeps its value, and to
bind names succeeds exactly where none of them has another value
(`extend_eq_ok_iff`). The parameters are described by their look-ups.
-/

namespace EntityQuery.Parameters

/-- Every name that is bound before is bound to the same value after. -/
def KeepsTo (before after : Parameters) : Prop :=
  ∀ name value, before.get? name = some value → after.get? name = some value

variable {parameters before between after : Parameters}

theorem KeepsTo.refl (parameters : Parameters) : parameters.KeepsTo parameters :=
  fun _ _ h => h

theorem KeepsTo.trans (h : before.KeepsTo between) (h' : between.KeepsTo after) :
    before.KeepsTo after :=
  fun name value hname => h' name value (h name value hname)

theorem get?_insert (parameters : Parameters) (name key : String) (value : Json) :
    ({ parameters with values := parameters.values.insert name value } : Parameters).get? key =
      if key = name then some value else parameters.get? key :=
  Dict.get?_insert parameters.values name key value

theorem ext_get? {other : Parameters} (values : ∀ name, parameters.get? name = other.get? name)
    (next : parameters.next = other.next) : parameters = other := by
  obtain ⟨d, n⟩ := parameters
  obtain ⟨e, m⟩ := other
  obtain rfl : d = e := Dict.ext_get? values
  obtain rfl : n = m := next
  rfl

/-- To bind a name to its value again changes nothing. -/
theorem insert_of_get? {name : String} {value : Json} (h : parameters.get? name = some value) :
    { parameters with values := parameters.values.insert name value } = parameters := by
  refine ext_get? (fun key => ?_) rfl
  rw [get?_insert]
  split
  next heq => rw [heq, h]
  next => rfl

theorem add_eq_ok_iff {name : String} {value : Json} :
    parameters.add false name value = .ok after ↔
      (∀ bound, parameters.get? name = some bound → bound = value) ∧
        after = { parameters with values := parameters.values.insert name value } := by
  rw [add]
  cases hname : parameters.get? name with
  | none => simp [eq_comm]
  | some bound =>
      by_cases heq : bound = value
      · subst heq
        simp [insert_of_get? hname, eq_comm]
      · simp [heq]

/-- A name is refused where it has another value. -/
theorem add_eq_error_iff {name : String} {value : Json} {e : QueryError} :
    parameters.add false name value = .error e ↔
      (∃ bound, parameters.get? name = some bound ∧ bound ≠ value) ∧
        e = .parameterConflict name := by
  rw [add]
  cases hname : parameters.get? name with
  | none => simp
  | some bound =>
      by_cases heq : bound = value
      · simp [heq]
      · simpa [heq] using eq_comm

/-- A name is bound only if it had no other value. -/
theorem keepsTo_of_add {name : String} {value : Json}
    (h : parameters.add false name value = .ok after) :
    parameters.KeepsTo after ∧ after.get? name = some value := by
  obtain ⟨hsame, rfl⟩ := add_eq_ok_iff.1 h
  refine ⟨fun key found hkey => ?_, by rw [get?_insert, if_pos rfl]⟩
  rw [get?_insert]
  split
  next heq =>
    subst heq
    rw [hsame found hkey]
  next => exact hkey

theorem add_of_fresh {overwrite : Bool} {name : String} (value : Json)
    (h : parameters.get? name = none) :
    parameters.add overwrite name value =
      .ok { parameters with values := parameters.values.insert name value } := by
  rw [add, h]

/-- With leave to overwrite, a name is always bound. -/
theorem add_true (parameters : Parameters) (name : String) (value : Json) :
    parameters.add true name value =
      .ok { parameters with values := parameters.values.insert name value } := by
  rw [add]
  cases hname : parameters.get? name with
  | none => rfl
  | some bound =>
      dsimp only
      split
      next heq => rw [insert_of_get? (heq ▸ hname)]
      next => rfl

/-- Where a name is bound, it had no other value or leave was given to overwrite it. -/
theorem of_add_eq_ok {overwrite : Bool} {name : String} {value : Json}
    (h : parameters.add overwrite name value = .ok after) :
    (overwrite = true ∨ ∀ bound, parameters.get? name = some bound → bound = value) ∧
      after = { parameters with values := parameters.values.insert name value } := by
  cases overwrite with
  | false =>
      obtain ⟨hsame, rfl⟩ := add_eq_ok_iff.1 h
      exact ⟨.inr hsame, rfl⟩
  | true =>
      rw [add_true] at h
      exact ⟨.inl rfl, (Except.ok.inj h).symm⟩

/-! ### Bindings in turn -/

/-- Each name stays as it was or is bound to a value that it is given; without leave to
overwrite, only if it was free. A conflict may end the binding half way. -/
theorem get?_addAll (parameters : Parameters) (overwrite : Bool) (pairs : List (String × Json))
    (name : String) :
    (parameters.addAll overwrite pairs).2.get? name = parameters.get? name ∨
      (overwrite = true ∨ parameters.get? name = none) ∧ ∃ value, (name, value) ∈ pairs ∧
        (parameters.addAll overwrite pairs).2.get? name = some value := by
  induction pairs generalizing parameters with
  | nil => exact .inl rfl
  | cons pair pairs ih =>
      obtain ⟨key, value⟩ := pair
      rw [addAll]
      cases hadd : parameters.add overwrite key value with
      | error error => exact .inl rfl
      | ok next =>
          obtain ⟨hleave, rfl⟩ := of_add_eq_ok hadd
          have hrest := ih { parameters with values := parameters.values.insert key value }
          rw [get?_insert] at hrest
          dsimp only
          by_cases hname : name = key
          · -- the first pair is of this name, so that its value is there for the rest
            subst hname
            rw [if_pos rfl] at hrest
            rcases hrest with hkept | ⟨hfree | hfree, given, hmem, hgiven⟩
            · cases hbound : parameters.get? name with
              | none => exact .inr ⟨.inr rfl, value, List.mem_cons_self, hkept⟩
              | some bound =>
                  rcases hleave with hleave | hsame
                  · exact .inr ⟨.inl hleave, value, List.mem_cons_self, hkept⟩
                  · rw [hkept, hsame bound hbound]
                    exact .inl rfl
            · exact .inr ⟨.inl hfree, given, List.mem_cons_of_mem _ hmem, hgiven⟩
            · cases hfree
          · rw [if_neg hname] at hrest
            rcases hrest with hkept | ⟨hfree, given, hmem, hgiven⟩
            · exact .inl hkept
            · exact .inr ⟨hfree, given, List.mem_cons_of_mem _ hmem, hgiven⟩

theorem next_addAll (parameters : Parameters) (overwrite : Bool) (pairs : List (String × Json)) :
    (parameters.addAll overwrite pairs).2.next = parameters.next := by
  induction pairs generalizing parameters with
  | nil => rfl
  | cons pair pairs ih =>
      obtain ⟨key, value⟩ := pair
      rw [addAll]
      cases hadd : parameters.add overwrite key value with
      | error error => rfl
      | ok next =>
          obtain ⟨-, rfl⟩ := of_add_eq_ok hadd
          exact ih _

/-- Without leave to overwrite, no binding is lost, also where a conflict ends it half way. -/
theorem keepsTo_addAll (parameters : Parameters) (pairs : List (String × Json)) :
    parameters.KeepsTo (parameters.addAll false pairs).2 := by
  intro name value hbound
  rcases get?_addAll parameters false pairs name with hkept | ⟨hfree, -⟩
  · rw [hkept, hbound]
  · rw [hbound] at hfree
    simp at hfree

/-! ### All that may be bound -/

/-- The parameters with values bound on top of them. -/
def bind (parameters : Parameters) (values : Dict Json) : Parameters :=
  { parameters with values := parameters.values.insertAll values.entries }

theorem get?_bind (parameters : Parameters) (values : Dict Json) (name : String) :
    (parameters.bind values).get? name = (values.get? name).or (parameters.get? name) :=
  Dict.get?_insertAll_entries parameters.values values name

theorem bind_empty (parameters : Parameters) : parameters.bind ∅ = parameters := rfl

theorem contains_bind (parameters : Parameters) (values : Dict Json) (name : String) :
    (parameters.bind values).values.contains name =
      (values.contains name || parameters.values.contains name) := by
  rw [Dict.contains, ← Parameters.get?, get?_bind, Option.isSome_or]
  rfl

theorem growsTo_bind_self (parameters : Parameters) (values : Dict Json) :
    parameters.GrowsTo (parameters.bind values) := by
  intro name hname
  rw [contains_bind, hname, Bool.or_true]

/-- Names are bound in turn exactly if none of them has another value. -/
theorem addAll_eq_ok_iff {pairs : List (String × Json)} (distinct : (pairs.map Prod.fst).Nodup) :
    parameters.addAll false pairs = (.ok (), after) ↔
      (∀ pair ∈ pairs, ∀ bound, parameters.get? pair.1 = some bound → bound = pair.2) ∧
        after = { parameters with values := parameters.values.insertAll pairs } := by
  induction pairs generalizing parameters with
  | nil => simp [addAll, Dict.insertAll, eq_comm]
  | cons pair pairs ih =>
      obtain ⟨name, value⟩ := pair
      obtain ⟨hname, hpairs⟩ := List.nodup_cons.1 distinct
      rw [addAll, List.forall_mem_cons]
      cases hadd : parameters.add false name value with
      | ok next =>
          obtain ⟨hfirst, rfl⟩ := add_eq_ok_iff.1 hadd
          -- the names that follow have the values that they had
          have hrest : ∀ pair ∈ pairs, ∀ bound,
              ({ parameters with values := parameters.values.insert name value } :
                Parameters).get? pair.1 = some bound ↔ parameters.get? pair.1 = some bound := by
            intro pair hpair bound
            rw [get?_insert, if_neg]
            rintro rfl
            exact hname (List.mem_map.2 ⟨pair, hpair, rfl⟩)
          dsimp only
          rw [ih hpairs]
          refine and_congr ?_ Iff.rfl
          constructor
          · intro h
            exact ⟨hfirst, fun pair hpair bound hbound =>
              h pair hpair bound ((hrest pair hpair bound).2 hbound)⟩
          · rintro ⟨-, h⟩ pair hpair bound hbound
            exact h pair hpair bound ((hrest pair hpair bound).1 hbound)
      | error error =>
          have hnot : ¬∀ bound, parameters.get? name = some bound → bound = value := by
            intro h
            have hok := add_eq_ok_iff.2 ⟨h, rfl⟩
            rw [hadd] at hok
            cases hok
          simp [hnot]

theorem addAll_true (parameters : Parameters) (pairs : List (String × Json)) :
    parameters.addAll true pairs =
      (.ok (), { parameters with values := parameters.values.insertAll pairs }) := by
  induction pairs generalizing parameters with
  | nil => rfl
  | cons pair pairs ih =>
      obtain ⟨name, value⟩ := pair
      rw [addAll, add_true]
      exact ih _

/-- Values agree with the parameters if no binding of theirs differs. -/
theorem agrees_iff {values : Dict Json} :
    parameters.values.Agrees values ↔ ∀ pair ∈ values.entries, ∀ bound,
      parameters.get? pair.1 = some bound → bound = pair.2 := by
  constructor
  · intro h pair hpair bound hbound
    exact h pair.1 bound pair.2 hbound (Dict.lookup_of_mem values.nodup_keys hpair)
  · intro h name value other hvalue hother
    exact h (name, other) (Dict.mem_entries_of_get? hother) value hvalue

/-- Values are bound in any order exactly if no name that they share with the parameters
differs in them. -/
theorem addAll_eq_ok_iff_agrees {values : Dict Json} {order : List (String × Json)}
    (h : order.Perm values.entries) :
    parameters.addAll false order = (.ok (), after) ↔
      parameters.values.Agrees values ∧ after = parameters.bind values := by
  have hdistinct : (order.map Prod.fst).Nodup := (h.map Prod.fst).nodup_iff.2 values.nodup_keys
  rw [addAll_eq_ok_iff hdistinct, agrees_iff, bind, Dict.insertAll_perm _ _ h]
  simp only [h.mem_iff]

/-- Values are bound exactly if no name that they share with the parameters differs in them. Their
order does not matter. -/
theorem extend_eq_ok_iff {values : Values} :
    parameters.extend values = .ok after ↔
      parameters.values.Agrees values.bindings ∧ after = parameters.bind values.bindings := by
  rw [← addAll_eq_ok_iff_agrees values.isOrder, extend]
  obtain ⟨outcome, rest⟩ := parameters.addAll false values.order
  cases outcome <;> simp

/-- Values are refused for a name that has another value. -/
theorem conflict_of_addAll {pairs : List (String × Json)} (distinct : (pairs.map Prod.fst).Nodup)
    {e : QueryError} (h : (parameters.addAll false pairs).1 = .error e) :
    ∃ name bound value, parameters.get? name = some bound ∧ (name, value) ∈ pairs ∧
      bound ≠ value ∧ e = .parameterConflict name := by
  induction pairs generalizing parameters with
  | nil => cases h
  | cons pair pairs ih =>
      obtain ⟨name, value⟩ := pair
      obtain ⟨hname, hpairs⟩ := List.nodup_cons.1 distinct
      rw [addAll] at h
      cases hadd : parameters.add false name value with
      | error error =>
          rw [hadd] at h
          cases h
          obtain ⟨⟨bound, hbound, hne⟩, rfl⟩ := add_eq_error_iff.1 hadd
          exact ⟨name, bound, value, hbound, List.mem_cons_self, hne, rfl⟩
      | ok next =>
          rw [hadd] at h
          obtain ⟨-, rfl⟩ := add_eq_ok_iff.1 hadd
          obtain ⟨other, bound, value', hbound, hmem, hne, rfl⟩ := ih hpairs h
          refine ⟨other, bound, value', ?_, List.mem_cons_of_mem _ hmem, hne, rfl⟩
          -- the names that follow have the values that they had
          rwa [get?_insert, if_neg] at hbound
          rintro rfl
          exact hname (List.mem_map.2 ⟨_, hmem, rfl⟩)

theorem conflict_of_extend {values : Values} {e : QueryError}
    (h : parameters.extend values = .error e) :
    ∃ name bound value, parameters.get? name = some bound ∧
      values.bindings.get? name = some value ∧ bound ≠ value ∧ e = .parameterConflict name := by
  have hadd : (parameters.addAll false values.order).1 = .error e := by
    rw [extend] at h
    split at h
    next => cases h
    next heq => rw [heq, Except.error.inj h]
  have hdistinct : (values.order.map Prod.fst).Nodup :=
    (values.isOrder.map Prod.fst).nodup_iff.2 values.bindings.nodup_keys
  obtain ⟨name, bound, value, hbound, hmem, hne, rfl⟩ := conflict_of_addAll hdistinct hadd
  exact ⟨name, bound, value, hbound,
    Dict.lookup_of_mem values.bindings.nodup_keys (values.isOrder.mem_iff.1 hmem), hne, rfl⟩

theorem agrees_of_fresh {values : Dict Json}
    (fresh : ∀ name ∈ values.keys, parameters.get? name = none) :
    parameters.values.Agrees values := by
  intro name value other hvalue hother
  have hname : name ∈ values.keys := Dict.mem_keys_iff.2 (by simp [hother])
  rw [← Parameters.get?, fresh name hname] at hvalue
  cases hvalue

theorem extend_of_fresh {values : Values}
    (fresh : ∀ name ∈ values.bindings.keys, parameters.get? name = none) :
    parameters.extend values = .ok (parameters.bind values.bindings) :=
  extend_eq_ok_iff.2 ⟨agrees_of_fresh fresh, rfl⟩

/-- Whether values may be bound on top of others is a matter of both of them alone. -/
theorem agrees_bind_iff {values others : Dict Json} (h : parameters.values.Agrees others) :
    (parameters.bind values).values.Agrees others ↔ values.Agrees others := by
  constructor
  · intro hbind name value other hvalue hother
    refine hbind name value other ?_ hother
    rw [← Parameters.get?, get?_bind, hvalue, Option.some_or]
  · intro hboth name value other hvalue hother
    rw [← Parameters.get?, get?_bind, Option.or_eq_some_iff] at hvalue
    rcases hvalue with hnew | ⟨-, hold⟩
    · exact hboth name value other hnew hother
    · exact h name value other hold hother

/-- Values that agree may be bound in either order. -/
theorem bind_bind_comm (parameters : Parameters) {values others : Dict Json}
    (h : values.Agrees others) :
    (parameters.bind values).bind others = (parameters.bind others).bind values := by
  refine ext_get? (fun name => ?_) rfl
  simp only [get?_bind]
  cases hvalue : values.get? name with
  | none => simp
  | some value =>
      cases hother : others.get? name with
      | none => simp
      | some other => simp [h name value other hvalue hother]

end EntityQuery.Parameters
