import EntityQuery.Proofs.JoinGraph.Calls
import EntityQuery.Proofs.Parameters.Bindings

/-!
# Names without values

What a dictionary binds is told by its keys alone, and so is what parameters
bind after any further bindings. Conditions, too, see of their values no more
than the names (`Restriction.sameNames_of_ofCondition`).
-/

namespace EntityQuery

namespace Dict

variable {α : Type} {d e : Dict α}

theorem lookup_map_fst (key : String) (entries : List (String × α)) :
    lookup key (entries.map fun entry => (entry.1, ())) =
      (lookup key entries).map fun _ => () := by
  induction entries with
  | nil => rfl
  | cons entry rest ih =>
      obtain ⟨k, value⟩ := entry
      rw [List.map_cons, lookup, lookup, ih]
      split <;> rfl

theorem isSome_lookup (key : String) (entries : List (String × α)) :
    (lookup key entries).isSome = decide (key ∈ entries.map Prod.fst) := by
  cases hvalue : lookup key entries with
  | none => simpa using lookup_eq_none_iff.1 hvalue
  | some value =>
      have hmem : key ∈ entries.map Prod.fst :=
        List.mem_map.2 ⟨_, mem_of_lookup hvalue, rfl⟩
      rw [decide_eq_true hmem]
      rfl

theorem contains_eq (d : Dict α) (key : String) : d.contains key = decide (key ∈ d.keys) :=
  isSome_lookup key d.entries

/-- Dictionaries that bind the same names list them alike. -/
theorem keys_eq_of_contains (h : ∀ key, d.contains key = e.contains key) : d.keys = e.keys := by
  have hnames : d.entries.map (fun entry => (entry.1, ())) =
      e.entries.map fun entry => (entry.1, ()) := by
    refine eq_of_lookup_eq (List.pairwise_map.2 d.ascending) (List.pairwise_map.2 e.ascending) ?_
    intro key
    have hkey : (lookup key d.entries).isSome = (lookup key e.entries).isSome := h key
    rw [lookup_map_fst, lookup_map_fst]
    cases hd : lookup key d.entries with
    | none =>
        rw [hd] at hkey
        rw [Option.isNone_iff_eq_none.1 (Option.isSome_eq_false_iff.1 hkey.symm)]
    | some value =>
        rw [hd] at hkey
        obtain ⟨value', hvalue'⟩ := Option.isSome_iff_exists.1 hkey.symm
        rw [hvalue', Option.map_some, Option.map_some]
  have hkeys := congrArg (List.map Prod.fst) hnames
  rwa [List.map_map, List.map_map] at hkeys

/-- Dictionaries with the same keys bind a name both, or neither does. -/
theorem get?_cases_of_keys_eq (h : d.keys = e.keys) (key : String) :
    (d.get? key = none ∧ e.get? key = none) ∨
      ∃ value value', d.get? key = some value ∧ e.get? key = some value' := by
  cases hd : d.get? key with
  | none =>
      have hkey : key ∉ e.keys := h ▸ mt mem_keys_iff.1 (not_not.2 hd)
      exact .inl ⟨rfl, not_not.1 (mt mem_keys_iff.2 hkey)⟩
  | some value =>
      have hkey : key ∈ e.keys := h ▸ mem_keys_iff.2 (hd ▸ Option.some_ne_none value)
      obtain ⟨value', hvalue'⟩ := Option.ne_none_iff_exists'.1 (mem_keys_iff.1 hkey)
      exact .inr ⟨value, value', rfl, hvalue'⟩

theorem keys_ofList_congr {pairs others : List (String × α)}
    (h : pairs.map Prod.fst = others.map Prod.fst) :
    (ofList pairs).keys = (ofList others).keys := by
  apply keys_eq_of_contains
  intro key
  rw [contains, contains, get?_ofList, get?_ofList, isSome_lookup, isSome_lookup,
    List.map_reverse, List.map_reverse, h]

end Dict

namespace Parameters

variable {parameters other after after' : Parameters} {overwrite : Bool}

/-- The same names, bound to any values, and the same number for the next made-up name. -/
structure SameNames (parameters other : Parameters) : Prop where
  keys : parameters.values.keys = other.values.keys
  next : parameters.next = other.next

theorem SameNames.contains (h : parameters.SameNames other) (name : String) :
    parameters.values.contains name = other.values.contains name := by
  rw [Dict.contains_eq, Dict.contains_eq, h.keys]

/-- What is bound once a name has been bound. -/
theorem of_add {name : String} {value : Json}
    (h : parameters.add overwrite name value = .ok after) :
    after.next = parameters.next ∧ ∀ key,
      after.values.contains key = (decide (key = name) || parameters.values.contains key) := by
  obtain ⟨-, rfl⟩ := of_add_eq_ok h
  exact ⟨rfl, fun key => Dict.contains_insert _ _ _ _⟩

theorem of_extend {values : Values} (h : parameters.extend values = .ok after) :
    after.next = parameters.next ∧ ∀ key,
      after.values.contains key =
        (values.bindings.contains key || parameters.values.contains key) := by
  obtain ⟨-, rfl⟩ := extend_eq_ok_iff.1 h
  exact ⟨rfl, contains_bind parameters values.bindings⟩

theorem SameNames.add {name : String} {value value' : Json} (h : parameters.SameNames other)
    (hadd : parameters.add overwrite name value = .ok after)
    (hadd' : other.add overwrite name value' = .ok after') : after.SameNames after' := by
  obtain ⟨hnext, hcontains⟩ := of_add hadd
  obtain ⟨hnext', hcontains'⟩ := of_add hadd'
  refine ⟨Dict.keys_eq_of_contains fun key => ?_, ?_⟩
  · rw [hcontains, hcontains', h.contains]
  · rw [hnext, hnext', h.next]

theorem SameNames.extend {values values' : Values} (h : parameters.SameNames other)
    (hkeys : values.bindings.keys = values'.bindings.keys)
    (hextend : parameters.extend values = .ok after)
    (hextend' : other.extend values' = .ok after') : after.SameNames after' := by
  obtain ⟨hnext, hcontains⟩ := of_extend hextend
  obtain ⟨hnext', hcontains'⟩ := of_extend hextend'
  refine ⟨Dict.keys_eq_of_contains fun key => ?_, ?_⟩
  · rw [hcontains, hcontains', h.contains, values.bindings.contains_eq,
      values'.bindings.contains_eq, hkeys]
  · rw [hnext, hnext', h.next]

/-- Made-up names do not depend on values. -/
theorem SameNames.mint (h : parameters.SameNames other) (base : String) :
    (parameters.mint base).1 = (other.mint base).1 ∧
      (parameters.mint base).2.SameNames (other.mint base).2 := by
  refine ⟨?_, h.keys, congrArg Nat.succ h.next⟩
  rw [Parameters.mint, Parameters.mint, h.next]

end Parameters

namespace Restriction

variable {dialect : Sql.Dialect} {lookup : Dict String} {parameters other : Parameters}
  {values values' : Values} {restriction restriction' : Restriction}

theorem sameNames_of_ofCondition {condition : Json} (names : parameters.SameNames other)
    (hkeys : values.bindings.keys = values'.bindings.keys)
    (h : ofCondition dialect lookup parameters condition values = .ok restriction)
    (h' : ofCondition dialect lookup other condition values' = .ok restriction') :
    restriction.sql = restriction'.sql ∧
      restriction.parameters.SameNames restriction'.parameters := by
  obtain ⟨tree, renamed, htree, -, hrenamed, -, hsql, hextend⟩ := exists_of_ofCondition h
  obtain ⟨tree', renamed', htree', -, hrenamed', -, hsql', hextend'⟩ := exists_of_ofCondition h'
  obtain rfl := Except.ok.inj (htree.symm.trans htree')
  obtain rfl := Except.ok.inj (hrenamed.symm.trans hrenamed')
  exact ⟨hsql.trans hsql'.symm, names.extend hkeys hextend hextend'⟩

theorem sameNames_of_ofCondition? {condition? : Option Json} (names : parameters.SameNames other)
    (hkeys : values.bindings.keys = values'.bindings.keys)
    (h : ofCondition? dialect lookup parameters condition? values = .ok restriction)
    (h' : ofCondition? dialect lookup other condition? values' = .ok restriction') :
    restriction.sql = restriction'.sql ∧
      restriction.parameters.SameNames restriction'.parameters := by
  unfold ofCondition? at h h'
  cases condition? with
  | none =>
      cases h
      cases h'
      exact ⟨rfl, names⟩
  | some condition =>
      dsimp only at h h'
      split at h
      next hblank =>
        rw [if_pos hblank] at h'
        cases h
        cases h'
        exact ⟨rfl, names⟩
      next hblank =>
        rw [if_neg hblank] at h'
        exact sameNames_of_ofCondition names hkeys h h'

end Restriction

end EntityQuery
