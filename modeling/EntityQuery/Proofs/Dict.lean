import EntityQuery.Dict
import Mathlib.Logic.Basic

/-!
# Look-ups in dictionaries

Each way to make a dictionary is described by the answers of its look-ups, so
that equality of dictionaries is shown look-up by look-up (`Dict.ext_get?`).
-/

namespace EntityQuery.Dict

variable {α : Type}

instance [DecidableEq α] : DecidableEq (Dict α) := fun d e =>
  decidable_of_iff (d.entries = e.entries)
    ⟨fun h => by cases d; cases e; cases h; rfl, congrArg entries⟩

theorem mem_of_lookup {key : String} {value : α} {entries : List (String × α)}
    (h : lookup key entries = some value) : (key, value) ∈ entries := by
  induction entries with
  | nil => simp [lookup] at h
  | cons e rest ih =>
      obtain ⟨k, v⟩ := e
      rw [lookup] at h
      split at h
      next hk => rw [hk, Option.some.inj h]; exact List.mem_cons_self
      next => exact List.mem_cons_of_mem _ (ih h)

theorem mem_entries_of_get? {d : Dict α} {key : String} {value : α}
    (h : d.get? key = some value) : (key, value) ∈ d.entries := mem_of_lookup h

theorem lookup_append (key : String) (xs ys : List (String × α)) :
    lookup key (xs ++ ys) = (lookup key xs).or (lookup key ys) := by
  induction xs with
  | nil => rfl
  | cons e xs ih =>
      rw [List.cons_append, lookup, lookup, ih]
      split <;> rfl

/-- In pairs made of the elements of a list, a look-up finds the first element of the key. -/
theorem lookup_map {β : Type} (xs : List β) (toKey : β → String) (toValue : β → α) (key : String) :
    lookup key (xs.map fun x => (toKey x, toValue x)) =
      (xs.find? fun x => toKey x = key).map toValue := by
  induction xs with
  | nil => rfl
  | cons x xs ih =>
      rw [List.map_cons, lookup, List.find?_cons]
      by_cases h : toKey x = key
      · simp [h]
      · simp [h, Ne.symm h, ih]

/-- Where keys are distinct, the order of the pairs does not matter to look-ups. -/
theorem lookup_reverse {entries : List (String × α)} (h : (entries.map Prod.fst).Nodup)
    (key : String) : lookup key entries.reverse = lookup key entries := by
  induction entries with
  | nil => rfl
  | cons e rest ih =>
      obtain ⟨k, v⟩ := e
      obtain ⟨hk, hrest⟩ := List.nodup_cons.1 h
      rw [List.reverse_cons, lookup_append, ih hrest, lookup, lookup]
      by_cases heq : key = k
      · subst heq
        have hnone : lookup key rest = none := by
          rw [Option.eq_none_iff_forall_ne_some]
          intro value hvalue
          exact hk (List.mem_map.2 ⟨_, mem_of_lookup hvalue, rfl⟩)
        simp [hnone, lookup]
      · simp [heq, lookup]

/-- The last value of a key in a list of pairs counts. -/
theorem get?_insertAll (d : Dict α) (pairs : List (String × α)) (key : String) :
    (d.insertAll pairs).get? key = (lookup key pairs.reverse).or (d.get? key) := by
  induction pairs generalizing d with
  | nil => rfl
  | cons e pairs ih =>
      have hstep : d.insertAll (e :: pairs) = (d.insert e.1 e.2).insertAll pairs := rfl
      rw [hstep, ih, get?_insert, List.reverse_cons, lookup_append, Option.or_assoc]
      congr 1
      rw [lookup, lookup]
      split <;> rfl

theorem get?_ofList (pairs : List (String × α)) (key : String) :
    (ofList pairs).get? key = lookup key pairs.reverse := by
  rw [ofList, get?_insertAll, get?_empty, Option.or_none]

theorem insertAll_ofList (pairs others : List (String × α)) :
    (ofList pairs).insertAll others = ofList (pairs ++ others) := by
  rw [ofList, ofList, insertAll, insertAll, insertAll, List.foldl_append]

theorem nodup_keys (d : Dict α) : (d.entries.map Prod.fst).Nodup := by
  rw [List.Nodup, List.pairwise_map]
  refine d.ascending.imp ?_
  intro a b hlt heq
  rw [heq] at hlt
  exact String.lt_irrefl _ hlt

/-- The bindings of a dictionary on top of another count before those below. -/
theorem get?_insertAll_entries (d e : Dict α) (key : String) :
    (d.insertAll e.entries).get? key = (e.get? key).or (d.get? key) := by
  rw [get?_insertAll, lookup_reverse e.nodup_keys]
  rfl

theorem lookup_eq_none_iff {key : String} {entries : List (String × α)} :
    lookup key entries = none ↔ key ∉ entries.map Prod.fst := by
  induction entries with
  | nil => simp [lookup]
  | cons e rest ih =>
      obtain ⟨k, v⟩ := e
      rw [lookup, List.map_cons, List.mem_cons]
      by_cases h : key = k <;> simp [h, ih]

theorem mem_keys_iff {d : Dict α} {key : String} : key ∈ d.keys ↔ d.get? key ≠ none := by
  rw [get?, ne_eq, lookup_eq_none_iff, not_not, keys]

theorem get?_ofList_eq_none {pairs : List (String × α)} {key : String}
    (h : key ∉ pairs.map Prod.fst) : (ofList pairs).get? key = none := by
  rw [get?_ofList, lookup_eq_none_iff, List.map_reverse, List.mem_reverse]
  exact h

theorem lookup_of_mem {entries : List (String × α)} {key : String} {value : α}
    (distinct : (entries.map Prod.fst).Nodup) (h : (key, value) ∈ entries) :
    lookup key entries = some value := by
  induction entries with
  | nil => cases h
  | cons e rest ih =>
      obtain ⟨k, v⟩ := e
      obtain ⟨hk, hrest⟩ := List.nodup_cons.1 distinct
      rw [lookup]
      rcases List.mem_cons.1 h with heq | hmem
      · cases heq
        exact if_pos rfl
      · rw [if_neg, ih hrest hmem]
        rintro rfl
        exact hk (List.mem_map.2 ⟨_, hmem, rfl⟩)

theorem get?_ofList_of_mem {pairs : List (String × α)} {key : String} {value : α}
    (distinct : (pairs.map Prod.fst).Nodup) (h : (key, value) ∈ pairs) :
    (ofList pairs).get? key = some value := by
  rw [get?_ofList, lookup_reverse distinct]
  exact lookup_of_mem distinct h

/-- Where keys are distinct, look-ups do not depend on the order of the pairs. -/
theorem lookup_perm {xs ys : List (String × α)} (h : xs.Perm ys)
    (distinct : (ys.map Prod.fst).Nodup) (key : String) : lookup key xs = lookup key ys := by
  have hdistinct : (xs.map Prod.fst).Nodup := (h.map Prod.fst).nodup_iff.2 distinct
  apply Option.ext
  intro value
  constructor
  · intro hvalue
    exact lookup_of_mem distinct (h.mem_iff.1 (mem_of_lookup hvalue))
  · intro hvalue
    exact lookup_of_mem hdistinct (h.mem_iff.2 (mem_of_lookup hvalue))

/-- The bindings of a dictionary may be taken in any order. -/
theorem insertAll_perm (d e : Dict α) {order : List (String × α)} (h : order.Perm e.entries) :
    d.insertAll order = d.insertAll e.entries := by
  apply ext_get?
  intro key
  have hdistinct : (order.map Prod.fst).Nodup := (h.map Prod.fst).nodup_iff.2 e.nodup_keys
  rw [get?_insertAll, get?_insertAll, lookup_reverse hdistinct, lookup_reverse e.nodup_keys,
    lookup_perm h e.nodup_keys]

/-- Where keys are distinct, look-ups find the pairs. -/
theorem get?_ofList_eq_some_iff {pairs : List (String × α)} {key : String} {value : α}
    (distinct : (pairs.map Prod.fst).Nodup) :
    (ofList pairs).get? key = some value ↔ (key, value) ∈ pairs := by
  refine ⟨fun h => ?_, get?_ofList_of_mem distinct⟩
  rw [get?_ofList] at h
  exact List.mem_reverse.1 (mem_of_lookup h)

/-- Where keys are distinct, the bindings are the pairs. -/
theorem mem_entries_ofList {pairs : List (String × α)} (distinct : (pairs.map Prod.fst).Nodup)
    {e : String × α} : e ∈ (ofList pairs).entries ↔ e ∈ pairs := by
  obtain ⟨key, value⟩ := e
  exact ⟨fun h => (get?_ofList_eq_some_iff distinct).1 (lookup_of_mem (nodup_keys _) h),
    fun h => mem_entries_of_get? (get?_ofList_of_mem distinct h)⟩

theorem perm_entries_ofList {pairs : List (String × α)} (distinct : (pairs.map Prod.fst).Nodup) :
    (ofList pairs).entries.Perm pairs := by
  have hne : ∀ a b : String × α, a.1 ≠ b.1 → a ≠ b := fun _ _ => mt (congrArg Prod.fst)
  have hentries : (ofList pairs).entries.Nodup :=
    List.Pairwise.of_map Prod.fst hne (nodup_keys (ofList pairs))
  have hpairs : pairs.Nodup := List.Pairwise.of_map Prod.fst hne distinct
  exact (List.perm_ext_iff_of_nodup hentries hpairs).2 fun _ => mem_entries_ofList distinct

/-- A dictionary is made of any pairs that it binds, as long as no key is left out. -/
theorem ofList_eq {d : Dict α} {pairs : List (String × α)}
    (bound : ∀ e ∈ pairs, d.get? e.1 = some e.2) (all : ∀ key ∈ d.keys, key ∈ pairs.map Prod.fst) :
    ofList pairs = d := by
  apply ext_get?
  intro key
  rw [get?_ofList]
  cases hvalue : lookup key pairs.reverse with
  | some value => exact (bound _ (List.mem_reverse.1 (mem_of_lookup hvalue))).symm
  | none =>
      rw [lookup_eq_none_iff, List.map_reverse, List.mem_reverse] at hvalue
      have hnone := mt (all key) hvalue
      rw [mem_keys_iff, not_not] at hnone
      exact hnone.symm

/-- No key is bound to different values. -/
def Agrees (d e : Dict α) : Prop :=
  ∀ key value other, d.get? key = some value → e.get? key = some other → value = other

theorem agrees_comm {d e : Dict α} : d.Agrees e ↔ e.Agrees d :=
  ⟨fun h key value other hvalue hother => (h key other value hother hvalue).symm,
    fun h key value other hvalue hother => (h key other value hother hvalue).symm⟩

theorem agrees_empty (d : Dict α) : d.Agrees ∅ := fun _ _ _ _ h => nomatch h

/-- A dictionary binds what its parts bind, and no two of them bind the same key. -/
structure IsDisjointUnion (d : Dict α) (parts : List (Dict α)) : Prop where
  get?_eq_some : ∀ key value,
    d.get? key = some value ↔ ∃ part ∈ parts, part.get? key = some value
  disjoint : parts.Pairwise fun a b => ∀ key, a.get? key = none ∨ b.get? key = none

theorem isDisjointUnion_singleton (d : Dict α) : d.IsDisjointUnion [d] :=
  ⟨by simp, List.pairwise_singleton _ _⟩

/-- Fresh keys make up one more part. -/
theorem IsDisjointUnion.insertAll {d : Dict α} {parts : List (Dict α)}
    (h : d.IsDisjointUnion parts) {pairs : List (String × α)}
    (fresh : ∀ part ∈ parts, ∀ key, part.get? key = none ∨ (ofList pairs).get? key = none) :
    (d.insertAll pairs).IsDisjointUnion (parts ++ [ofList pairs]) := by
  constructor
  · intro key value
    have hget : (d.insertAll pairs).get? key = ((ofList pairs).get? key).or (d.get? key) := by
      rw [get?_insertAll, get?_ofList]
    rw [hget, Option.or_eq_some_iff, h.get?_eq_some]
    constructor
    · rintro (hnew | ⟨-, part, hpart, hold⟩)
      · exact ⟨_, List.mem_append_right _ List.mem_cons_self, hnew⟩
      · exact ⟨part, List.mem_append_left _ hpart, hold⟩
    · rintro ⟨part, hpart, hvalue⟩
      rcases List.mem_append.1 hpart with hold | hnew
      · refine Or.inr ⟨(fresh part hold key).resolve_left ?_, part, hold, hvalue⟩
        rw [hvalue]
        exact Option.some_ne_none value
      · rw [List.mem_singleton.1 hnew] at hvalue
        exact Or.inl hvalue
  · refine List.pairwise_append.2 ⟨h.disjoint, List.pairwise_singleton _ _, ?_⟩
    intro part hpart new hnew key
    rw [List.mem_singleton.1 hnew]
    exact fresh part hpart key

end EntityQuery.Dict
