/-!
# Dictionaries in ascending key order

A dictionary binds strings to values and lists its bindings with strictly
ascending keys. The list is therefore the only one with its bindings: two
dictionaries that answer every look-up alike are equal (`Dict.ext_get?`).
Strings are compared by code point, which is also the order of their UTF-8
bytes.
-/

namespace EntityQuery

/-- Bindings of strings, with strictly ascending keys. -/
structure Dict (α : Type) where
  entries : List (String × α)
  ascending : entries.Pairwise fun a b => a.1 < b.1

namespace Dict

variable {α β : Type}

/-- Put one binding into an ascending list, in place of a binding of the same key. -/
def put (key : String) (value : α) : List (String × α) → List (String × α)
  | [] => [(key, value)]
  | (k, v) :: rest =>
      if key < k then (key, value) :: (k, v) :: rest
      else if k < key then (k, v) :: put key value rest
      else (key, value) :: rest

theorem mem_put {key : String} {value : α} {entries : List (String × α)} {e : String × α}
    (h : e ∈ put key value entries) : e = (key, value) ∨ e ∈ entries := by
  induction entries with
  | nil => simpa [put] using h
  | cons head rest ih =>
      obtain ⟨k, v⟩ := head
      simp only [put] at h
      split at h
      · simpa using h
      · split at h
        · rcases List.mem_cons.1 h with h | h
          · exact .inr (by simp [h])
          · exact (ih h).imp_right (List.mem_cons_of_mem _)
        · rcases List.mem_cons.1 h with h | h
          · exact .inl h
          · exact .inr (List.mem_cons_of_mem _ h)

theorem eq_of_not_lt {a b : String} (h : ¬ a < b) (h' : ¬ b < a) : a = b :=
  String.le_antisymm (String.not_lt.1 h') (String.not_lt.1 h)

theorem ascending_put (key : String) (value : α) {entries : List (String × α)}
    (h : entries.Pairwise fun a b => a.1 < b.1) :
    (put key value entries).Pairwise fun a b => a.1 < b.1 := by
  induction entries with
  | nil => simp [put]
  | cons head rest ih =>
      obtain ⟨k, v⟩ := head
      obtain ⟨hk, hrest⟩ := List.pairwise_cons.1 h
      simp only [put]
      split
      next hlt =>
        refine List.pairwise_cons.2 ⟨fun e he => ?_, h⟩
        rcases List.mem_cons.1 he with rfl | he
        · exact hlt
        · exact String.lt_trans hlt (hk e he)
      next hlt =>
        split
        next hgt =>
          refine List.pairwise_cons.2 ⟨fun e he => ?_, ih hrest⟩
          rcases mem_put he with rfl | he
          · exact hgt
          · exact hk e he
        next hgt =>
          obtain rfl := eq_of_not_lt hlt hgt
          exact List.pairwise_cons.2 ⟨hk, hrest⟩

/-- The first value of a key in a list of pairs. -/
def lookup (key : String) : List (String × α) → Option α
  | [] => none
  | (k, v) :: rest => if key = k then some v else lookup key rest

/-- The dictionary without bindings. -/
def empty : Dict α := ⟨[], List.Pairwise.nil⟩

instance : EmptyCollection (Dict α) := ⟨empty⟩

instance : Inhabited (Dict α) := ⟨empty⟩

/-- The value bound to a key. -/
def get? (d : Dict α) (key : String) : Option α := lookup key d.entries

/-- Whether a key is bound. -/
def contains (d : Dict α) (key : String) : Bool := (d.get? key).isSome

/-- Bind a key, in place of its earlier value. -/
def insert (d : Dict α) (key : String) (value : α) : Dict α :=
  ⟨put key value d.entries, ascending_put key value d.ascending⟩

/-- The keys in ascending order. -/
def keys (d : Dict α) : List String := d.entries.map Prod.fst

/-- The number of bindings. -/
def size (d : Dict α) : Nat := d.entries.length

/-- Whether nothing is bound. -/
def isEmpty (d : Dict α) : Bool := d.entries.isEmpty

/-- Bind every pair of a list in turn, so that the last one of a key counts. -/
def insertAll (d : Dict α) (pairs : List (String × α)) : Dict α :=
  pairs.foldl (fun acc pair => acc.insert pair.1 pair.2) d

/-- The dictionary of a list of pairs, in which the last one of a key counts. -/
def ofList (pairs : List (String × α)) : Dict α := empty.insertAll pairs

theorem lookup_put (key k : String) (value : α) (entries : List (String × α)) :
    lookup k (put key value entries) = if k = key then some value else lookup k entries := by
  induction entries with
  | nil => rfl
  | cons head rest ih =>
      obtain ⟨k', v⟩ := head
      simp only [put]
      split
      · rfl
      next hlt =>
        split
        next hgt =>
          have hne : k' ≠ key := fun h => String.lt_irrefl key (h ▸ hgt)
          simp only [lookup, ih]
          by_cases hk : k = k'
          · subst hk
            simp [hne]
          · simp [hk]
        next hgt =>
          obtain rfl := eq_of_not_lt hlt hgt
          by_cases h : k = key <;> simp [lookup, h]

theorem lookup_eq_none_of_lt {key : String} {entries : List (String × α)}
    (h : ∀ e ∈ entries, key < e.1) : lookup key entries = none := by
  induction entries with
  | nil => rfl
  | cons head rest ih =>
      have hne : key ≠ head.1 := fun hk =>
        String.lt_irrefl head.1 (hk ▸ h head (List.mem_cons_self ..))
      simp only [lookup, hne, if_false]
      exact ih fun e he => h e (List.mem_cons_of_mem _ he)

theorem eq_of_lookup_eq {xs ys : List (String × α)}
    (hx : xs.Pairwise fun a b => a.1 < b.1) (hy : ys.Pairwise fun a b => a.1 < b.1)
    (h : ∀ key, lookup key xs = lookup key ys) : xs = ys := by
  induction xs generalizing ys with
  | nil =>
      cases ys with
      | nil => rfl
      | cons y ys => simpa [lookup] using h y.1
  | cons x xs ih =>
      obtain ⟨hxlt, hxs⟩ := List.pairwise_cons.1 hx
      cases ys with
      | nil => simpa [lookup] using h x.1
      | cons y ys =>
          obtain ⟨hylt, hys⟩ := List.pairwise_cons.1 hy
          have hkey : x.1 = y.1 := by
            refine eq_of_not_lt (fun hlt => ?_) (fun hlt => ?_)
            · have hnone : lookup x.1 (y :: ys) = none := by
                refine lookup_eq_none_of_lt fun e he => ?_
                rcases List.mem_cons.1 he with rfl | he
                · exact hlt
                · exact String.lt_trans hlt (hylt e he)
              have := h x.1
              rw [hnone] at this
              simp [lookup] at this
            · have hnone : lookup y.1 (x :: xs) = none := by
                refine lookup_eq_none_of_lt fun e he => ?_
                rcases List.mem_cons.1 he with rfl | he
                · exact hlt
                · exact String.lt_trans hlt (hxlt e he)
              have := h y.1
              rw [hnone] at this
              simp [lookup] at this
          have hvalue : x.2 = y.2 := by
            have := h x.1
            simpa [lookup, hkey] using this
          have hhead : x = y := Prod.ext hkey hvalue
          subst hhead
          congr 1
          refine ih hxs hys fun key => ?_
          by_cases hk : key = x.1
          · rw [hk, lookup_eq_none_of_lt hxlt, lookup_eq_none_of_lt hylt]
          · simpa [lookup, hk] using h key

/-- Dictionaries that answer every look-up alike are equal. -/
theorem ext_get? {d e : Dict α} (h : ∀ key, d.get? key = e.get? key) : d = e := by
  obtain ⟨xs, hx⟩ := d
  obtain ⟨ys, hy⟩ := e
  obtain rfl : xs = ys := eq_of_lookup_eq hx hy h
  rfl

@[simp]
theorem get?_empty (key : String) : (empty : Dict α).get? key = none := rfl

theorem get?_insert (d : Dict α) (key k : String) (value : α) :
    (d.insert key value).get? k = if k = key then some value else d.get? k :=
  lookup_put key k value d.entries

end Dict

end EntityQuery
