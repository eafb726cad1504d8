import Mathlib.Data.List.Induction
import Mathlib.Data.List.Nodup

/-!
# First occurrences

`List.eraseDups` keeps the first occurrence of each entry, in order. The lemmas
say how it goes along with the operations on lists that groups of rows are
made with. Each is an induction from the end of the list, where one more entry
either occurred before or is kept (`eraseDups_concat`).
-/

namespace EntityQuery

variable {α β : Type} [BEq α] [LawfulBEq α] [BEq β] [LawfulBEq β]

theorem eraseDups_concat (l : List α) (x : α) :
    (l ++ [x]).eraseDups = if x ∈ l then l.eraseDups else l.eraseDups ++ [x] := by
  rw [List.eraseDups_append]
  by_cases h : x ∈ l <;> simp [List.removeAll, List.eraseDups_cons, h]

theorem nodup_eraseDups (l : List α) : l.eraseDups.Nodup := by
  induction l using List.reverseRecOn with
  | nil => exact List.nodup_nil
  | append_singleton l x ih =>
      rw [eraseDups_concat]
      split
      next => exact ih
      next h =>
        rw [List.nodup_append]
        refine ⟨ih, by simp, ?_⟩
        rintro y hy z hz rfl
        obtain rfl := List.mem_singleton.1 hz
        exact h (List.mem_eraseDups.1 hy)

theorem filter_eraseDups (p : α → Bool) (l : List α) :
    l.eraseDups.filter p = (l.filter p).eraseDups := by
  induction l using List.reverseRecOn with
  | nil => rfl
  | append_singleton l x ih =>
      rw [eraseDups_concat, List.filter_append]
      by_cases hp : p x = true
      · rw [List.filter_cons_of_pos hp, List.filter_nil, eraseDups_concat]
        by_cases h : x ∈ l <;> simp [h, hp, ih]
      · rw [List.filter_cons_of_neg hp, List.filter_nil, List.append_nil]
        by_cases h : x ∈ l <;> simp [h, hp, ih]

omit [LawfulBEq α] in
theorem head?_eraseDups (l : List α) : l.eraseDups.head? = l.head? := by
  cases l with
  | nil => rfl
  | cons x l => rw [List.eraseDups_cons]; rfl

/-- The first entry of a kind is found where entries are not repeated. -/
theorem find?_eraseDups (p : α → Bool) (l : List α) : l.eraseDups.find? p = l.find? p := by
  rw [← List.head?_filter, filter_eraseDups, head?_eraseDups, List.head?_filter]

theorem eraseDups_filterMap_eraseDups (f : α → Option β) (l : List α) :
    (l.eraseDups.filterMap f).eraseDups = (l.filterMap f).eraseDups := by
  induction l using List.reverseRecOn with
  | nil => rfl
  | append_singleton l x ih =>
      rw [eraseDups_concat, List.filterMap_append]
      have hmem : ∀ y, y ∈ l.eraseDups.filterMap f ↔ y ∈ l.filterMap f := by
        simp only [List.mem_filterMap, List.mem_eraseDups, implies_true]
      cases hx : f x with
      | none => split <;> simp [hx, ih]
      | some y =>
          rw [List.filterMap_cons_some hx, List.filterMap_nil, eraseDups_concat]
          by_cases hy : y ∈ l.filterMap f
          · rw [if_pos hy]
            split
            next => exact ih
            next =>
              rw [List.filterMap_append, List.filterMap_cons_some hx, List.filterMap_nil,
                eraseDups_concat, if_pos ((hmem y).2 hy), ih]
          · have hl : x ∉ l := fun hl => hy (List.mem_filterMap.2 ⟨x, hl, hx⟩)
            rw [if_neg hy, if_neg hl, List.filterMap_append, List.filterMap_cons_some hx,
              List.filterMap_nil, eraseDups_concat, if_neg (mt (hmem y).1 hy), ih]

theorem eraseDups_map_eraseDups (f : α → β) (l : List α) :
    (l.eraseDups.map f).eraseDups = (l.map f).eraseDups := by
  simpa only [List.filterMap_eq_map] using eraseDups_filterMap_eraseDups (some ∘ f) l

/-- Nothing that a list does not repeat is lost. -/
theorem eraseDups_of_nodup {l : List α} (h : l.Nodup) : l.eraseDups = l := by
  induction l using List.reverseRecOn with
  | nil => rfl
  | append_singleton l x ih =>
      rw [List.nodup_append] at h
      have hx : x ∉ l := fun hx => h.2.2 x hx x (by simp) rfl
      rw [eraseDups_concat, if_neg hx, ih h.1]

theorem eraseDups_map_of_injOn {f : α → β} {l : List α}
    (h : ∀ x ∈ l, ∀ y ∈ l, f x = f y → x = y) : (l.map f).eraseDups = l.eraseDups.map f := by
  rw [← eraseDups_map_eraseDups, eraseDups_of_nodup]
  rw [List.Nodup, List.pairwise_map]
  refine (nodup_eraseDups l).imp_of_mem fun hx hy hne heq => hne ?_
  exact h _ (List.mem_eraseDups.1 hx) _ (List.mem_eraseDups.1 hy) heq

theorem eraseDups_append_of_subset {l k : List α} (h : ∀ x ∈ k, x ∈ l) :
    (l ++ k).eraseDups = l.eraseDups := by
  have hnil : k.removeAll l = [] := by
    rw [List.removeAll, List.filter_eq_nil_iff]
    intro x hx
    simp [h x hx]
  rw [List.eraseDups_append, hnil, List.eraseDups_nil, List.append_nil]

/-- A list repeated for each entry of another has no more entries than once. -/
theorem eraseDups_flatMap_const {ι : Type} {l : List ι} (h : l ≠ []) (k : List α) :
    (l.flatMap fun _ => k).eraseDups = k.eraseDups := by
  obtain ⟨i, l, rfl⟩ := List.exists_cons_of_ne_nil h
  rw [List.flatMap_cons]
  apply eraseDups_append_of_subset
  intro x hx
  obtain ⟨_, _, hx⟩ := List.mem_flatMap.1 hx
  exact hx

/-- Entries that stand several times in a row can as well stand once. -/
theorem eraseDups_flatMap_map_const {ι κ : Type} {l : List ι} (f : ι → α) {k : ι → List κ}
    (h : ∀ i ∈ l, k i ≠ []) :
    (l.flatMap fun i => (k i).map fun _ => f i).eraseDups = (l.map f).eraseDups := by
  induction l using List.reverseRecOn with
  | nil => rfl
  | append_singleton l i ih =>
      have hl := ih fun j hj => h j (List.mem_append_left _ hj)
      obtain ⟨c, rest, hcons⟩ := List.exists_cons_of_ne_nil (h i (by simp))
      have hmem : f i ∈ (l.flatMap fun i => (k i).map fun _ => f i) ↔ f i ∈ l.map f := by
        rw [← List.mem_eraseDups, hl, List.mem_eraseDups]
      rw [List.flatMap_append, List.flatMap_singleton, hcons, List.map_cons,
        ← List.singleton_append, ← List.append_assoc, eraseDups_append_of_subset,
        eraseDups_concat, List.map_append, List.map_singleton, eraseDups_concat, hl]
      · by_cases hi : f i ∈ l.map f
        · rw [if_pos hi, if_pos (hmem.2 hi)]
        · rw [if_neg hi, if_neg (mt hmem.1 hi)]
      · intro x hx
        obtain ⟨_, _, rfl⟩ := List.mem_map.1 hx
        simp

/-- Reordered entries are the same entries, in another order of first occurrence. -/
theorem perm_eraseDups {l k : List α} (h : l.Perm k) : l.eraseDups.Perm k.eraseDups := by
  refine (List.perm_ext_iff_of_nodup (nodup_eraseDups l) (nodup_eraseDups k)).2 fun x => ?_
  rw [List.mem_eraseDups, List.mem_eraseDups, h.mem_iff]

theorem length_eraseDups_le_one {l : List α} (h : ∀ x ∈ l, ∀ y ∈ l, x = y) :
    l.eraseDups.length ≤ 1 := by
  cases l with
  | nil => exact Nat.zero_le 1
  | cons x l =>
      have hsame : (x :: l).eraseDups = List.replicate (x :: l).eraseDups.length x :=
        List.eq_replicate_iff.2 ⟨rfl, fun y hy =>
          h y (List.mem_eraseDups.1 hy) x List.mem_cons_self⟩
      have hnodup := nodup_eraseDups (x :: l)
      rw [hsame] at hnodup
      exact List.nodup_replicate.1 hnodup

end EntityQuery
