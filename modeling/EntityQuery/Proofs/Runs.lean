import Mathlib.Data.List.Basic

/-!
# Runs of one class

A run of entries of one class, followed by something else, is found again by
cutting where the class ends. What follows it is the first entry that is not of
the class (`IsFirstWithout`).
-/

namespace EntityQuery

variable {α : Type} {p : α → Bool} {run other rest more : List α}

theorem takeWhile_run_append (h : run.all p = true) (ends : ∀ a ∈ rest.head?, p a = false) :
    (run ++ rest).takeWhile p = run := by
  rw [List.takeWhile_append_of_pos (List.all_eq_true.1 h)]
  cases rest with
  | nil => exact List.append_nil run
  | cons a rest => simp [ends a rfl]

theorem dropWhile_run_append (h : run.all p = true) (ends : ∀ a ∈ rest.head?, p a = false) :
    (run ++ rest).dropWhile p = rest := by
  rw [List.dropWhile_append_of_pos (List.all_eq_true.1 h)]
  cases rest with
  | nil => rfl
  | cons a rest => simp [ends a rfl]

/-- A run ends where it is cut. -/
theorem ends_dropWhile (p : α → Bool) (xs : List α) :
    ∀ a ∈ (xs.dropWhile p).head?, p a = false := by
  intro a ha
  have hfirst := List.head?_dropWhile_not p xs
  rwa [Option.mem_def.1 ha] at hfirst

/-- A run is told apart from what follows it. -/
theorem run_append_inj (h : run.all p = true) (h' : other.all p = true)
    (ends : ∀ a ∈ rest.head?, p a = false) (ends' : ∀ a ∈ more.head?, p a = false)
    (heq : run ++ rest = other ++ more) : run = other ∧ rest = more := by
  constructor
  · rw [← takeWhile_run_append h ends, heq, takeWhile_run_append h' ends']
  · rw [← dropWhile_run_append h ends, heq, dropWhile_run_append h' ends']

/-- An element of a list that lacks a property which all elements before it have. -/
def IsFirstWithout {α : Type} (P : α → Prop) (xs : List α) (x : α) : Prop :=
  ∃ before after, xs = before ++ x :: after ∧ (∀ y ∈ before, P y) ∧ ¬ P x

theorem isFirstWithout_of_find? {α : Type} {p : α → Bool} {xs : List α} {x : α}
    (h : xs.find? (fun y => !p y) = some x) : IsFirstWithout (p · = true) xs x := by
  obtain ⟨hx, before, after, rfl, hbefore⟩ := List.find?_eq_some_iff_append.1 h
  refine ⟨before, after, rfl, fun y hy => ?_, by simpa using hx⟩
  simpa using hbefore y hy

theorem IsFirstWithout.mem {α : Type} {P : α → Prop} {xs : List α} {x : α}
    (h : IsFirstWithout P xs x) : x ∈ xs := by
  obtain ⟨before, after, rfl, -⟩ := h
  exact List.mem_append_right before List.mem_cons_self

theorem IsFirstWithout.not {α : Type} {P : α → Prop} {xs : List α} {x : α}
    (h : IsFirstWithout P xs x) : ¬P x := by
  obtain ⟨-, -, -, -, hx⟩ := h
  exact hx

/-- Either all elements have a property, or one is the first without it. -/
theorem forall_or_exists_isFirstWithout {α : Type} (P : α → Prop) (xs : List α) :
    (∀ x ∈ xs, P x) ∨ ∃ x, IsFirstWithout P xs x := by
  induction xs with
  | nil => exact .inl nofun
  | cons first rest ih =>
      by_cases hfirst : P first
      · rcases ih with hall | ⟨x, before, after, rfl, hbefore, hx⟩
        · exact .inl (List.forall_mem_cons.2 ⟨hfirst, hall⟩)
        · exact .inr ⟨x, first :: before, after, rfl,
            List.forall_mem_cons.2 ⟨hfirst, hbefore⟩, hx⟩
      · exact .inr ⟨first, [], rest, rfl, nofun, hfirst⟩

end EntityQuery
