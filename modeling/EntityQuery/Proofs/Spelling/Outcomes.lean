import EntityQuery.Error
import EntityQuery.Proofs.Except

/-!
# Outcomes in two dialects

One failure depends on the dialect: that an update assigns a property of a
joined table. Every other outcome is common to the dialects, and computations
in sequence have the same outcome if each of their parts does
(`SameOutcome.bind`).
-/

namespace EntityQuery

/-- Whether a failure is that an update assigns a property of a joined table. -/
def QueryError.isJoinedTarget : QueryError → Bool
  | joinedUpdateTarget _ _ => true
  | _ => false

variable {α β γ δ : Type}

/-- An outcome that does not depend on the dialect: the one failure that does is not it. -/
def IsCommon (x : Except QueryError α) : Prop := ∀ e, x = .error e → e.isJoinedTarget = false

theorem isCommon_ok (a : α) : IsCommon (.ok a : Except QueryError α) := by
  intro e h
  cases h

theorem isCommon_error {e : QueryError} (h : e.isJoinedTarget = false) :
    IsCommon (.error e : Except QueryError α) := by
  intro e' he
  cases he
  exact h

instance decidableIsCommon (x : Except QueryError α) : Decidable (IsCommon x) :=
  match x with
  | .ok a => isTrue (isCommon_ok a)
  | .error e => decidable_of_iff (e.isJoinedTarget = false) ⟨isCommon_error, fun h => h e rfl⟩

section bind

variable {x : Except QueryError α} {f : α → Except QueryError β}

theorem IsCommon.bind (first : IsCommon x) (rest : ∀ a, x = .ok a → IsCommon (f a)) :
    IsCommon (x >>= f) := by
  intro e h
  rcases bind_eq_error.1 h with hx | ⟨a, ha, hf⟩
  · exact first e hx
  · exact rest a ha e hf

theorem IsCommon.of_bind (h : IsCommon (x >>= f)) : IsCommon x :=
  fun e hx => h e (bind_eq_error.2 (.inl hx))

theorem IsCommon.of_bind_ok (h : IsCommon (x >>= f)) {a : α} (ha : x = .ok a) : IsCommon (f a) :=
  fun e hf => h e (bind_eq_error.2 (.inr ⟨a, ha, hf⟩))

end bind

theorem IsCommon.of_map {x : Except QueryError α} {f : α → β} (h : IsCommon (x.map f)) :
    IsCommon x := by
  rintro e rfl
  exact h e rfl

theorem isCommon_mapM {f : α → Except QueryError β} {xs : List α}
    (h : ∀ x ∈ xs, IsCommon (f x)) : IsCommon (xs.mapM f) := by
  induction xs with
  | nil => exact isCommon_ok []
  | cons x xs ih =>
      rw [List.mapM_cons]
      refine (h x List.mem_cons_self).bind fun y _ => ?_
      refine (ih fun x hx => h x (List.mem_cons_of_mem _ hx)).bind fun ys _ => ?_
      exact isCommon_ok _

/-- Faults of conditions are common to the dialects. -/
theorem isCommon_mapError_condition (x : Except Condition.Error α) :
    IsCommon (x.mapError .condition) := by
  cases x with
  | ok a => exact isCommon_ok a
  | error e => exact isCommon_error rfl

/-- Success with related results, or one failure that is common to the dialects. -/
inductive SameOutcome (R : α → β → Prop) : Except QueryError α → Except QueryError β → Prop
  | ok {a : α} {b : β} (h : R a b) : SameOutcome R (.ok a) (.ok b)
  | error {e : QueryError} (h : e.isJoinedTarget = false) : SameOutcome R (.error e) (.error e)

theorem IsCommon.same {x : Except QueryError α} (h : IsCommon x) : SameOutcome Eq x x := by
  cases x with
  | ok a => exact .ok rfl
  | error e => exact .error (h e rfl)

/-- A common first part is the same for both, and so is what it gives. -/
theorem IsCommon.same_bind {R : β → γ → Prop} {x : Except QueryError α}
    {f : α → Except QueryError β} {k : α → Except QueryError γ} (first : IsCommon x)
    (rest : ∀ a, x = .ok a → SameOutcome R (f a) (k a)) : SameOutcome R (x >>= f) (x >>= k) := by
  cases x with
  | ok a => exact rest a rfl
  | error e => exact .error (first e rfl)

namespace SameOutcome

variable {R : α → β → Prop} {S : γ → δ → Prop} {x : Except QueryError α} {y : Except QueryError β}

theorem isCommon (same : SameOutcome R x y) : IsCommon x := by
  cases same with
  | ok h => exact isCommon_ok _
  | error h => exact isCommon_error h

theorem eq {x y : Except QueryError α} (same : SameOutcome Eq x y) : x = y := by
  cases same with
  | ok h => rw [h]
  | error h => rfl

/-- Where results are related, they are those of the computations. -/
theorem attach (same : SameOutcome R x y) :
    SameOutcome (fun a b => R a b ∧ x = .ok a ∧ y = .ok b) x y := by
  cases same with
  | ok h => exact .ok ⟨h, rfl, rfl⟩
  | error h => exact .error h

theorem bind {f : α → Except QueryError γ} {k : β → Except QueryError δ} (first : SameOutcome R x y)
    (rest : ∀ a b, R a b → SameOutcome S (f a) (k b)) : SameOutcome S (x >>= f) (y >>= k) := by
  cases first with
  | ok h => exact rest _ _ h
  | error h => exact .error h

theorem map {f : α → γ} {k : β → δ} (same : SameOutcome R x y)
    (related : ∀ a b, R a b → S (f a) (k b)) : SameOutcome S (x.map f) (y.map k) := by
  cases same with
  | ok h => exact .ok (related _ _ h)
  | error h => exact .error h

theorem ite {c : Prop} [Decidable c] {x' : Except QueryError α} {y' : Except QueryError β}
    (pos : SameOutcome R x y) (neg : SameOutcome R x' y') :
    SameOutcome R (if c then x else x') (if c then y else y') := by
  split
  next => exact pos
  next => exact neg

end SameOutcome

end EntityQuery
