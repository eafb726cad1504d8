import EntityQuery.Proofs.Condition.Unambiguity
import EntityQuery.Proofs.Sql.Rendering

/-!
# Conditions that hold together

The conditions that a query states by itself are equalities: one alone, or several in a
list. Whatever goes through the whole goes through its parts in order, and the parts of
the text stand between the same words.
-/

namespace EntityQuery.Condition

/-- Conditions that hold together: one alone, or any other number of them in a list. -/
def conjunction : List Condition → Condition
  | [condition] => condition
  | conditions => .boolean .and conditions

theorem conjunction_cons_cons (first second : Condition) (rest : List Condition) :
    conjunction (first :: second :: rest) = .boolean .and (first :: second :: rest) := rfl

theorem leaves_conjunction (conditions : List Condition) :
    (conjunction conditions).leaves = conditions.flatMap leaves := by
  rcases conditions with _ | ⟨first, _ | ⟨second, rest⟩⟩
  · rfl
  · exact (List.flatMap_singleton ..).symm
  · rw [conjunction_cons_cons, leaves, leavesIn_eq_flatMap]

theorem operands_conjunction (conditions : List Condition) :
    (conjunction conditions).operands = conditions.flatMap operands := by
  rcases conditions with _ | ⟨first, _ | ⟨second, rest⟩⟩
  · rfl
  · exact (List.flatMap_singleton ..).symm
  · rw [conjunction_cons_cons, operands, operandsIn_eq_flatMap]

theorem mentions_conjunction (conditions : List Condition) :
    (conjunction conditions).mentions = conditions.flatMap mentions := by
  rcases conditions with _ | ⟨first, _ | ⟨second, rest⟩⟩
  · rfl
  · exact (List.flatMap_singleton ..).symm
  · rw [conjunction_cons_cons, mentions, mentionsIn_eq_flatMap]

theorem isWellKinded_conjunction {conditions : List Condition} (nonempty : conditions ≠ [])
    (h : ∀ condition ∈ conditions, condition.isWellKinded = true) :
    (conjunction conditions).isWellKinded = true := by
  rcases conditions with _ | ⟨first, _ | ⟨second, rest⟩⟩
  · exact absurd rfl nonempty
  · exact h first List.mem_cons_self
  · rw [conjunction_cons_cons, isWellKinded, areWellKinded_iff.2 h]
    rfl

theorem mapColumns_conjunction (f : String → String) (conditions : List Condition) :
    (conjunction conditions).mapColumns f = conjunction (conditions.map (mapColumns f)) := by
  rcases conditions with _ | ⟨first, _ | ⟨second, rest⟩⟩
  · rfl
  · rfl
  · rw [conjunction_cons_cons, mapColumns, mapColumnsIn_eq_map]
    rfl

theorem isBlank_toJson (condition : Condition) : isBlank condition.toJson = false := by
  cases condition <;> rfl

/-- Conditions in a list are written one after the other, with the same word between them. -/
theorem render_joinedTokens (d : Sql.Dialect) (conditions : List Condition) :
    Sql.render d (joinedTokens .and conditions) = " AND ".intercalate (conditions.map (sql d)) := by
  induction conditions with
  | nil => rfl
  | cons first rest ih =>
      cases rest with
      | nil => exact String.intercalate_singleton.symm
      | cons second rest =>
          have hand : Sql.render d (infixTokens .and) = " AND " := rfl
          rw [joinedTokens_cons_cons, Sql.render_append, Sql.render_append, ih, hand,
            List.map_cons, List.map_cons, List.map_cons, String.intercalate_cons_cons]
          rfl

end EntityQuery.Condition
