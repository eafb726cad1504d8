import EntityQuery.Parameters
import EntityQuery.Proofs.Dict

/-!
# Parameters only grow

No operation on parameters takes a binding away, so a condition whose
placeholders are bound stays so.
-/

namespace EntityQuery

theorem Dict.contains_insert {α : Type} (d : Dict α) (key k : String) (value : α) :
    (d.insert key value).contains k = (decide (k = key) || d.contains k) := by
  rw [contains, contains, get?_insert]
  by_cases h : k = key <;> simp [h]

/-- Values that are gone through in the order in which they are listed. -/
def Values.ofList (order : List (String × Json))
    (distinct : (order.map Prod.fst).Nodup := by decide) : Values where
  bindings := Dict.ofList order
  order := order
  isOrder := (Dict.perm_entries_ofList distinct).symm

/-- The value of one name. -/
def Values.single (name : String) (value : Json) : Values :=
  .ofList [(name, value)] (List.pairwise_singleton _ _)

@[simp] theorem Values.bindings_empty : (∅ : Values).bindings = ∅ := rfl

namespace Parameters

/-- Every name that is bound before is bound after. -/
def GrowsTo (before after : Parameters) : Prop :=
  ∀ name, before.values.contains name = true → after.values.contains name = true

variable {before between after : Parameters}

theorem GrowsTo.refl (parameters : Parameters) : parameters.GrowsTo parameters :=
  fun _ h => h

theorem GrowsTo.trans (h : before.GrowsTo between) (h' : between.GrowsTo after) :
    before.GrowsTo after :=
  fun name hname => h' name (h name hname)

theorem growsTo_insert (parameters : Parameters) (name : String) (value : Json) :
    parameters.GrowsTo { parameters with values := parameters.values.insert name value } := by
  intro other hother
  rw [Dict.contains_insert, hother, Bool.or_true]

theorem growsTo_add {overwrite : Bool} {name : String} {value : Json}
    (h : before.add overwrite name value = .ok after) : before.GrowsTo after := by
  rw [add] at h
  split at h
  next => exact Except.ok.inj h ▸ growsTo_insert before name value
  next existing _ =>
    split at h
    next => exact Except.ok.inj h ▸ .refl before
    next =>
      split at h
      next => exact Except.ok.inj h ▸ growsTo_insert before name value
      next => cases h

/-- Also where a conflict ends the binding half way, nothing is lost. -/
theorem growsTo_addAll (parameters : Parameters) (overwrite : Bool)
    (pairs : List (String × Json)) :
    parameters.GrowsTo (parameters.addAll overwrite pairs).2 := by
  induction pairs generalizing parameters with
  | nil => exact .refl parameters
  | cons pair pairs ih =>
      obtain ⟨name, value⟩ := pair
      rw [addAll]
      split
      next next hadd => exact (growsTo_add hadd).trans (ih next)
      next => exact .refl parameters

theorem growsTo_extend {values : Values} (h : before.extend values = .ok after) :
    before.GrowsTo after := by
  have hgrows := growsTo_addAll before false values.order
  rw [extend] at h
  split at h
  next heq => rw [heq] at hgrows; exact Except.ok.inj h ▸ hgrows
  next => cases h

theorem growsTo_mint (parameters : Parameters) (base : String) :
    parameters.GrowsTo (parameters.mint base).2 := .refl parameters

end Parameters

end EntityQuery
