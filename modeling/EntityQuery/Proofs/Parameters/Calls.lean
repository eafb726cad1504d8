import EntityQuery.Proofs.Parameters.Bindings
import EntityQuery.Proofs.Parameters.Minting

/-!
# Calls on parameters

Whatever calls are made on parameters, the names that they make up are different
from each other, and what is bound stays bound to its value until a call overwrites
it. To bind the values of a dictionary comes to the same in any order: where it
succeeds, the result is the union, and where it fails, nothing that was bound is
lost and nothing else than those values is new (`Parameters.IsBinding`).
-/

namespace EntityQuery.Parameters

/-- A call on parameters. The bindings of a dictionary are taken in any order. -/
inductive Call where
  | mint (base : String)
  | add (overwrite : Bool) (name : String) (value : Json)
  | addAll (overwrite : Bool) (values : Dict Json) (order : List (String × Json))
      (h : order.Perm values.entries)
  | merge (overwrite : Bool) (other : Parameters) (order : List (String × Json))
      (h : order.Perm other.values.entries)

/-- The text that a call makes a name up from. -/
def Call.base? : Call → Option String
  | mint base => some base
  | add .. | addAll .. | merge .. => none

/-- The values that a call binds to names, in the order in which it takes them. -/
def Call.pairs : Call → List (String × Json)
  | mint _ => []
  | add _ name value => [(name, value)]
  | addAll _ _ order _ | merge _ _ order _ => order

/-- Whether a call may bind names that have other values. -/
def Call.overwrites : Call → Bool
  | mint _ => false
  | add overwrite .. | addAll overwrite .. | merge overwrite .. => overwrite

/-- The parameters after a call, whether or not it succeeds. -/
def perform (parameters : Parameters) : Call → Parameters
  | .mint base => (parameters.mint base).2
  | .add overwrite name value => (parameters.add overwrite name value).toOption.getD parameters
  | .addAll overwrite _ order _ | .merge overwrite _ order _ =>
      (parameters.addAll overwrite order).2

/-- The parameters after calls in turn. -/
def after (parameters : Parameters) (calls : List Call) : Parameters :=
  calls.foldl perform parameters

/-- The names that calls in turn hand out. -/
def handedOut (parameters : Parameters) : List Call → List String
  | [] => []
  | .mint base :: calls => (parameters.mint base).1 :: (parameters.mint base).2.handedOut calls
  | call :: calls => (parameters.perform call).handedOut calls

/-- What comes of binding values, in whichever order they are taken. -/
structure IsBinding (parameters : Parameters) (overwrite : Bool) (values : Dict Json)
    (outcome : Except QueryError Unit × Parameters) : Prop where
  succeeds_iff : outcome.1 = .ok () ↔ overwrite = true ∨ parameters.values.Agrees values
  eq_bind : outcome.1 = .ok () → outcome.2 = parameters.bind values
  conflict : ∀ error, outcome.1 = .error error → ∃ name bound value,
    parameters.get? name = some bound ∧ values.get? name = some value ∧ bound ≠ value ∧
      error = .parameterConflict name
  keepsTo : ∀ error, outcome.1 = .error error → parameters.KeepsTo outcome.2
  given : ∀ name value, outcome.2.get? name = some value →
    parameters.get? name = some value ∨ values.get? name = some value
  next_eq : outcome.2.next = parameters.next

variable {parameters : Parameters} {overwrite : Bool} {values : Dict Json}
  {order : List (String × Json)}

/-! ### Binding in any order -/

/-- Values may be bound in any order. -/
theorem isBinding_addAll (parameters : Parameters) (overwrite : Bool)
    (h : order.Perm values.entries) :
    parameters.IsBinding overwrite values (parameters.addAll overwrite order) := by
  have hgiven : ∀ name value, (parameters.addAll overwrite order).2.get? name = some value →
      parameters.get? name = some value ∨ values.get? name = some value := by
    intro name value hvalue
    rcases get?_addAll parameters overwrite order name with hkept | ⟨-, given, hmem, hbound⟩
    · exact .inl (hkept ▸ hvalue)
    · obtain rfl := Option.some.inj (hbound.symm.trans hvalue)
      exact .inr (Dict.lookup_of_mem values.nodup_keys (h.mem_iff.1 hmem))
  have hnext := next_addAll parameters overwrite order
  cases overwrite with
  | true =>
      have hbind : parameters.addAll true order = (.ok (), parameters.bind values) := by
        rw [addAll_true, bind, Dict.insertAll_perm _ _ h]
      rw [hbind] at hgiven hnext ⊢
      refine ⟨by simp, fun _ => rfl, fun _ h => ?_, fun _ h => ?_, hgiven, hnext⟩
      · cases h
      · cases h
  | false =>
      have hdistinct : (order.map Prod.fst).Nodup :=
        (h.map Prod.fst).nodup_iff.2 values.nodup_keys
      have hok (after : Parameters) : parameters.addAll false order = (.ok (), after) ↔
          parameters.values.Agrees values ∧ after = parameters.bind values :=
        addAll_eq_ok_iff_agrees h
      refine ⟨?_, fun hsucceeds => ((hok _).1 (Prod.ext hsucceeds rfl)).2, ?_,
        fun _ _ => keepsTo_addAll parameters order, hgiven, hnext⟩
      · constructor
        · intro hsucceeds
          exact .inr ((hok _).1 (Prod.ext hsucceeds rfl)).1
        · rintro (hleave | hagrees)
          · cases hleave
          · rw [(hok _).2 ⟨hagrees, rfl⟩]
      · intro error herror
        obtain ⟨name, bound, value, hbound, hmem, hne, rfl⟩ := conflict_of_addAll hdistinct herror
        exact ⟨name, bound, value, hbound,
          Dict.lookup_of_mem values.nodup_keys (h.mem_iff.1 hmem), hne, rfl⟩

/-! ### Runs of calls -/

/-- A call that adds a value is one that adds it as the only one. -/
theorem perform_add (parameters : Parameters) (overwrite : Bool) (name : String) (value : Json) :
    parameters.perform (.add overwrite name value) =
      (parameters.addAll overwrite [(name, value)]).2 := by
  rw [perform, addAll]
  cases parameters.add overwrite name value <;> rfl

/-- A call other than for a name binds its pairs. -/
theorem perform_eq_addAll {call : Call} (h : call.base? = none) :
    parameters.perform call = (parameters.addAll call.overwrites call.pairs).2 := by
  cases call with
  | mint base => cases h
  | add overwrite name value => exact perform_add parameters overwrite name value
  | addAll overwrite values order h => rfl
  | merge overwrite other order h => rfl

/-- A call leaves a binding as it is, or overwrites it by another value that it is given. -/
theorem get?_perform (parameters : Parameters) (call : Call) {name : String} {value : Json}
    (h : parameters.get? name = some value) :
    (parameters.perform call).get? name = some value ∨ call.overwrites = true ∧
      ∃ other, (name, other) ∈ call.pairs ∧ (parameters.perform call).get? name = some other := by
  cases hbase : call.base? with
  | some base =>
      cases call with
      | mint => exact .inl h
      | add | addAll | merge => cases hbase
  | none =>
      rw [perform_eq_addAll hbase]
      rcases get?_addAll parameters call.overwrites call.pairs name with
        hkept | ⟨hleave | hfree, hgiven⟩
      · exact .inl (hkept.trans h)
      · exact .inr ⟨hleave, hgiven⟩
      · rw [h] at hfree
        cases hfree

/-- After any calls a name that was bound is bound, and to its value unless one of the calls
overwrote it by another. -/
theorem get?_after (parameters : Parameters) (calls : List Call) {name : String} {value : Json}
    (h : parameters.get? name = some value) :
    (parameters.after calls).get? name ≠ none ∧
      ((parameters.after calls).get? name = some value ∨ ∃ call ∈ calls,
        call.overwrites = true ∧ ∃ other, other ≠ value ∧ (name, other) ∈ call.pairs) := by
  induction calls generalizing parameters value with
  | nil => exact ⟨by rw [after, List.foldl_nil, h]; exact nofun, .inl h⟩
  | cons call calls ih =>
      rcases get?_perform parameters call h with hkept | ⟨hoverwrites, other, hmem, hgiven⟩
      · obtain ⟨hbound, hvalue⟩ := ih (parameters.perform call) hkept
        refine ⟨hbound, hvalue.imp_right ?_⟩
        rintro ⟨later, hlater, hchanges⟩
        exact ⟨later, List.mem_cons_of_mem _ hlater, hchanges⟩
      · obtain ⟨hbound, hvalue⟩ := ih (parameters.perform call) hgiven
        refine ⟨hbound, ?_⟩
        by_cases hsame : other = value
        · -- the call gave the name the value that it had
          subst hsame
          refine hvalue.imp_right ?_
          rintro ⟨later, hlater, hchanges⟩
          exact ⟨later, List.mem_cons_of_mem _ hlater, hchanges⟩
        · exact .inr ⟨call, List.mem_cons_self, hoverwrites, other, hsame, hmem⟩

/-- A call for a name uses up a number, and no other call does. -/
theorem next_perform (parameters : Parameters) (call : Call) :
    (parameters.perform call).next = parameters.next + call.base?.toList.length := by
  cases hbase : call.base? with
  | some base =>
      cases call with
      | mint => rfl
      | add | addAll | merge => cases hbase
  | none =>
      rw [perform_eq_addAll hbase, next_addAll]
      rfl

theorem next_after (parameters : Parameters) (calls : List Call) :
    (parameters.after calls).next = parameters.next + (calls.filterMap Call.base?).length := by
  induction calls generalizing parameters with
  | nil => rfl
  | cons call calls ih =>
      have hstep : parameters.after (call :: calls) = (parameters.perform call).after calls := rfl
      rw [hstep, ih, next_perform, List.filterMap_cons]
      cases call.base? with
      | none => simp
      | some base =>
          simp
          omega

/-- The names handed out are made up in turn, whatever is called in between. -/
theorem handedOut_eq (parameters : Parameters) (calls : List Call) :
    parameters.handedOut calls = mintedNames (calls.filterMap Call.base?) parameters.next := by
  induction calls generalizing parameters with
  | nil => rfl
  | cons call calls ih =>
      have hnext := next_perform parameters call
      cases call with
      | mint base => exact congrArg _ (ih _)
      | add | addAll | merge => exact (ih _).trans (congrArg _ hnext)

/-- Whatever calls are made, the names that they hand out are pairwise different and made of
word characters, and a binding stays until a call overwrites it. Values are bound in any order
alike, those of other parameters as those of a dictionary, and only a call for a name uses up
a number. -/
theorem names_and_bindings_of_calls (start : Parameters) (calls : List Call) :
    (start.handedOut calls).Nodup ∧
    (∀ name ∈ start.handedOut calls, Text.isName name = true) ∧
    (∀ name value, start.get? name = some value → (start.after calls).get? name ≠ none ∧
      ((start.after calls).get? name = some value ∨ ∃ call ∈ calls,
        call.overwrites = true ∧ ∃ other, other ≠ value ∧ (name, other) ∈ call.pairs)) ∧
    (start.after calls).next = start.next + (calls.filterMap Call.base?).length ∧
    (∀ overwrite (values : Dict Json) order, order.Perm values.entries →
      start.IsBinding overwrite values (start.addAll overwrite order)) ∧
    ∀ overwrite (other : Parameters),
      start.merge overwrite other = start.addAll overwrite other.values.entries ∧
        start.IsBinding overwrite other.values (start.merge overwrite other) := by
  rw [handedOut_eq]
  refine ⟨nodup_mintedNames _ _, ?_, fun _ _ => get?_after start calls, next_after start calls,
    fun overwrite values order => isBinding_addAll start overwrite, fun overwrite other =>
      ⟨rfl, isBinding_addAll start overwrite .rfl⟩⟩
  intro name hname
  obtain ⟨base, n, -, -, rfl⟩ := exists_of_mem_mintedNames hname
  exact isName_mintedName base n

/-- One name with a value, which is also the first name that will be made up. -/
def foreseenName : Parameters := ⟨Dict.ofList [("u_id_0", .num "1")], 0⟩

/-- Two values of which the second is in conflict with `foreseenName`. -/
def twoValues : Dict Json := Dict.ofList [("no", .num "7"), ("u_id_0", .num "2")]

/-- A name, two values of which the second is refused, the same with leave to overwrite in the
other order, and a name from another text. -/
def rebindingCalls : List Call :=
  [.mint "u.id", .addAll false twoValues twoValues.entries .rfl,
    .merge true ⟨twoValues, 5⟩ twoValues.entries.reverse (List.reverse_perm _), .mint "u id"]

theorem names_and_bindings_of_calls_rebindingCalls :
    foreseenName.handedOut rebindingCalls = ["u_id_0", "u_id_1"] ∧
      Text.isName "u_id_1" = true ∧
      foreseenName.get? "u_id_0" = some (.num "1") ∧
      (foreseenName.after rebindingCalls).get? "u_id_0" = some (.num "2") ∧
      (∃ call ∈ rebindingCalls, call.overwrites = true ∧
        ∃ other, other ≠ Json.num "1" ∧ ("u_id_0", other) ∈ call.pairs) ∧
      twoValues.entries.reverse.Perm twoValues.entries ∧
      foreseenName.IsBinding false twoValues
        (foreseenName.addAll false twoValues.entries.reverse) ∧
      (foreseenName.addAll false twoValues.entries.reverse).1 =
        .error (.parameterConflict "u_id_0") := by
  obtain ⟨-, hnames, hbindings, -, hbinds, -⟩ :=
    names_and_bindings_of_calls foreseenName rebindingCalls
  have hhanded : foreseenName.handedOut rebindingCalls = ["u_id_0", "u_id_1"] := by decide +kernel
  have hbound : foreseenName.get? "u_id_0" = some (.num "1") := by decide +kernel
  have hafter : (foreseenName.after rebindingCalls).get? "u_id_0" = some (.num "2") := by
    decide +kernel
  have hperm : twoValues.entries.reverse.Perm twoValues.entries := List.reverse_perm _
  have hchanged : (foreseenName.after rebindingCalls).get? "u_id_0" ≠ some (.num "1") := by
    rw [hafter]
    decide
  exact ⟨hhanded, hnames _ (hhanded ▸ by decide), hbound, hafter,
    (hbindings _ _ hbound).2.resolve_left hchanged, hperm, hbinds false twoValues _ hperm,
    by decide +kernel⟩

end EntityQuery.Parameters
