import EntityQuery.Proofs.Condition.Conjunctions
import EntityQuery.Proofs.JoinGraph.Acceptance
import EntityQuery.Proofs.Parameters.Minting
import EntityQuery.Proofs.Values.Statements

/-!
# Conditions on the key of a model

The key values of a model are bound to made-up names, and the condition that
equates the key with them is read back from its JSON form, renamed to columns
and written in SQL. Here it is followed through all of these forms, up to its
text (`ofCondition_conditionOf`).
-/

namespace EntityQuery

/-- Whether a model has a property with a value other than null. -/
def Model.hasValue (model : Model) (property : String) : Bool :=
  match model.get? property with
  | none | some .null => false
  | some _ => true

theorem Model.hasValue_iff {model : Model} {property : String} :
    model.hasValue property = true ↔
      ∃ value, model.get? property = some value ∧ value ≠ .null := by
  rw [hasValue]
  split
  next hnone => simp [hnone]
  next hnull => simp [hnull]
  next value _ hsome =>
    refine iff_of_true rfl ⟨value, hsome, ?_⟩
    rintro rfl
    contradiction

namespace Keyed

variable {label : String} {model : Model} {parameters : Parameters} {keys : List Column}
  {bindings : List Binding}

/-! ### Key values -/

/-- The bindings of key values to names made up in turn. -/
def bindingsOf (label : String) (model : Model) (next : Nat) : List Column → List Binding
  | [] => []
  | key :: rest =>
      ⟨label ++ "." ++ key.property, Parameters.mintedName (label ++ "." ++ key.property) next,
        key.saved ((model.get? key.property).getD .null)⟩ ::
      bindingsOf label model (next + 1) rest

theorem bindKeys_cons {key : Column} {rest : List Column} {value : Json}
    (hvalue : model.get? key.property = some value) (hne : value ≠ .null) :
    bindKeys label model parameters (key :: rest) =
      match bindKeys label model (parameters.mint (label ++ "." ++ key.property)).2 rest with
      | (.ok bindings, after) =>
          (.ok (⟨label ++ "." ++ key.property,
            (parameters.mint (label ++ "." ++ key.property)).1, key.save value⟩ :: bindings), after)
      | (.error error, after) => (.error error, after) := by
  rw [bindKeys]
  split
  next hnone => rw [hnone] at hvalue; cases hvalue
  next hnull => rw [hnull] at hvalue; exact absurd (Option.some.inj hvalue).symm hne
  next found _ hfound =>
    obtain rfl := Option.some.inj (hfound.symm.trans hvalue)
    rfl

/-- The key values are bound in turn if the model has all of them. -/
theorem bindKeys_eq (complete : ∀ key ∈ keys, model.hasValue key.property = true) :
    bindKeys label model parameters keys =
      (.ok (bindingsOf label model parameters.next keys),
        { parameters with next := parameters.next + keys.length }) := by
  induction keys generalizing parameters with
  | nil => rfl
  | cons key rest ih =>
      obtain ⟨hkey, hrest⟩ := List.forall_mem_cons.1 complete
      obtain ⟨value, hvalue, hne⟩ := Model.hasValue_iff.1 hkey
      rw [bindKeys_cons hvalue hne, ih hrest, bindingsOf, hvalue, Parameters.mint_eq,
        Option.getD_some, key.save_eq_saved, List.length_cons, Nat.add_right_comm, Nat.add_assoc]

/-- Otherwise the first key without a value is reported. -/
theorem bindKeys_eq_error {key : Column}
    (missing : keys.find? (fun key => !model.hasValue key.property) = some key) :
    (bindKeys label model parameters keys).1 = .error (.missingModelKey key.property) := by
  induction keys generalizing parameters with
  | nil => cases missing
  | cons first rest ih =>
      rw [List.find?_cons] at missing
      cases hfirst : model.hasValue first.property with
      | true =>
          obtain ⟨value, hvalue, hne⟩ := Model.hasValue_iff.1 hfirst
          rw [hfirst] at missing
          have hrest : (bindKeys label model
              (parameters.mint (label ++ "." ++ first.property)).2 rest).1 =
                .error (.missingModelKey key.property) := ih missing
          rw [bindKeys_cons hvalue hne]
          split
          next others after heq => rw [heq] at hrest; cases hrest
          next error after heq => rw [heq] at hrest; exact hrest
      | false =>
          rw [hfirst] at missing
          obtain rfl := Option.some.inj missing
          rw [bindKeys]
          split
          next => rfl
          next => rfl
          next value hne hvalue =>
            have htrue := Model.hasValue_iff.2 ⟨value, hvalue, hne⟩
            rw [hfirst] at htrue
            cases htrue

/-- To make up names binds none. -/
theorem values_bindKeys (label : String) (model : Model) (parameters : Parameters)
    (keys : List Column) : (bindKeys label model parameters keys).2.values = parameters.values := by
  induction keys generalizing parameters with
  | nil => rfl
  | cons key rest ih =>
      rw [bindKeys]
      split
      next => rfl
      next => rfl
      next =>
        have hrest := ih (parameters.mint (label ++ "." ++ key.property)).2
        dsimp only
        split
        next heq => rw [heq] at hrest; exact hrest
        next heq => rw [heq] at hrest; exact hrest

theorem values_keyCondition (table : Table) (label : String) (model : Model)
    (parameters : Parameters) :
    (keyCondition table label model parameters).2.values = parameters.values := by
  have hkeys := values_bindKeys label model parameters table.primaryKey
  unfold keyCondition
  split
  next heq => rw [heq] at hkeys; exact hkeys
  next heq => rw [heq] at hkeys; exact hkeys

theorem placeholders_bindingsOf (label : String) (model : Model) (next : Nat)
    (keys : List Column) :
    (bindingsOf label model next keys).map Binding.placeholder =
      Parameters.mintedNames (keys.map fun key => label ++ "." ++ key.property) next := by
  induction keys generalizing next with
  | nil => rfl
  | cons key rest ih =>
      rw [bindingsOf, List.map_cons, ih, List.map_cons, Parameters.mintedNames_cons]

/-! ### The condition and its forms -/

/-- An equality is read back from its JSON form. -/
def Binding.IsLegible (b : Binding) : Prop :=
  (Operand.column b.property).isGenuine = true ∧ Json.isPlain b.property = true ∧
    Text.isName b.placeholder = true

theorem conditionOf_eq_conjunction (bindings : List Binding) :
    conditionOf bindings = Condition.conjunction (bindings.map Binding.condition) := by
  rcases bindings with _ | ⟨first, _ | ⟨second, rest⟩⟩ <;> rfl

theorem leaves_conditionOf (bindings : List Binding) :
    (conditionOf bindings).leaves =
      bindings.flatMap fun b => [.column b.property, .parameter b.placeholder] := by
  rw [conditionOf_eq_conjunction, Condition.leaves_conjunction, List.flatMap_map]
  rfl

theorem isWellKinded_conditionOf (nonempty : bindings ≠ []) :
    (conditionOf bindings).isWellKinded = true := by
  rw [conditionOf_eq_conjunction]
  refine Condition.isWellKinded_conjunction (mt List.map_eq_nil_iff.1 nonempty) ?_
  exact List.forall_mem_map.2 fun _ _ => rfl

/-- The condition on a key is read back from its JSON form. -/
theorem ofJson_conditionOf (nonempty : bindings ≠ [])
    (legible : ∀ b ∈ bindings, b.IsLegible) :
    Condition.ofJson (conditionOf bindings).toJson = .ok (conditionOf bindings) := by
  have hleaf : ∀ value ∈ (conditionOf bindings).leaves,
      value.isGenuine = true ∧ value.isPlain = true := by
    intro value hvalue
    rw [leaves_conditionOf] at hvalue
    obtain ⟨b, hb, hvalue⟩ := List.mem_flatMap.1 hvalue
    obtain ⟨hgenuine, hplain, hname⟩ := legible b hb
    rcases List.mem_pair.1 hvalue with rfl | rfl
    · exact ⟨hgenuine, hplain⟩
    · have hparameter := Operand.isGenuine_parameter.2 (Text.isName_iff.1 hname).1
      exact ⟨hparameter, Text.isPlain_of_all_isWord (Text.isName_iff.1 hname).2⟩
  exact Condition.ofJson_toJson_of_isPlain (isWellKinded_conditionOf nonempty)
    (fun value hvalue => (hleaf value hvalue).1) fun value hvalue => (hleaf value hvalue).2

/-- The same placeholder for what a look-up has for the property. -/
def Binding.renamed (lookup : String → Option String) (b : Binding) : Binding :=
  { b with property := (lookup b.property).getD b.property }

/-- Renamed, the condition on a key is that on its columns. -/
theorem mapColumns_conditionOf (lookup : String → Option String) (bindings : List Binding) :
    (conditionOf bindings).mapColumns (Condition.nameIn lookup) =
      conditionOf (bindings.map (Binding.renamed lookup)) := by
  rw [conditionOf_eq_conjunction, conditionOf_eq_conjunction, Condition.mapColumns_conjunction,
    List.map_map, List.map_map]
  rfl

theorem operands_conditionOf (bindings : List Binding) :
    (conditionOf bindings).operands =
      bindings.map fun b => .parameter b.placeholder := by
  rw [conditionOf_eq_conjunction, Condition.operands_conjunction, List.flatMap_map,
    List.map_eq_flatMap]
  rfl

theorem mem_parameters_conditionOf {name : String} :
    name ∈ (conditionOf bindings).parameters ↔ name ∈ bindings.map Binding.placeholder := by
  rw [Condition.parameters, List.mem_eraseDups, operands_conditionOf, List.filterMap_map]
  simp [Operand.parameter?]

/-- Equalities that hold together: one alone, or several in parentheses. -/
def conjunctionText : List String → String
  | [text] => text
  | texts => "(" ++ " AND ".intercalate texts ++ ")"

/-- The equality of a column and its placeholder. -/
def Binding.text (d : Sql.Dialect) (b : Binding) : String :=
  d.quoteColumn b.property ++ " = :" ++ b.placeholder

theorem sql_condition (d : Sql.Dialect) (b : Binding) : b.condition.sql d = b.text d := by
  rw [Binding.text, String.append_assoc, Sql.equals_placeholder]
  simp [Binding.condition, Condition.sql, Condition.sqlTokens, Condition.infixTokens,
    Operator.sqlTokens, Operand.sqlToken]

/-- In SQL, conditions that hold together are their texts together. -/
theorem sql_conjunction (d : Sql.Dialect) (conditions : List Condition) :
    (Condition.conjunction conditions).sql d = conjunctionText (conditions.map (Condition.sql d)) := by
  rcases conditions with _ | ⟨first, _ | ⟨second, rest⟩⟩
  · rfl
  · rfl
  · rw [Condition.conjunction_cons_cons, Condition.sql, Condition.sqlTokens,
      Sql.render_parenthesized, Condition.render_joinedTokens]
    rfl

theorem sql_conditionOf (d : Sql.Dialect) (bindings : List Binding) :
    (conditionOf bindings).sql d = conjunctionText (bindings.map (Binding.text d)) := by
  rw [conditionOf_eq_conjunction, sql_conjunction, List.map_map]
  exact congrArg _ (List.map_congr_left fun b _ => sql_condition d b)

theorem mentions_conditionOf (bindings : List Binding) :
    (conditionOf bindings).mentions = bindings.map Binding.property := by
  rw [conditionOf_eq_conjunction, Condition.mentions_conjunction, List.flatMap_map,
    List.map_eq_flatMap]
  rfl

/-- The parameters with the values of more placeholders. -/
def bound (parameters : Parameters) (bindings : List Binding) : Parameters :=
  { parameters with values := parameters.values.insertAll (valuesOf bindings).entries }

theorem get?_bound (distinct : (bindings.map Binding.placeholder).Nodup) (name : String) :
    (bound parameters bindings).get? name =
      (Dict.lookup name (bindings.map fun b => (b.placeholder, b.value))).or
        (parameters.get? name) := by
  have hvalues : (valuesOf bindings).get? name =
      Dict.lookup name (bindings.map fun b => (b.placeholder, b.value)) := by
    rw [valuesOf, Dict.get?_ofList, Dict.lookup_reverse]
    rwa [List.map_map]
  rw [← hvalues]
  exact Dict.get?_insertAll_entries _ _ _

/-- Over a look-up of its properties, the condition on a key is accepted. It is
written over columns, and its placeholders are bound next to those before. -/
theorem ofCondition_conditionOf {dialect : Sql.Dialect} {lookup : Dict String}
    (nonempty : bindings ≠ []) (legible : ∀ b ∈ bindings, b.IsLegible)
    (known : ∀ b ∈ bindings, lookup.contains b.property = true)
    (fresh : ∀ name ∈ bindings.map Binding.placeholder, parameters.get? name = none) :
    Restriction.ofCondition dialect lookup parameters (conditionOf bindings).toJson
        (valuesOf bindings) =
      .ok ⟨some (conjunctionText
        ((bindings.map (Binding.renamed lookup.get?)).map (Binding.text dialect))),
        bound parameters bindings⟩ := by
  have hkeys : ∀ name, (valuesOf bindings).contains name = true ↔
      name ∈ bindings.map Binding.placeholder := by
    intro name
    rw [valuesOf, Dict.contains, Dict.get?_ofList, Dict.isSome_lookup, List.map_reverse,
      List.map_map, decide_eq_true_eq, List.mem_reverse]
    rfl
  have agrees : parameters.values.Agrees (valuesOf bindings) := by
    refine Parameters.agrees_of_fresh fun name hname => ?_
    rw [Dict.mem_keys_iff, ← Option.isSome_iff_ne_none] at hname
    exact fresh name ((hkeys name).1 hname)
  refine Restriction.ofCondition_eq_ok_iff_accepts.2 ⟨conditionOf bindings,
    ofJson_conditionOf nonempty legible, ⟨agrees, fun property hproperty => ?_,
      fun name hname => ?_⟩, ?_⟩
  · rw [Condition.mem_columns, mentions_conditionOf] at hproperty
    obtain ⟨b, hb, rfl⟩ := List.mem_map.1 hproperty
    exact known b hb
  · exact .inr ((hkeys name).2 (mem_parameters_conditionOf.1 hname))
  · rw [Restriction.sqlIn, mapColumns_conditionOf, sql_conditionOf]
    rfl

end Keyed

end EntityQuery
