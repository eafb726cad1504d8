import EntityQuery.Proofs.JoinGraph.Calls
import EntityQuery.Proofs.Parameters.Minting
import EntityQuery.Proofs.Values.Names

/-!
# Where the names of a graph come from

Every name that is bound in a graph was given a value by a call
(`isGiven_of_bound`), and a name that was made up for the caller is not made up
again (`mint_notMem_mintedNames`). What is made up later can only meet names
that the caller thought of.
-/

namespace EntityQuery

/-- The names that a call gives values to. -/
def GraphCall.names : GraphCall → List String
  | addTable spec => spec.values.bindings.keys
  | join _ spec => spec.values.bindings.keys
  | filter _ values => values.bindings.keys
  | mint _ => []
  | addParameter _ name _ => [name]
  | addParameters _ values _ _ => values.keys
  | mergeParameters _ other _ _ => other.values.keys

/-- Some call gives the name a value. -/
def IsGiven (calls : List GraphCall) (name : String) : Prop := ∃ call ∈ calls, name ∈ call.names

namespace Parameters

/-- Besides names of a list nothing gets bound, and no number is taken back. -/
structure TakesOnly (names : List String) (before after : Parameters) : Prop where
  next_le : before.next ≤ after.next
  mem_of_bound : ∀ name, after.values.contains name = true →
    before.values.contains name = true ∨ name ∈ names

variable {parameters after : Parameters} {names : List String}

theorem takesOnly_refl (names : List String) (parameters : Parameters) :
    TakesOnly names parameters parameters := ⟨Nat.le_refl _, fun _ h => .inl h⟩

theorem takesOnly_mint (names : List String) (parameters : Parameters) (base : String) :
    TakesOnly names parameters (parameters.mint base).2 := ⟨Nat.le_succ _, fun _ h => .inl h⟩

theorem takesOnly_add {overwrite : Bool} {name : String} {value : Json} (hname : name ∈ names)
    (h : parameters.add overwrite name value = .ok after) : TakesOnly names parameters after := by
  obtain ⟨hnext, hbound⟩ := of_add h
  refine ⟨Nat.le_of_eq hnext.symm, fun key hkey => ?_⟩
  rw [hbound, Bool.or_eq_true, decide_eq_true_eq] at hkey
  exact hkey.elim (fun heq => .inr (heq ▸ hname)) .inl

/-- Also where a conflict ends the binding half way. -/
theorem takesOnly_addAll (parameters : Parameters) (overwrite : Bool)
    {pairs : List (String × Json)} (hnames : ∀ pair ∈ pairs, pair.1 ∈ names) :
    TakesOnly names parameters (parameters.addAll overwrite pairs).2 := by
  refine ⟨Nat.le_of_eq (next_addAll parameters overwrite pairs).symm, fun name hname => ?_⟩
  rcases get?_addAll parameters overwrite pairs name with hkept | ⟨-, value, hmem, -⟩
  · rw [Dict.contains, ← Parameters.get?, hkept] at hname
    exact .inl hname
  · exact .inr (hnames _ hmem)

theorem takesOnly_extend {values : Values} (h : parameters.extend values = .ok after) :
    TakesOnly values.bindings.keys parameters after := by
  obtain ⟨hnext, hbound⟩ := of_extend h
  refine ⟨Nat.le_of_eq hnext.symm, fun name hname => ?_⟩
  rw [hbound, Bool.or_eq_true, Dict.contains_eq, decide_eq_true_eq] at hname
  exact hname.symm

end Parameters

theorem Restriction.takesOnly_of_ofCondition? {dialect : Sql.Dialect} {lookup : Dict String}
    {parameters : Parameters} {values : Values} {restriction : Restriction}
    {condition? : Option Json}
    (h : ofCondition? dialect lookup parameters condition? values = .ok restriction) :
    parameters.TakesOnly values.bindings.keys restriction.parameters := by
  unfold ofCondition? at h
  split at h
  next =>
    cases h
    exact Parameters.takesOnly_refl _ _
  next condition =>
    split at h
    next =>
      cases h
      exact Parameters.takesOnly_refl _ _
    next =>
      obtain ⟨_, _, -, -, -, -, -, hextend⟩ := exists_of_ofCondition h
      exact Parameters.takesOnly_extend hextend

namespace JoinGraph

variable {g g' : JoinGraph}

theorem takesOnly_withTable {spec : TableSpec} (h : g.withTable spec = .ok g') :
    g.parameters.TakesOnly spec.values.bindings.keys g'.parameters := by
  obtain ⟨_, _, _, -, -, -, -, hrestriction, rfl⟩ := of_withTable h
  exact Restriction.takesOnly_of_ofCondition? hrestriction

theorem takesOnly_withFilter {condition : Json} {values : Values}
    (h : g.withFilter condition values = .ok g') :
    g.parameters.TakesOnly values.bindings.keys g'.parameters := by
  rcases of_withFilter h with ⟨-, rfl⟩ | ⟨-, _, hrestriction, rfl⟩
  · exact Parameters.takesOnly_refl _ _
  · obtain ⟨_, _, -, -, -, -, -, hextend⟩ := Restriction.exists_of_ofCondition hrestriction
    exact Parameters.takesOnly_extend hextend

/-- Where a stage fails, nothing is bound. -/
theorem takesOnly_commit {names : List String} {stage : JoinGraph → Except QueryError JoinGraph}
    (h : ∀ g', stage g = .ok g' → g.parameters.TakesOnly names g'.parameters) :
    g.parameters.TakesOnly names ((GraphM.commit stage).runOn g).2.parameters :=
  GraphM.of_commit (P := (g.parameters.TakesOnly names ·.parameters))
    (Parameters.takesOnly_refl names g.parameters) h

/-- A call binds the names that it is given, whether or not it succeeds. -/
theorem takesOnly_perform (g : JoinGraph) (call : GraphCall) :
    g.parameters.TakesOnly call.names (g.perform call).parameters := by
  cases call with
  | addTable spec =>
      rw [perform, GraphM.addTable_eq_commit]
      exact takesOnly_commit fun _ => takesOnly_withTable
  | join kind spec =>
      rw [perform, GraphM.join_eq_commit]
      refine takesOnly_commit fun g' h => ?_
      obtain ⟨_, _, _, -, -, h⟩ := exists_withTable_of_withJoin h
      exact takesOnly_withTable h
  | filter condition values =>
      rw [perform, GraphM.filter_eq_commit]
      exact takesOnly_commit fun _ => takesOnly_withFilter
  | mint base => exact Parameters.takesOnly_mint _ _ base
  | addParameter overwrite name value =>
      rw [perform, GraphM.addParameter_eq_commit]
      refine takesOnly_commit fun g' h => ?_
      obtain ⟨parameters, hadd, h⟩ := bind_eq_ok.1 h
      obtain rfl := pure_eq_ok.1 h
      exact Parameters.takesOnly_add List.mem_cons_self hadd
  | addParameters overwrite values order hperm =>
      exact Parameters.takesOnly_addAll _ overwrite fun pair hpair =>
        List.mem_map_of_mem (hperm.mem_iff.1 hpair)
  | mergeParameters overwrite other order hperm =>
      exact Parameters.takesOnly_addAll _ overwrite fun pair hpair =>
        List.mem_map_of_mem (hperm.mem_iff.1 hpair)

theorem next_le_after (g : JoinGraph) (calls : List GraphCall) :
    g.parameters.next ≤ (g.after calls).parameters.next := by
  induction calls generalizing g with
  | nil => exact Nat.le_refl _
  | cons call calls ih => exact Nat.le_trans (takesOnly_perform g call).next_le (ih _)

/-- What is bound was bound before, or given by one of the calls. -/
theorem bound_or_isGiven_after (g : JoinGraph) {calls : List GraphCall} {name : String}
    (h : (g.after calls).parameters.values.contains name = true) :
    g.parameters.values.contains name = true ∨ IsGiven calls name := by
  induction calls generalizing g with
  | nil => exact .inl h
  | cons call calls ih =>
      rcases ih (g.perform call) h with hbound | ⟨later, hlater, hname⟩
      · exact ((takesOnly_perform g call).mem_of_bound name hbound).imp_right
          fun hname => ⟨call, List.mem_cons_self, hname⟩
      · exact .inr ⟨later, List.mem_cons_of_mem _ hlater, hname⟩

/-- A graph starts without parameters. -/
theorem parameters_start {catalog : Catalog} {dialect : Sql.Dialect} {entity label : String}
    (h : start catalog dialect entity label = .ok g) : g.parameters = .empty := by
  obtain ⟨_, -, h⟩ := bind_eq_ok.1 h
  obtain ⟨_, -, h⟩ := bind_eq_ok.1 h
  exact (pure_eq_ok.1 h) ▸ rfl

variable {catalog : Catalog} {dialect : Sql.Dialect} {entity label : String}

theorem isGiven_of_bound (hstart : start catalog dialect entity label = .ok g)
    {calls : List GraphCall} {name : String}
    (h : (g.after calls).parameters.get? name ≠ none) : IsGiven calls name := by
  have hbound : (g.after calls).parameters.values.contains name = true :=
    Option.isSome_iff_ne_none.2 h
  refine (bound_or_isGiven_after g hbound).resolve_left fun hempty => ?_
  rw [parameters_start hstart] at hempty
  cases hempty

/-- A name that was made up for the caller is not made up again. -/
theorem mint_notMem_mintedNames (g : JoinGraph) (earlier later : List GraphCall) (base : String)
    (bases : List String) :
    ((g.after earlier).parameters.mint base).1 ∉ Parameters.mintedNames bases
      (g.after (earlier ++ .mint base :: later)).parameters.next := by
  have hafter : g.after (earlier ++ .mint base :: later) =
      ((g.after earlier).perform (.mint base)).after later := List.foldl_append
  rw [hafter]
  exact Parameters.mintedName_notMem_mintedNames base bases
    (next_le_after ((g.after earlier).perform (.mint base)) later)

end JoinGraph

end EntityQuery
