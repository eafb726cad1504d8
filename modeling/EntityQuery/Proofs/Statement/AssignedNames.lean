import EntityQuery.Proofs.JoinGraph.GivenNames
import EntityQuery.Proofs.Statement.Assignments

/-!
# Names of assignments

The names that an update makes up are numbered by the graph, which does not look
at the names that are bound already. A caller who gives a name of this form
can therefore make the update fail or share the name's value, and only such a
caller can (`placeholders_collide_only_with_given`).
-/

namespace EntityQuery.Update

open JoinGraph (start checkAlias phoneBook)

variable {g : JoinGraph} {model : Model} {u : Update}

/-- The names that the update of a model makes up. -/
def madeUp (g : JoinGraph) (model : Model) : List String :=
  Parameters.mintedNames model.keys g.parameters.next

/-- Each assignment has a name of its own, which was not bound in the graph, and
what was bound there is left alone. -/
structure HasOwnNames (u : Update) (g : JoinGraph) : Prop where
  nodup_placeholders : (u.assignments.map Assignment.placeholder).Nodup
  unbound : ∀ a ∈ u.assignments, g.parameters.get? a.placeholder = none
  keepsTo : g.parameters.KeepsTo u.graph.parameters

/-- The names are made up in turn, and nothing that was bound changes. -/
theorem placeholders_of_ofModel (h : ofModel g model = .ok u) :
    u.assignments.map Assignment.placeholder = madeUp g model ∧
      g.parameters.KeepsTo u.graph.parameters := by
  obtain ⟨assignments, after, hassign, rfl⟩ := of_ofModel h
  exact ⟨(placeholders_of_assign hassign).1, (forall₂_of_assign hassign).1⟩

/-- What is shared with an assignment has the assigned value. -/
theorem get?_placeholder_of_ofModel (h : ofModel g model = .ok u) {a : Assignment}
    (ha : a ∈ u.assignments) : ∃ property value, model.get? property = some value ∧
      g.column property = .ok a.column ∧
      u.graph.parameters.get? a.placeholder = some (a.column.column.saved value) := by
  obtain ⟨assignments, after, hassign, rfl⟩ := of_ofModel h
  obtain ⟨entry, hentry, htarget, hvalue⟩ :=
    exists_of_mem_forall₂ (forall₂_of_assign hassign).2 ha
  exact ⟨entry.1, entry.2, Dict.lookup_of_mem model.nodup_keys hentry, (of_targetOf htarget).1,
    hvalue⟩

/-- Where each property has a target, only the names can be in the way. -/
theorem exists_hasOwnNames_iff
    (targets : ∀ property ∈ model.keys, ∃ c, targetOf g property = .ok c) :
    (∃ u, ofModel g model = .ok u ∧ u.HasOwnNames g) ↔
      ∀ name ∈ madeUp g model, g.parameters.get? name = none := by
  constructor
  · rintro ⟨u, hu, hown⟩ name hname
    rw [← (placeholders_of_ofModel hu).1] at hname
    obtain ⟨a, ha, rfl⟩ := List.mem_map.1 hname
    exact hown.unbound a ha
  · intro unbound
    obtain ⟨assignments, after, hassign⟩ := exists_assign_of_unbound unbound
      fun entry hentry => targets entry.1 (List.mem_map_of_mem hentry)
    have hu : ofModel g model = .ok ⟨{ g with parameters := after }, assignments, true⟩ :=
      bind_eq_ok.2 ⟨_, hassign, rfl⟩
    obtain ⟨hnames, hkept⟩ := placeholders_of_ofModel hu
    refine ⟨_, hu, hnames ▸ Parameters.nodup_mintedNames _ _, fun a ha => unbound _ ?_, hkept⟩
    exact hnames ▸ List.mem_map_of_mem ha

/-- Only a name that is bound to another value can keep values from being assigned. -/
theorem of_assign_eq_error {parameters : Parameters} {entries : List (String × Json)}
    {e : QueryError} (targets : ∀ entry ∈ entries, ∃ c, targetOf g entry.1 = .ok c)
    (h : assign g parameters entries = .error e) :
    ∃ name ∈ Parameters.mintedNames (entries.map Prod.fst) parameters.next,
      parameters.get? name ≠ none ∧ e = .parameterConflict name := by
  rcases assign_cases parameters targets with ⟨-, assignments, after, hassign⟩ |
    ⟨before, entry, later, rfl, -, ⟨c, bound, -, hbound, -⟩, hassign⟩
  · rw [h] at hassign
    cases hassign
  · rw [h] at hassign
    exact ⟨_, Parameters.mintedName_mem_mintedNames before entry later _,
      hbound ▸ Option.some_ne_none bound, Except.error.inj hassign⟩

theorem of_ofModel_eq_error {e : QueryError}
    (targets : ∀ property ∈ model.keys, ∃ c, targetOf g property = .ok c)
    (h : ofModel g model = .error e) :
    ∃ name ∈ madeUp g model, g.parameters.get? name ≠ none ∧ e = .parameterConflict name := by
  rcases bind_eq_error.1 h with h | ⟨_, -, h⟩
  · exact of_assign_eq_error (fun entry hentry => targets _ (List.mem_map_of_mem hentry)) h
  · cases h

theorem exists_targetOf {property : String} {c : GraphColumn} (h : g.column property = .ok c)
    (base : g.dialect ≠ .mysql → c.alias = g.base.alias) :
    ∃ c, targetOf g property = .ok c := by
  refine ⟨c, bind_eq_ok.2 ⟨c, h, ?_⟩⟩
  rw [if_neg]
  · rfl
  · rintro ⟨hother, hjoined⟩
    refine hother (base fun hmysql => ?_)
    rw [hmysql] at hjoined
    cases hjoined

/-- The names that an update makes up meet no names but given ones. -/
structure CollidesOnlyWith (given : String → Prop) (g : JoinGraph) (model : Model) : Prop where
  /-- Where none of them is given, the update succeeds and no value is shared. -/
  exists_hasOwnNames : (∀ name ∈ madeUp g model, ¬given name) →
    ∃ u, ofModel g model = .ok u ∧ u.HasOwnNames g
  /-- All that can go wrong is that one of them is given another value. -/
  conflict : ∀ e, ofModel g model = .error e →
    ∃ name ∈ madeUp g model, given name ∧ e = .parameterConflict name
  /-- The names of the assignments are different, and what was bound is kept. -/
  placeholders : ∀ u, ofModel g model = .ok u →
    (u.assignments.map Assignment.placeholder).Nodup ∧
      g.parameters.KeepsTo u.graph.parameters
  /-- A name that was bound before is given, to the very value that is assigned. -/
  shared : ∀ u, ofModel g model = .ok u → ∀ a ∈ u.assignments,
    ∀ bound, g.parameters.get? a.placeholder = some bound → given a.placeholder ∧
      ∃ property value, model.get? property = some value ∧
        g.column property = .ok a.column ∧ bound = a.column.column.saved value

/-- However a graph has been built, an update of what may be assigned there
succeeds with names of its own exactly if none of them is bound. It collides
only with names that its caller gave values to, and those that the graph made up
for its caller are not among them. -/
theorem placeholders_collide_only_with_given {catalog : Catalog} {dialect : Sql.Dialect}
    {entity label : String} (hstart : start catalog dialect entity label = .ok g)
    (calls : List GraphCall) (model : Model)
    (targets : ∀ property ∈ model.keys, ∃ c, (g.after calls).column property = .ok c ∧
      ((g.after calls).dialect ≠ .mysql → c.alias = (g.after calls).base.alias)) :
    CollidesOnlyWith (IsGiven calls) (g.after calls) model ∧
      ((∃ u, ofModel (g.after calls) model = .ok u ∧ u.HasOwnNames (g.after calls)) ↔
        ∀ name ∈ madeUp (g.after calls) model, (g.after calls).parameters.get? name = none) ∧
      ∀ earlier base later, calls = earlier ++ .mint base :: later →
        ((g.after earlier).parameters.mint base).1 ∉ madeUp (g.after calls) model := by
  have hgiven : ∀ name, (g.after calls).parameters.get? name ≠ none → IsGiven calls name :=
    fun _ => JoinGraph.isGiven_of_bound hstart
  have htargets : ∀ property ∈ model.keys, ∃ c, targetOf (g.after calls) property = .ok c := by
    intro property hproperty
    obtain ⟨c, hc, hbase⟩ := targets property hproperty
    exact exists_targetOf hc hbase
  refine ⟨⟨fun hfree => ?_, fun e he => ?_, fun u hu => ?_, fun u hu a ha bound hbound => ?_⟩,
    exists_hasOwnNames_iff htargets, ?_⟩
  · refine (exists_hasOwnNames_iff htargets).2 fun name hname => ?_
    exact not_not.1 (mt (hgiven name) (hfree name hname))
  · obtain ⟨name, hname, hbound, rfl⟩ := of_ofModel_eq_error htargets he
    exact ⟨name, hname, hgiven name hbound, rfl⟩
  · obtain ⟨hnames, hkept⟩ := placeholders_of_ofModel hu
    exact ⟨hnames ▸ Parameters.nodup_mintedNames _ _, hkept⟩
  · have hkept := (placeholders_of_ofModel hu).2 _ _ hbound
    obtain ⟨property, value, hvalue, hcolumn, hassigned⟩ := get?_placeholder_of_ofModel hu ha
    rw [hkept] at hassigned
    exact ⟨hgiven _ (hbound ▸ Option.some_ne_none bound), property, value, hvalue, hcolumn,
      Option.some.inj hassigned⟩
  · rintro earlier base later rfl
    exact JoinGraph.mint_notMem_mintedNames g earlier later base model.keys

/-- Whether `u.id` is 1, by a name that the caller chose. -/
def foreseenCalls : List GraphCall :=
  [.filter (.obj [("$eq", .obj [("u.id", .str ":u_id_0")])]) (.ofList [("u_id_0", .num "1")])]

/-- A caller who foresees the name may still assign its value, and not another one. -/
theorem placeholders_collide_only_with_given_foreseenCalls :
    ∃ g, start phoneBook .mysql "User" "u" = .ok g ∧
      madeUp (g.after foreseenCalls) (Dict.ofList [("u.id", .num "2")]) = ["u_id_0"] ∧
      CollidesOnlyWith (IsGiven foreseenCalls) (g.after foreseenCalls)
        (Dict.ofList [("u.id", .num "2")]) := by
  have hname : checkAlias "u" = .ok () := if_pos (by decide +kernel)
  have hkeys : (Dict.ofList [("u.id", Json.num "2")]).keys = ["u.id"] := by decide +kernel
  obtain ⟨g, hg, hcolumn, hbase, hmade⟩ : ∃ g, start phoneBook .mysql "User" "u" = .ok g ∧
      ((g.after foreseenCalls).column "u.id").map GraphColumn.alias = .ok "u" ∧
      (g.after foreseenCalls).base.alias = "u" ∧
      madeUp (g.after foreseenCalls) (Dict.ofList [("u.id", .num "2")]) = ["u_id_0"] := by
    rw [start, hname]
    exact ⟨_, rfl, by decide +kernel⟩
  refine ⟨g, hg, hmade, (placeholders_collide_only_with_given hg foreseenCalls _ ?_).1⟩
  intro property hproperty
  rw [hkeys, List.mem_singleton] at hproperty
  subst hproperty
  obtain ⟨c, hc, halias⟩ := map_eq_ok.1 hcolumn
  exact ⟨c, hc, fun _ => halias.trans hbase.symm⟩

/-- The update does not look at the name that the caller has given a value to:
another value is refused, and the same value is shared with the condition. -/
theorem not_hasOwnNames_foreseenCalls :
    ∃ g, start phoneBook .mysql "User" "u" = .ok g ∧
      ((g.after foreseenCalls).column "u.id").map GraphColumn.alias = .ok "u" ∧
      (ofModel (g.after foreseenCalls) (Dict.ofList [("u.id", .num "2")])).map Update.sql =
        .error (.parameterConflict "u_id_0") ∧
      (ofModel (g.after foreseenCalls) (Dict.ofList [("u.id", .num "1")])).map Update.sql =
        .ok "UPDATE `users` AS `u`\nSET `u`.`user_id` = :u_id_0\nWHERE `u`.`user_id` = :u_id_0" := by
  have hname : checkAlias "u" = .ok () := if_pos (by decide +kernel)
  rw [start, hname]
  exact ⟨_, rfl, by decide +kernel⟩

end EntityQuery.Update
