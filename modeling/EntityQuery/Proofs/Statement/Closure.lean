import EntityQuery.Proofs.JoinGraph.Tables
import EntityQuery.Proofs.Statement.Assignments
import EntityQuery.Proofs.Statement.Choices
import EntityQuery.Proofs.Statement.KeyConditions
import EntityQuery.Proofs.Statement.Placeholders
import EntityQuery.Proofs.Values.Session

/-!
# Statements are closed under their parameters

Whatever calls have been made, every placeholder in the SQL of a builder has a
name and a value, and engines are handed the value along with the SQL
(`isClosed_of_build`). This takes placeholders and inserted properties that are
named in word characters: the names of both stand in the SQL as they are, so of
any other name no more than its first word is found there
(`not_isClosed_of_build_spacedCalls`). Names that are made up for values are
words whatever the properties are called.

What is kept from call to call is that a builder is closed (`Builder.IsClosed`).
-/

namespace EntityQuery

variable {d : Sql.Dialect} {g : JoinGraph} {model : Model}

/-! ### Updates and insertions -/

/-- An update of a closed graph whose assignments have names with values. -/
structure Update.IsClosed (u : Update) (d : Sql.Dialect) : Prop where
  graph : u.graph.IsClosed d
  isName : ∀ a ∈ u.assignments, Text.isName a.placeholder = true
  bound : ∀ a ∈ u.assignments, u.graph.parameters.values.contains a.placeholder = true

/-- An insertion of properties that are names with values. -/
structure Insert.IsClosed (i : Insert) (d : Sql.Dialect) : Prop where
  dialect_eq : i.dialect = d
  isName : ∀ c ∈ i.columns, Text.isName c.property = true
  bound : ∀ c ∈ i.columns, i.parameters.values.contains c.property = true

theorem Sql.mentionsOnly_of_isName {values : Dict Json} {name : String}
    (named : Text.isName name = true) (bound : values.contains name = true) :
    Sql.MentionsOnly d (Sql.HasValue values) [.placeholder name] := by
  obtain ⟨hne, hword⟩ := Text.isName_iff.1 named
  exact Sql.mentionsOnly_placeholder hword ⟨hne, bound⟩

/-- The values of an update are bound to names made up for them. -/
theorem Update.isClosed_of_ofModel (h : g.IsClosed d) {u : Update}
    (hu : Update.ofModel g model = .ok u) : u.IsClosed d := by
  obtain ⟨assignments, after, hassign, rfl⟩ := of_ofModel hu
  obtain ⟨hnames, hbound⟩ := placeholders_of_assign hassign
  constructor
  case graph =>
      refine h.withParameters fun name hname => ?_
      rw [hbound, hname, Bool.or_true]
  case isName =>
      intro a ha
      have hmem : a.placeholder ∈ assignments.map Assignment.placeholder := List.mem_map_of_mem ha
      rw [hnames] at hmem
      obtain ⟨base, n, -, -, heq⟩ := Parameters.exists_of_mem_mintedNames hmem
      exact heq ▸ Parameters.isName_mintedName base n
  case bound =>
      intro a ha
      rw [hbound, decide_eq_true (List.mem_map_of_mem ha), Bool.true_or]

namespace Insert

/-- Every written column has its property bound. -/
theorem of_bindColumns {parameters after : Parameters} {columns written : List Column}
    (h : bindColumns model parameters columns = .ok (written, after)) :
    parameters.GrowsTo after ∧ ∀ c ∈ written, c ∈ columns ∧
      model.contains c.property = true ∧ after.values.contains c.property = true := by
  induction columns generalizing parameters written with
  | nil =>
      cases h
      exact ⟨.refl _, fun _ hc => nomatch hc⟩
  | cons column rest ih =>
      rw [bindColumns] at h
      split at h
      next =>
        obtain ⟨hgrows, hwritten⟩ := ih h
        exact ⟨hgrows, fun c hc => ⟨List.mem_cons_of_mem _ (hwritten c hc).1, (hwritten c hc).2⟩⟩
      next value hvalue =>
        obtain ⟨bound, hadd, h⟩ := bind_eq_ok.1 h
        obtain ⟨⟨others, last⟩, hothers, h⟩ := bind_eq_ok.1 h
        obtain ⟨rfl, rfl⟩ := Prod.mk.inj (pure_eq_ok.1 h)
        obtain ⟨hgrows, hwritten⟩ := ih hothers
        refine ⟨(Parameters.growsTo_add hadd).trans hgrows, List.forall_mem_cons.2 ⟨?_, ?_⟩⟩
        · have hproperty : bound.values.contains column.property = true := by
            rw [(Parameters.of_add hadd).2, decide_eq_true rfl, Bool.true_or]
          refine ⟨List.mem_cons_self, ?_, hgrows _ hproperty⟩
          rw [Dict.contains, hvalue]
          rfl
        · exact fun c hc => ⟨List.mem_cons_of_mem _ (hwritten c hc).1, (hwritten c hc).2⟩

theorem isClosed_of_ofModel {table : Table} {i : Insert}
    (named : ∀ c ∈ table.columns, model.contains c.property = true →
      Text.isName c.property = true)
    (hi : Insert.ofModel table d model = .ok i) : i.IsClosed d := by
  obtain ⟨⟨written, after⟩, hbind, hi⟩ := bind_eq_ok.1 hi
  obtain rfl := pure_eq_ok.1 hi
  obtain ⟨-, hwritten⟩ := of_bindColumns hbind
  refine ⟨rfl, fun c hc => ?_, fun c hc => (hwritten c hc).2.2⟩
  exact named c (hwritten c hc).1 (hwritten c hc).2.1

end Insert

/-! ### Statements on the row of a model -/

namespace Keyed

/-- The key values are bound to made-up names, one for each key. -/
theorem of_bindKeys {label : String} {parameters after : Parameters} {keys : List Column}
    {bindings : List Binding} (h : bindKeys label model parameters keys = (.ok bindings, after)) :
    parameters.GrowsTo after ∧ bindings.length = keys.length ∧
      ∀ b ∈ bindings, (∃ property, b.property = label ++ "." ++ property) ∧
        Text.isName b.placeholder = true := by
  induction keys generalizing parameters bindings with
  | nil =>
      cases h
      exact ⟨.refl _, rfl, fun _ hb => nomatch hb⟩
  | cons key rest ih =>
      obtain ⟨value, others, hothers, rfl⟩ := of_bindKeys_cons h
      obtain ⟨hgrows, hlength, hbindings⟩ := ih hothers
      refine ⟨(Parameters.growsTo_mint _ _).trans hgrows, congrArg Nat.succ hlength,
        List.forall_mem_cons.2 ⟨⟨⟨key.property, rfl⟩, ?_⟩, hbindings⟩⟩
      exact Parameters.isName_mintedName _ _

/-- The condition on the key has made-up placeholders only. -/
theorem isNamed_conditionOf {label : String} (named : Text.isName label = true)
    {bindings : List Binding} (nonempty : bindings ≠ [])
    (h : ∀ b ∈ bindings, (∃ property, b.property = label ++ "." ++ property) ∧
      Text.isName b.placeholder = true) : Condition.IsNamed (conditionOf bindings).toJson := by
  refine Condition.isNamed_toJson (isWellKinded_conditionOf nonempty) (fun value hvalue => ?_)
    fun name hname => ?_
  · rw [leaves_conditionOf] at hvalue
    obtain ⟨b, hb, hvalue⟩ := List.mem_flatMap.1 hvalue
    obtain ⟨⟨property, hproperty⟩, hplaceholder⟩ := h b hb
    rcases List.mem_pair.1 hvalue with rfl | rfl
    · exact hproperty ▸ Operand.isGenuine_column named property
    · exact Operand.isGenuine_parameter.2 (Text.isName_iff.1 hplaceholder).1
  · rw [leaves_conditionOf] at hname
    obtain ⟨b, hb, hname⟩ := List.mem_flatMap.1 hname
    have hplaceholder := (h b hb).2
    rcases List.mem_pair.1 hname with hcolumn | hsame
    · cases hcolumn
    · exact Operand.parameter.inj hsame ▸ (Text.isName_iff.1 hplaceholder).2

theorem isClosed_graph {catalog : Catalog} {entity : String}
    (hg : graph catalog d entity model = .ok g) : g.IsClosed d := by
  obtain ⟨base, bindings, after, hbase, hbind, hg⟩ := exists_withFilter_of_graph hg
  obtain ⟨hgrows, hlength, hbindings⟩ := of_bindKeys hbind
  have hclosed := JoinGraph.isClosed_start hbase
  have hkeyed := (JoinGraph.isOver_start hbase).primaryKey_ne_nil List.mem_cons_self
  have hnonempty : bindings ≠ [] := by
    rintro rfl
    exact hkeyed (List.eq_nil_of_length_eq_zero hlength.symm)
  have hnamed := isNamed_conditionOf (hclosed.isName_alias _ List.mem_cons_self) hnonempty hbindings
  exact (hclosed.withParameters hgrows).withFilter hnamed hg

end Keyed

/-! ### Builders -/

/-- The condition that a call gives. -/
def BuilderStep.condition? : BuilderStep → Option Json
  | perform operation => operation.condition?
  | _ => none

/-- The placeholders of a call's condition, and the properties that it inserts,
are named in word characters. -/
def BuilderCall.IsNamed (s : Session) : BuilderCall → Prop
  | insert entity model => ∀ table ∈ (s.catalog.table entity).toOption, ∀ c ∈ table.columns,
      model.contains c.property = true → Text.isName c.property = true
  | further _ step => ∀ condition ∈ step.condition?, Condition.IsNamed condition
  | start _ _ | updateModel _ _ | deleteModel _ _ => True

instance (s : Session) : (call : BuilderCall) → Decidable (call.IsNamed s)
  | .insert entity model => inferInstanceAs (Decidable
      (∀ table ∈ (s.catalog.table entity).toOption, ∀ c ∈ table.columns,
        model.contains c.property = true → Text.isName c.property = true))
  | .further _ step => inferInstanceAs (Decidable
      (∀ condition ∈ step.condition?, Condition.IsNamed condition))
  | .start _ _ | .updateModel _ _ | .deleteModel _ _ => inferInstanceAs (Decidable True)

/-- What a builder writes in a dialect mentions only names with values. -/
def Builder.IsClosed (d : Sql.Dialect) : Builder → Prop
  | graph g => g.IsClosed d
  | select s => s.graph.IsClosed d
  | count c => c.graph.IsClosed d
  | update u => u.IsClosed d
  | delete deletion => deletion.graph.IsClosed d
  | insert i => i.IsClosed d

section Builders

variable {s : Session} {b next : Builder} {built after : List Builder}

theorem exists_of_toOption_map {α : Type} {outcome : Except QueryError α} {f : α → Builder}
    (h : outcome.toOption.map f = some next) : ∃ a, outcome = .ok a ∧ next = f a := by
  cases outcome with
  | error error => cases h
  | ok a => exact ⟨a, rfl, (Option.some.inj h).symm⟩

theorem Update.isClosed_of_updateOf (h : g.IsClosed d) {u : Update}
    (hu : s.updateOf g model = .ok u) : u.IsClosed d := by
  obtain ⟨bare, hbare, hu⟩ := bind_eq_ok.1 hu
  obtain rfl := pure_eq_ok.1 hu
  exact { isClosed_of_ofModel h hbare with }

theorem Update.isClosed_of_updateModelOf {entity : String} {u : Update}
    (hu : s.updateModelOf entity model = .ok u) : u.IsClosed s.dialect := by
  obtain ⟨bare, hbare, hu⟩ := bind_eq_ok.1 hu
  obtain rfl := pure_eq_ok.1 hu
  obtain ⟨g, hg, hbare⟩ := bind_eq_ok.1 hbare
  exact { isClosed_of_ofModel (Keyed.isClosed_graph hg) hbare with }

theorem Delete.isClosed_of_deleteModelOf {entity : String} {deletion : Delete}
    (h : s.deleteModelOf entity model = .ok deletion) : deletion.graph.IsClosed s.dialect := by
  obtain ⟨bare, hbare, h⟩ := bind_eq_ok.1 h
  obtain rfl := pure_eq_ok.1 h
  obtain ⟨g, hg, hbare⟩ := bind_eq_ok.1 hbare
  obtain rfl := pure_eq_ok.1 hbare
  exact Keyed.isClosed_graph hg

/-! Choices, orders and pages leave the graph. -/

theorem Select.graph_eq_of_select {q q' : Select} {properties : List String}
    (h : q.select properties = .ok q') : q'.graph = q.graph := by
  rw [eq_of_select h]

theorem Select.graph_eq_of_orderBy {q q' : Select} {items : List (String × SortDirection)}
    (h : q.orderBy items = .ok q') : q'.graph = q.graph := by
  obtain ⟨order, -, h⟩ := bind_eq_ok.1 h
  obtain rfl := pure_eq_ok.1 h
  rfl

theorem Select.graph_eq_of_take {q q' : Select} {rows : UInt64} {offset : Option UInt64}
    (h : q.take rows offset = .ok q') : q'.graph = q.graph := by
  rw [Select.take] at h
  split at h
  next => cases h
  next =>
    cases h
    rfl

theorem Count.graph_eq_of_orderBy {c c' : Count} {items : List (String × SortDirection)}
    (h : c.orderBy items = .ok c') : c'.graph = c.graph := by
  obtain ⟨order, -, h⟩ := bind_eq_ok.1 h
  obtain rfl := pure_eq_ok.1 h
  rfl

theorem Count.graph_eq_of_count {c c' : Count} {property : Option String}
    (h : c.count property = .ok c') : c'.graph = c.graph := by
  unfold Count.count at h
  split at h
  next => cases h
  next =>
    split at h
    next =>
      cases h
      rfl
    next =>
      obtain ⟨column, -, h⟩ := bind_eq_ok.1 h
      obtain rfl := pure_eq_ok.1 h
      rfl

theorem Delete.graph_eq_of_fromAlias {deletion other : Delete} {label : String}
    (h : deletion.fromAlias label = .ok other) : other.graph = deletion.graph := by
  obtain ⟨target, -, rfl⟩ := of_fromAlias h
  rfl

theorem JoinGraph.IsClosed.of_eq {g' : JoinGraph} (h : g.IsClosed d) (heq : g' = g) :
    g'.IsClosed d := heq ▸ h

/-- A call on a closed builder leads to a closed one, if the placeholders of its
condition are named. -/
theorem Builder.IsClosed.apply {step : BuilderStep} (h : b.IsClosed s.dialect)
    (named : ∀ condition ∈ step.condition?, Condition.IsNamed condition)
    (hnext : step.apply s b = some next) : next.IsClosed s.dialect := by
  cases step with
  | perform operation =>
      cases b with
      | graph g =>
          obtain ⟨g', hg', rfl⟩ := stage_of_perform hnext
          exact h.stage named hg'
      -- here and below, the other builders do not have the call
      | _ => cases hnext
  | selectAll =>
      cases b with
      | graph g =>
          cases hnext
          exact h
      | _ => cases hnext
  | select properties =>
      cases b with
      | graph g =>
          obtain ⟨q, hq, rfl⟩ := exists_of_toOption_map hnext
          exact h.of_eq (Select.graph_eq_of_select hq)
      | select q =>
          obtain ⟨q', hq, rfl⟩ := exists_of_toOption_map hnext
          exact h.of_eq (Select.graph_eq_of_select hq)
      | _ => cases hnext
  | orderBy items =>
      cases b with
      | select q =>
          obtain ⟨q', hq, rfl⟩ := exists_of_toOption_map hnext
          exact h.of_eq (Select.graph_eq_of_orderBy hq)
      | count c =>
          obtain ⟨c', hc, rfl⟩ := exists_of_toOption_map hnext
          exact h.of_eq (Count.graph_eq_of_orderBy hc)
      | _ => cases hnext
  | take rows offset =>
      cases b with
      | select q =>
          obtain ⟨q', hq, rfl⟩ := exists_of_toOption_map hnext
          exact h.of_eq (Select.graph_eq_of_take hq)
      | _ => cases hnext
  | count property =>
      cases b with
      | graph g =>
          obtain ⟨c, hc, rfl⟩ := exists_of_toOption_map hnext
          exact h.of_eq (Count.graph_eq_of_count hc)
      | count c =>
          obtain ⟨c', hc, rfl⟩ := exists_of_toOption_map hnext
          exact h.of_eq (Count.graph_eq_of_count hc)
      | _ => cases hnext
  | update model =>
      cases b with
      | graph g =>
          obtain ⟨u, hu, rfl⟩ := exists_of_toOption_map hnext
          exact Update.isClosed_of_updateOf h hu
      | _ => cases hnext
  | delete =>
      cases b with
      | graph g =>
          cases hnext
          exact h
      | _ => cases hnext
  | deleteFrom label =>
      cases b with
      | graph g =>
          obtain ⟨deletion, hdeletion, rfl⟩ := exists_of_toOption_map hnext
          exact h.of_eq (Delete.graph_eq_of_fromAlias hdeletion)
      | delete deletion =>
          obtain ⟨other, hother, rfl⟩ := exists_of_toOption_map hnext
          exact h.of_eq (Delete.graph_eq_of_fromAlias hother)
      | _ => cases hnext

/-- A call after closed builders makes a closed one, if its names are words. -/
theorem Builder.isClosed_of_make {call : BuilderCall}
    (h : ∀ b ∈ built, Builder.IsClosed s.dialect b) (named : call.IsNamed s)
    (hnext : call.make s built = some next) : next.IsClosed s.dialect := by
  cases call with
  | start entity label =>
      obtain ⟨g, hg, rfl⟩ := exists_of_toOption_map hnext
      exact JoinGraph.isClosed_start hg
  | insert entity model =>
      obtain ⟨i, hi, rfl⟩ := exists_of_toOption_map hnext
      obtain ⟨table, htable, hi⟩ := bind_eq_ok.1 hi
      have htable : (s.catalog.table entity).toOption = some table := by
        rw [htable]
        rfl
      exact Insert.isClosed_of_ofModel (named table htable) hi
  | updateModel entity model =>
      obtain ⟨u, hu, rfl⟩ := exists_of_toOption_map hnext
      exact Update.isClosed_of_updateModelOf hu
  | deleteModel entity model =>
      obtain ⟨deletion, hdeletion, rfl⟩ := exists_of_toOption_map hnext
      exact Delete.isClosed_of_deleteModelOf hdeletion
  | further earlier step =>
      obtain ⟨b, hget, hnext⟩ := Option.bind_eq_some_iff.1 hnext
      exact (h b (List.mem_of_getElem? hget)).apply named hnext

theorem Builder.forall_isClosed_of_build {calls : List BuilderCall}
    (h : ∀ b ∈ built, Builder.IsClosed s.dialect b) (named : ∀ call ∈ calls, call.IsNamed s)
    (hafter : s.build built calls = some after) : ∀ b ∈ after, b.IsClosed s.dialect := by
  induction calls generalizing built with
  | nil =>
      cases hafter
      exact h
  | cons call rest ih =>
      obtain ⟨hcall, hrest⟩ := List.forall_mem_cons.1 named
      obtain ⟨next, hnext, hafter⟩ := Option.bind_eq_some_iff.1 hafter
      refine ih (List.forall_mem_append.2 ⟨h, ?_⟩) hrest hafter
      exact List.forall_mem_singleton.2 (isClosed_of_make h hcall hnext)

end Builders

/-! ### What is seen of a closed builder -/

namespace Builder

variable {b : Builder}

/-- The SQL of a closed builder is closed under its parameters. -/
theorem IsClosed.isClosed_sql (h : b.IsClosed d) : Sql.IsClosed d b.sql b.parameters.values := by
  cases b with
  | graph g =>
      obtain ⟨rfl, -, hmentions⟩ := h
      exact Sql.isClosed_render (JoinGraph.mentionsOnly_sqlTokens hmentions)
  | select q =>
      obtain ⟨rfl, -, hmentions⟩ := h
      exact Sql.isClosed_render (Select.mentionsOnly_sqlTokens hmentions)
  | count c =>
      obtain ⟨rfl, -, hmentions⟩ := h
      exact Sql.isClosed_render (Count.mentionsOnly_sqlTokens hmentions)
  | update u =>
      obtain ⟨⟨rfl, -, hmentions⟩, hname, hbound⟩ := h
      exact Sql.isClosed_render (Update.mentionsOnly_sqlTokens hmentions fun a ha =>
        Sql.mentionsOnly_of_isName (hname a ha) (hbound a ha))
  | delete deletion =>
      obtain ⟨rfl, -, hmentions⟩ := h
      exact Sql.isClosed_render (Delete.mentionsOnly_sqlTokens hmentions)
  | insert i =>
      obtain ⟨rfl, hname, hbound⟩ := h
      exact Sql.isClosed_render (Insert.mentionsOnly_sqlTokens fun c hc =>
        Sql.mentionsOnly_of_isName (hname c hc) (hbound c hc))

/-- Engines are handed the SQL of a builder and its parameters. -/
theorem of_mem_callsTo {σ : Type} {engine : Engine σ} {state : σ} {call : Script.Call}
    (h : call ∈ b.callsTo engine state) :
    call.sql = b.sql ∧ call.values = b.parameters.values := by
  cases b with
  | graph g => cases h
  | select q =>
      rw [callsTo, Select.callsOf_execute] at h
      split at h
      next =>
        obtain rfl := List.mem_singleton.1 h
        exact ⟨rfl, rfl⟩
      next => cases h
  | count c =>
      rw [callsTo, Count.callsOf_execute, List.mem_singleton] at h
      subst h
      exact ⟨rfl, rfl⟩
  | update u =>
      rw [callsTo, Update.callsOf_execute] at h
      split at h
      next => cases h
      next =>
        obtain rfl := List.mem_singleton.1 h
        exact ⟨rfl, rfl⟩
  | delete deletion =>
      rw [callsTo, Delete.callsOf_execute, List.mem_singleton] at h
      subst h
      exact ⟨rfl, rfl⟩
  | insert i =>
      rw [callsTo, Insert.callsOf_execute] at h
      split at h
      next => cases h
      next =>
        obtain rfl := List.mem_singleton.1 h
        exact ⟨rfl, rfl⟩

end Builder

/-- Every placeholder in the SQL of a builder has a name and a value, and every
call of an engine hands over the value along with the SQL. -/
theorem isClosed_of_build {s : Session} {entity label : String} {graphCalls : List GraphCall}
    {calls : List BuilderCall} {built : List Builder} (hg : s.start entity label = .ok g)
    (namedGraph : ∀ call ∈ graphCalls, ∀ condition ∈ call.condition?,
      Condition.IsNamed condition)
    (named : ∀ call ∈ calls, call.IsNamed s)
    (h : s.build [.graph (g.after graphCalls)] calls = some built) :
    ∀ b ∈ built, Sql.IsClosed s.dialect b.sql b.parameters.values ∧
      ∀ {σ : Type} (engine : Engine σ) (state : σ), ∀ call ∈ b.callsTo engine state,
        Sql.IsClosed s.dialect call.sql call.values := by
  have hgraph : ∀ b ∈ [Builder.graph (g.after graphCalls)], b.IsClosed s.dialect :=
    List.forall_mem_singleton.2 (JoinGraph.isClosed_after hg namedGraph)
  intro b hb
  have hclosed := (Builder.forall_isClosed_of_build hgraph named h b hb).isClosed_sql
  refine ⟨hclosed, fun engine state call hcall => ?_⟩
  obtain ⟨hsql, hvalues⟩ := Builder.of_mem_callsTo hcall
  rw [hsql, hvalues]
  exact hclosed

/-- What a graph of users and phones ends in, and phones that are saved, changed
and removed by their keys. -/
def phoneEndings : List BuilderCall :=
  let phone : Model := Dict.ofList [("no", .str "1"), ("owner", .num "7")]
  [.further 0 .selectAll, .further 1 (.take 10 (some 20)), .further 0 (.count (some "p.no")),
    .further 0 (.update (Dict.ofList [("u.id", .num "8")])), .further 0 .delete,
    .further 0 (.deleteFrom "p"), .insert "Phone" phone, .updateModel "Phone" phone,
    .deleteModel "Phone" phone]

theorem isClosed_of_build_phoneEndings :
    ∃ g, Session.start ⟨JoinGraph.phoneBook, .postgres, true⟩ "User" "u" = .ok g ∧
      ∃ built, Session.build ⟨JoinGraph.phoneBook, .postgres, true⟩
          [.graph (g.after JoinGraph.phoneCalls)] phoneEndings = some built ∧
        built.map (fun b => b.parameters.values.keys) =
          [["no"], ["no"], ["no"], ["no"], ["no", "u_id_0"], ["no"], ["no"], ["no", "owner"],
            ["Phone_no_0", "Phone_owner_1"], ["Phone_no_0"]] ∧
        ∀ b ∈ built, Sql.IsClosed .postgres b.sql b.parameters.values ∧
          ∀ {σ : Type} (engine : Engine σ) (state : σ), ∀ call ∈ b.callsTo engine state,
            Sql.IsClosed .postgres call.sql call.values := by
  have hkeys : (Session.start ⟨JoinGraph.phoneBook, .postgres, true⟩ "User" "u").toOption.bind
      (fun g => (Session.build ⟨JoinGraph.phoneBook, .postgres, true⟩
          [.graph (g.after JoinGraph.phoneCalls)] phoneEndings).map
        (List.map fun b => b.parameters.values.keys)) =
      some [["no"], ["no"], ["no"], ["no"], ["no", "u_id_0"], ["no"], ["no"], ["no", "owner"],
        ["Phone_no_0", "Phone_owner_1"], ["Phone_no_0"]] := by
    decide +kernel
  cases hg : Session.start ⟨JoinGraph.phoneBook, .postgres, true⟩ "User" "u" with
  | error error =>
      rw [hg] at hkeys
      cases hkeys
  | ok g =>
      rw [hg] at hkeys
      obtain ⟨built, hbuilt, hkeys⟩ := Option.map_eq_some_iff.1 hkeys
      have hclosed := isClosed_of_build hg (by decide +kernel) (by decide +kernel) hbuilt
      exact ⟨g, rfl, built, hbuilt, hkeys, hclosed⟩

/-- Users, with a property that is not one word. -/
def spacedBook : Catalog where
  tables := [
    { entity := "User", name := "users",
      columns := [{ name := "user_id", property := "id", isPrimary := true },
        { name := "first_name", property := "first name" }] }]
  relationships := []
  sound := by decide

/-- Users are removed under a condition with a placeholder of two words, and one
is saved with the property of two words. -/
def spacedCalls : List BuilderCall :=
  [.start "User" "u",
    .further 0 (.perform (.filter (.obj [("$eq", .obj [("u.id", .str ":a b")])])
      (.ofList [("a b", .num "1")]))),
    .further 1 .delete, .insert "User" (Dict.ofList [("first name", .str "A")])]

/-- Of names that are not one word, no more than the first word is found in the
SQL that an engine is handed, and it has no value. -/
theorem not_isClosed_of_build_spacedCalls :
    ∃ built ∈ Session.build ⟨spacedBook, .mysql, true⟩ [] spacedCalls,
      (built.flatMap (Builder.callsTo (Script.engine {}) {})).map (fun call =>
          (call.sql, call.values.keys, decide (Sql.IsClosed .mysql call.sql call.values))) =
        [("DELETE `u`\nFROM `users` AS `u`\nWHERE `u`.`user_id` = :a b", ["a b"], false),
          ("INSERT INTO `users` (`first_name`)\nVALUES (:first name)", ["first name"], false)] := by
  decide +kernel

end EntityQuery
