import EntityQuery.Proofs.Engine
import EntityQuery.Proofs.Values.Statements
import EntityQuery.Session

/-!
# Values never reach the SQL

Two programs that make the same calls on a session, with other parameter values
and other values in their models, build statements with the same SQL and the
same names of parameters, and engines are asked the same of both
(`agree_of_build`). What converters make of values does not matter either.

A program makes builders one after the other, each from the session alone or
from a builder that it made before. What is kept from call to call is that
builders differ in their values only (`BuilderCall.SameButValues.make`).
-/

namespace EntityQuery

/-- A graph under construction, or a statement. -/
inductive Builder where
  | graph (g : JoinGraph)
  | select (s : Select)
  | count (c : Count)
  | update (u : Update)
  | delete (d : Delete)
  | insert (i : Insert)

/-- A call that takes a builder further. -/
inductive BuilderStep where
  | perform (operation : GraphOperation)
  | selectAll
  | select (properties : List String)
  | orderBy (items : List (String × SortDirection))
  | take (rows : UInt64) (offset : Option UInt64)
  | count (property : Option String)
  | update (model : Model)
  | delete
  | deleteFrom (label : String)

/-- A call on a session, or on an earlier builder by its number. -/
inductive BuilderCall where
  | start (entity label : String)
  | insert (entity : String) (model : Model)
  | updateModel (entity : String) (model : Model)
  | deleteModel (entity : String) (model : Model)
  | further (earlier : Nat) (step : BuilderStep)

namespace BuilderStep

/-- The builder that a call leads to; there is none if the call fails or the
builder does not have it. -/
def apply (s : Session) : BuilderStep → Builder → Option Builder
  | perform operation, .graph g =>
      match operation.action.runOn g with
      | (.ok (), next) => some (.graph next)
      | (.error _, _) => none
  | selectAll, .graph g => some (.select { graph := g })
  | select properties, .graph g =>
      (Select.select { graph := g } properties).toOption.map .select
  | select properties, .select q => (q.select properties).toOption.map .select
  | orderBy items, .select q => (q.orderBy items).toOption.map .select
  | orderBy items, .count c => (c.orderBy items).toOption.map .count
  | take rows offset, .select q => (q.take rows offset).toOption.map .select
  | count property, .graph g => (Count.count { graph := g } property).toOption.map .count
  | count property, .count c => (c.count property).toOption.map .count
  | update model, .graph g => (s.updateOf g model).toOption.map .update
  | delete, .graph g => some (.delete (s.deleteOf g))
  | deleteFrom label, .graph g => ((s.deleteOf g).fromAlias label).toOption.map .delete
  | deleteFrom label, .delete d => (d.fromAlias label).toOption.map .delete
  | _, _ => none

end BuilderStep

namespace BuilderCall

/-- The builder that a call makes after some others; there is none if it fails. -/
def make (s : Session) (built : List Builder) : BuilderCall → Option Builder
  | start entity label => (s.start entity label).toOption.map .graph
  | insert entity model => (s.insertOf entity model).toOption.map .insert
  | updateModel entity model => (s.updateModelOf entity model).toOption.map .update
  | deleteModel entity model => (s.deleteModelOf entity model).toOption.map .delete
  | further earlier step => built[earlier]?.bind (step.apply s)

end BuilderCall

/-- The builders that calls make in turn after some others, if none of them fails. -/
def Session.build (s : Session) (built : List Builder) : List BuilderCall → Option (List Builder)
  | [] => some built
  | call :: rest => (call.make s built).bind fun next => s.build (built ++ [next]) rest

/-! ### Calls that differ in values only -/

/-- The same call, with other values under the same names. -/
inductive BuilderStep.SameButValues : BuilderStep → BuilderStep → Prop
  | perform {operation operation' : GraphOperation} (h : operation.SameButValues operation') :
      SameButValues (perform operation) (perform operation')
  | selectAll : SameButValues selectAll selectAll
  | select (properties : List String) : SameButValues (select properties) (select properties)
  | orderBy (items : List (String × SortDirection)) :
      SameButValues (orderBy items) (orderBy items)
  | take (rows : UInt64) (offset : Option UInt64) :
      SameButValues (take rows offset) (take rows offset)
  | count (property : Option String) : SameButValues (count property) (count property)
  | update {model model' : Model} (h : model.keys = model'.keys) :
      SameButValues (update model) (update model')
  | delete : SameButValues delete delete
  | deleteFrom (label : String) : SameButValues (deleteFrom label) (deleteFrom label)

/-- The same call, with other values under the same names. -/
inductive BuilderCall.SameButValues : BuilderCall → BuilderCall → Prop
  | start (entity label : String) : SameButValues (start entity label) (start entity label)
  | insert (entity : String) {model model' : Model} (h : model.keys = model'.keys) :
      SameButValues (insert entity model) (insert entity model')
  | updateModel (entity : String) {model model' : Model} (h : model.keys = model'.keys) :
      SameButValues (updateModel entity model) (updateModel entity model')
  | deleteModel (entity : String) {model model' : Model} (h : model.keys = model'.keys) :
      SameButValues (deleteModel entity model) (deleteModel entity model')
  | further (earlier : Nat) {step step' : BuilderStep} (h : step.SameButValues step') :
      SameButValues (further earlier step) (further earlier step')

/-- The same builder, with other values under the same names. -/
inductive Builder.SameButValues : Builder → Builder → Prop
  | graph {g h : JoinGraph} (same : g.SameButValues h) : SameButValues (graph g) (graph h)
  | select {s t : Select} (same : s.SameButValues t) : SameButValues (select s) (select t)
  | count {c d : Count} (same : c.SameButValues d) : SameButValues (count c) (count d)
  | update {u v : Update} (same : u.SameButValues v) : SameButValues (update u) (update v)
  | delete {d e : Delete} (same : d.SameButValues e) : SameButValues (delete d) (delete e)
  | insert {i j : Insert} (same : i.SameButValues j) : SameButValues (insert i) (insert j)

section calls

variable {s : Session} {b b' next next' : Builder}

theorem sameButValues_of_toOption {α : Type} {outcome outcome' : Except QueryError α}
    {f : α → Builder} (h : outcome.toOption.map f = some next)
    (h' : outcome'.toOption.map f = some next')
    (same : ∀ a a', outcome = .ok a → outcome' = .ok a' → (f a).SameButValues (f a')) :
    next.SameButValues next' := by
  cases outcome with
  | error error => cases h
  | ok a =>
      cases outcome' with
      | error error => cases h'
      | ok a' =>
          cases h
          cases h'
          exact same a a' rfl rfl

theorem sameButValues_of_updateOf {g h : JoinGraph} {model model' : Model} {u v : Update}
    (same : g.SameButValues h) (hkeys : model.keys = model'.keys)
    (hu : s.updateOf g model = .ok u) (hv : s.updateOf h model' = .ok v) : u.SameButValues v := by
  obtain ⟨bare, hbare, hu⟩ := bind_eq_ok.1 hu
  obtain ⟨bare', hbare', hv⟩ := bind_eq_ok.1 hv
  obtain rfl := pure_eq_ok.1 hu
  obtain rfl := pure_eq_ok.1 hv
  obtain ⟨_, same'⟩ := Update.sameButValues_of_ofModel same hkeys hbare hbare'
  exact .of _ same'

theorem sameButValues_deleteOf {g h : JoinGraph} (same : g.SameButValues h) :
    (s.deleteOf g).SameButValues (s.deleteOf h) := by
  obtain ⟨parameters, names⟩ := same
  exact .of _ (.of parameters names)

theorem sameButValues_of_updateModelOf {entity : String} {model model' : Model} {u v : Update}
    (hkeys : model.keys = model'.keys) (hu : s.updateModelOf entity model = .ok u)
    (hv : s.updateModelOf entity model' = .ok v) : u.SameButValues v := by
  obtain ⟨bare, hbare, hu⟩ := bind_eq_ok.1 hu
  obtain ⟨bare', hbare', hv⟩ := bind_eq_ok.1 hv
  obtain rfl := pure_eq_ok.1 hu
  obtain rfl := pure_eq_ok.1 hv
  obtain ⟨_, same⟩ := Keyed.sameButValues_of_update hkeys hbare hbare'
  exact .of _ same

theorem sameButValues_of_deleteModelOf {entity : String} {model model' : Model} {d e : Delete}
    (hd : s.deleteModelOf entity model = .ok d) (he : s.deleteModelOf entity model' = .ok e) :
    d.SameButValues e := by
  obtain ⟨bare, hbare, hd⟩ := bind_eq_ok.1 hd
  obtain ⟨bare', hbare', he⟩ := bind_eq_ok.1 he
  obtain rfl := pure_eq_ok.1 hd
  obtain rfl := pure_eq_ok.1 he
  obtain ⟨_, same⟩ := Keyed.sameButValues_of_delete hbare hbare'
  exact .of _ same

theorem sameButValues_of_insertOf {entity : String} {model model' : Model} {i j : Insert}
    (hkeys : model.keys = model'.keys) (hi : s.insertOf entity model = .ok i)
    (hj : s.insertOf entity model' = .ok j) : i.SameButValues j := by
  obtain ⟨table, htable, hi⟩ := bind_eq_ok.1 hi
  obtain ⟨table', htable', hj⟩ := bind_eq_ok.1 hj
  obtain rfl : table = table' := Except.ok.inj (htable.symm.trans htable')
  exact Insert.sameButValues_of_ofModel hkeys hi hj

theorem stage_of_perform {operation : GraphOperation} {g : JoinGraph}
    (h : (BuilderStep.perform operation).apply s (.graph g) = some next) :
    ∃ g', operation.stage g = .ok g' ∧ next = .graph g' := by
  rw [BuilderStep.apply, GraphOperation.action_eq_commit, GraphM.runOn_commit] at h
  cases hstage : operation.stage g with
  | error error => rw [hstage] at h; cases h
  | ok g' => rw [hstage] at h; exact ⟨g', rfl, (Option.some.inj h).symm⟩

/-- A call on builders that differ in their values only leads to such builders. -/
theorem BuilderStep.SameButValues.apply {step step' : BuilderStep}
    (alike : step.SameButValues step') (same : b.SameButValues b')
    (hb : step.apply s b = some next) (hb' : step'.apply s b' = some next') :
    next.SameButValues next' := by
  cases alike with
  | perform alike =>
      cases same with
      | graph same =>
          obtain ⟨g, hg, rfl⟩ := stage_of_perform hb
          obtain ⟨g', hg', rfl⟩ := stage_of_perform hb'
          exact .graph (alike.stage same hg hg')
      -- here and below, the other builders do not have the call
      | _ => cases hb
  | selectAll =>
      cases same with
      | graph same =>
          cases hb
          cases hb'
          exact .select (.of _ same)
      | _ => cases hb
  | select properties =>
      cases same with
      | graph same =>
          exact sameButValues_of_toOption hb hb' fun _ _ hq hq' =>
            .select (Select.SameButValues.select (.of _ same) hq hq')
      | select same =>
          exact sameButValues_of_toOption hb hb' fun _ _ hq hq' => .select (same.select hq hq')
      | _ => cases hb
  | orderBy items =>
      cases same with
      | select same =>
          exact sameButValues_of_toOption hb hb' fun _ _ hq hq' => .select (same.orderBy hq hq')
      | count same =>
          exact sameButValues_of_toOption hb hb' fun _ _ hc hc' => .count (same.orderBy hc hc')
      | _ => cases hb
  | take rows offset =>
      cases same with
      | select same =>
          exact sameButValues_of_toOption hb hb' fun _ _ hq hq' => .select (same.take hq hq')
      | _ => cases hb
  | count property =>
      cases same with
      | graph same =>
          exact sameButValues_of_toOption hb hb' fun _ _ hc hc' =>
            .count (Count.SameButValues.count (.of _ same) hc hc')
      | count same =>
          exact sameButValues_of_toOption hb hb' fun _ _ hc hc' => .count (same.count hc hc')
      | _ => cases hb
  | update hkeys =>
      cases same with
      | graph same =>
          exact sameButValues_of_toOption hb hb' fun _ _ hu hv =>
            .update (sameButValues_of_updateOf same hkeys hu hv)
      | _ => cases hb
  | delete =>
      cases same with
      | graph same =>
          cases hb
          cases hb'
          exact .delete (sameButValues_deleteOf same)
      | _ => cases hb
  | deleteFrom label =>
      cases same with
      | graph same =>
          exact sameButValues_of_toOption hb hb' fun _ _ hd he =>
            .delete ((sameButValues_deleteOf same).fromAlias hd he)
      | delete same =>
          exact sameButValues_of_toOption hb hb' fun _ _ hd he => .delete (same.fromAlias hd he)
      | _ => cases hb

variable {built built' : List Builder}

/-- A call after builders that differ in their values only makes such a builder. -/
theorem BuilderCall.SameButValues.make {call call' : BuilderCall} (alike : call.SameButValues call')
    (same : List.Forall₂ Builder.SameButValues built built')
    (hb : call.make s built = some next) (hb' : call'.make s built' = some next') :
    next.SameButValues next' := by
  cases alike with
  | start entity label =>
      refine sameButValues_of_toOption hb hb' fun g h hg hh => .graph ?_
      obtain rfl : g = h := Except.ok.inj (hg.symm.trans hh)
      exact .of g.parameters ⟨rfl, rfl⟩
  | insert entity hkeys =>
      exact sameButValues_of_toOption hb hb' fun _ _ hi hj =>
        .insert (sameButValues_of_insertOf hkeys hi hj)
  | updateModel entity hkeys =>
      exact sameButValues_of_toOption hb hb' fun _ _ hu hv =>
        .update (sameButValues_of_updateModelOf hkeys hu hv)
  | deleteModel entity hkeys =>
      exact sameButValues_of_toOption hb hb' fun _ _ hd he =>
        .delete (sameButValues_of_deleteModelOf hd he)
  | further earlier alike =>
      -- both calls go to the builder of one number, and those are related
      obtain ⟨b, hget, hb⟩ := Option.bind_eq_some_iff.1 hb
      obtain ⟨b', hget', hb'⟩ := Option.bind_eq_some_iff.1 hb'
      obtain ⟨hlt, rfl⟩ := List.getElem?_eq_some_iff.1 hget
      obtain ⟨hlt', rfl⟩ := List.getElem?_eq_some_iff.1 hget'
      exact alike.apply (same.get hlt hlt') hb hb'

/-- The same calls with other values make builders that differ in their values only. -/
theorem sameButValues_of_build {calls calls' : List BuilderCall} {after after' : List Builder}
    (alike : List.Forall₂ BuilderCall.SameButValues calls calls')
    (same : List.Forall₂ Builder.SameButValues built built')
    (h : s.build built calls = some after) (h' : s.build built' calls' = some after') :
    List.Forall₂ Builder.SameButValues after after' := by
  induction alike generalizing built built' with
  | nil =>
      cases h
      cases h'
      exact same
  | cons alike _ ih =>
      obtain ⟨next, hnext, h⟩ := Option.bind_eq_some_iff.1 h
      obtain ⟨next', hnext', h'⟩ := Option.bind_eq_some_iff.1 h'
      refine ih ?_ h h'
      exact List.rel_append same (.cons (alike.make same hnext hnext') .nil)

end calls

/-! ### What is seen of a builder -/

namespace Builder

/-- The builder as SQL. -/
def sql : Builder → String
  | graph g => g.sql
  | select s => s.sql
  | count c => c.sql
  | update u => u.sql
  | delete d => d.sql
  | insert i => i.sql

/-- The parameters of a builder. -/
def parameters : Builder → Parameters
  | graph g => g.parameters
  | select s => s.graph.parameters
  | count c => c.graph.parameters
  | update u => u.graph.parameters
  | delete d => d.graph.parameters
  | insert i => i.parameters

/-- What an engine is asked when the builder is run; graphs are not run. -/
def callsTo {σ : Type} (engine : Engine σ) (state : σ) : Builder → List Script.Call
  | graph _ => []
  | select s => EngineM.callsOf (s.execute engine.recorded) state
  | count c => EngineM.callsOf (c.execute engine.recorded) state
  | update u => EngineM.callsOf (u.execute engine.recorded) state
  | delete d => EngineM.callsOf (d.execute engine.recorded) state
  | insert i => EngineM.callsOf (i.execute engine.recorded) state

end Builder

/-- Calls of one kind, with the same SQL and values under the same names. -/
structure Script.Call.Agrees (call call' : Script.Call) : Prop where
  kind : call.kind = call'.kind
  sql : call.sql = call'.sql
  names : call.values.keys = call'.values.keys

/-- Builders with the same SQL and values under the same names, of which any
engines, in any states, are asked the same. -/
structure Builder.Agrees (b b' : Builder) : Prop where
  sql : b.sql = b'.sql
  names : b.parameters.values.keys = b'.parameters.values.keys
  calls : ∀ {σ τ : Type} (engine : Engine σ) (engine' : Engine τ) (state : σ) (state' : τ),
    List.Forall₂ Script.Call.Agrees (b.callsTo engine state) (b'.callsTo engine' state')

theorem forall₂_agrees_singleton {kind : Script.CallKind} {sql sql' : String}
    {values values' : Dict Json} (hsql : sql = sql') (hkeys : values.keys = values'.keys) :
    List.Forall₂ Script.Call.Agrees [⟨kind, sql, values⟩] [⟨kind, sql', values'⟩] :=
  .cons ⟨rfl, hsql, hkeys⟩ .nil

theorem Builder.SameButValues.agrees {b b' : Builder} (same : b.SameButValues b') :
    b.Agrees b' := by
  cases same with
  | graph same => exact ⟨same.sql_eq, same.names.keys, fun _ _ _ _ => .nil⟩
  | select same =>
      refine ⟨same.sql_eq, same.names.keys, fun engine engine' state state' => ?_⟩
      rw [callsTo, callsTo, Select.callsOf_execute, Select.callsOf_execute, same.shape_eq]
      split
      next => exact forall₂_agrees_singleton same.sql_eq same.names.keys
      next => exact .nil
  | count same =>
      refine ⟨same.sql_eq, same.names.keys, fun engine engine' state state' => ?_⟩
      rw [callsTo, callsTo, Count.callsOf_execute, Count.callsOf_execute]
      exact forall₂_agrees_singleton same.sql_eq same.names.keys
  | update same =>
      refine ⟨same.sql_eq, same.names.keys, fun engine engine' state state' => ?_⟩
      rw [callsTo, callsTo, Update.callsOf_execute, Update.callsOf_execute, same.assignments_eq]
      split
      next => exact .nil
      next => exact forall₂_agrees_singleton same.sql_eq same.names.keys
  | delete same =>
      refine ⟨same.sql_eq, same.names.keys, fun engine engine' state state' => ?_⟩
      rw [callsTo, callsTo, Delete.callsOf_execute, Delete.callsOf_execute]
      exact forall₂_agrees_singleton same.sql_eq same.names.keys
  | insert same =>
      refine ⟨same.sql_eq, same.names.keys, fun engine engine' state state' => ?_⟩
      rw [callsTo, callsTo, Insert.callsOf_execute, Insert.callsOf_execute, same.columns_eq]
      split
      next => exact .nil
      next => exact forall₂_agrees_singleton same.sql_eq same.names.keys

/-- Values do not reach the SQL of any builder, nor the names of its parameters. -/
theorem agree_of_build {s : Session} {calls calls' : List BuilderCall} {built built' : List Builder}
    (alike : List.Forall₂ BuilderCall.SameButValues calls calls')
    (h : s.build [] calls = some built) (h' : s.build [] calls' = some built') :
    List.Forall₂ Builder.Agrees built built' :=
  (sameButValues_of_build alike .nil h h').imp fun _ _ same => same.agrees

/-- Users, each with a flag that is stored as a bit. -/
def userBook : Catalog where
  tables := [
    { entity := "User", name := "users",
      columns := [{ name := "user_id", property := "id", isPrimary := true },
        { name := "is_new", property := "isNew", converter := some .bit }] }]
  relationships := []
  sound := by decide

/-- A user is looked for, changed in two ways, saved again and removed. -/
def userCalls (id flag : Json) : List BuilderCall :=
  [.start "User" "u",
    .further 0 (.perform (.filter (.obj [("$eq", .obj [("u.id", .str ":id")])])
      (.single "id" id))),
    .further 1 .selectAll,
    .further 2 (.take 1 none),
    .further 1 (.update (Dict.ofList [("u.isNew", flag)])),
    .updateModel "User" (Dict.ofList [("id", id), ("isNew", flag)]),
    .insert "User" (Dict.ofList [("id", id), ("isNew", flag)]),
    .deleteModel "User" (Dict.ofList [("id", id)])]

theorem forall₂_sameButValues_userCalls (id id' flag flag' : Json) :
    List.Forall₂ BuilderCall.SameButValues (userCalls id flag) (userCalls id' flag') :=
  .cons (.start _ _) <|
  .cons (.further _ (.perform (.filter _ (Dict.keys_ofList_congr rfl)))) <|
  .cons (.further _ .selectAll) <|
  .cons (.further _ (.take _ _)) <|
  .cons (.further _ (.update (Dict.keys_ofList_congr rfl))) <|
  .cons (.updateModel _ (Dict.keys_ofList_congr rfl)) <|
  .cons (.insert _ (Dict.keys_ofList_congr rfl)) <|
  .cons (.deleteModel _ (Dict.keys_ofList_congr rfl)) .nil

theorem agree_of_build_userCalls :
    ∃ built built', Session.build ⟨userBook, .mysql, true⟩ []
        (userCalls (.num "1") (.bool true)) = some built ∧
      Session.build ⟨userBook, .mysql, true⟩ []
        (userCalls (.str "1 OR 1 = 1") .null) = some built' ∧
      List.Forall₂ Builder.Agrees built built' := by
  obtain ⟨built, h⟩ : ∃ built, Session.build ⟨userBook, .mysql, true⟩ []
      (userCalls (.num "1") (.bool true)) = some built :=
    Option.isSome_iff_exists.1 (by decide +kernel)
  obtain ⟨built', h'⟩ : ∃ built', Session.build ⟨userBook, .mysql, true⟩ []
      (userCalls (.str "1 OR 1 = 1") .null) = some built' :=
    Option.isSome_iff_exists.1 (by decide +kernel)
  exact ⟨built, built', h, h', agree_of_build (forall₂_sameButValues_userCalls _ _ _ _) h h'⟩

end EntityQuery
