import EntityQuery.Proofs.Spelling.Engine
import EntityQuery.Proofs.Values.Session

/-!
# Builders in two dialects

A call on a session or on an earlier builder comes to the same in two dialects,
the reason of a failure included. The one exception is an update of a graph
that a dialect refuses (`BuilderStep.rel_outcome?`).
-/

namespace EntityQuery

/-- The same session in another dialect. -/
def Session.inDialect (s : Session) (d : Sql.Dialect) : Session := { s with dialect := d }

/-- The same builder in another dialect. -/
inductive Builder.SameButSpelling : Builder → Builder → Prop
  | graph {g h : JoinGraph} (same : g.SameButSpelling h) : SameButSpelling (graph g) (graph h)
  | select {s t : Select} (same : s.SameButSpelling t) : SameButSpelling (select s) (select t)
  | count {c d : Count} (same : c.SameButSpelling d) : SameButSpelling (count c) (count d)
  | update {u v : Update} (same : u.SameButSpelling v) : SameButSpelling (update u) (update v)
  | delete {d e : Delete} (same : d.SameButSpelling e) : SameButSpelling (delete d) (delete e)
  | insert {i j : Insert} (same : i.SameButSpelling j) : SameButSpelling (insert i) (insert j)

theorem Builder.SameButSpelling.refl (b : Builder) : b.SameButSpelling b := by
  cases b with
  | graph g => exact .graph (.refl g)
  | select s => exact .select (.of s.graph (.refl _))
  | count c => exact .count (.of c.graph (.refl _))
  | update u => exact .update (.of u.graph (.refl _))
  | delete d => exact .delete (.of d.graph d.target (.refl _) (.refl _))
  | insert i => exact .insert (.of i.dialect)

/-! ### What calls come to -/

namespace BuilderStep

/-- What a call comes to; nothing if the builder does not have it. -/
def outcome? (s : Session) : BuilderStep → Builder → Option (Except QueryError Builder)
  | perform operation, .graph g => some ((operation.stage g).map .graph)
  | selectAll, .graph g => some (.ok (.select { graph := g }))
  | select properties, .graph g => some ((Select.select { graph := g } properties).map .select)
  | select properties, .select q => some ((q.select properties).map .select)
  | orderBy items, .select q => some ((q.orderBy items).map .select)
  | orderBy items, .count c => some ((c.orderBy items).map .count)
  | take rows offset, .select q => some ((q.take rows offset).map .select)
  | count property, .graph g => some ((Count.count { graph := g } property).map .count)
  | count property, .count c => some ((c.count property).map .count)
  | update model, .graph g => some ((s.updateOf g model).map .update)
  | delete, .graph g => some (.ok (.delete (s.deleteOf g)))
  | deleteFrom label, .graph g => some (((s.deleteOf g).fromAlias label).map .delete)
  | deleteFrom label, .delete d => some ((d.fromAlias label).map .delete)
  | _, _ => none

theorem toOption_map {α β : Type} (x : Except QueryError α) (f : α → β) :
    (x.map f).toOption = x.toOption.map f := by
  cases x <;> rfl

/-- Where it does not fail, a call leads to the builder that it comes to. -/
theorem apply_eq (s : Session) (step : BuilderStep) (b : Builder) :
    step.apply s b = (step.outcome? s b).bind Except.toOption := by
  cases step with
  | perform operation =>
      cases b with
      | graph g =>
          rw [apply, GraphOperation.action_eq_commit, GraphM.runOn_commit, outcome?]
          cases operation.stage g <;> rfl
      | _ => rfl
  | _ => cases b <;> first | rfl | exact (toOption_map _ _).symm

end BuilderStep

namespace BuilderCall

/-- What a call comes to, where some builders are found by their numbers. -/
def outcome? (s : Session) (found : Nat → Option Builder) :
    BuilderCall → Option (Except QueryError Builder)
  | start entity label => some ((s.start entity label).map .graph)
  | insert entity model => some ((s.insertOf entity model).map .insert)
  | updateModel entity model => some ((s.updateModelOf entity model).map .update)
  | deleteModel entity model => some ((s.deleteModelOf entity model).map .delete)
  | further earlier step => (found earlier).bind (step.outcome? s)

theorem make_eq (s : Session) (built : List Builder) (call : BuilderCall) :
    call.make s built = (call.outcome? s (built[·]?)).bind Except.toOption := by
  cases call with
  | further earlier step =>
      rw [make, outcome?, Option.bind_assoc]
      exact congrArg _ (funext fun b => step.apply_eq s b)
  | _ => exact (BuilderStep.toOption_map _ _).symm

end BuilderCall

/-! ### Calls in two dialects -/

theorem rel_bind {α β γ δ : Type} {R : α → β → Prop} {S : γ → δ → Prop} {x : Option α}
    {y : Option β} {f : α → Option γ} {k : β → Option δ} (first : Option.Rel R x y)
    (rest : ∀ a b, x = some a → y = some b → R a b → Option.Rel S (f a) (k b)) :
    Option.Rel S (x.bind f) (y.bind k) := by
  cases first with
  | none => exact .none
  | some h => exact rest _ _ rfl rfl h

theorem rel_map {α β γ δ : Type} {R : α → β → Prop} {S : γ → δ → Prop} {x : Option α}
    {y : Option β} {f : α → γ} {k : β → δ} (first : Option.Rel R x y)
    (rest : ∀ a b, R a b → S (f a) (k b)) : Option.Rel S (x.map f) (y.map k) := by
  cases first with
  | none => exact .none
  | some h => exact .some (rest _ _ h)

theorem exists_of_rel_some {α β : Type} {R : α → β → Prop} {a : α} {y : Option β}
    (h : Option.Rel R (some a) y) : ∃ b, y = some b ∧ R a b := by
  cases h with
  | some h => exact ⟨_, rfl, h⟩

namespace Session

variable {s : Session} {d : Sql.Dialect}

theorem sameOutcome_updateOf {g h : JoinGraph} {model : Model} (same : g.SameButSpelling h)
    (hg : IsCommon (s.updateOf g model)) (hh : IsCommon ((s.inDialect d).updateOf h model)) :
    SameOutcome Update.SameButSpelling (s.updateOf g model) ((s.inDialect d).updateOf h model) := by
  refine (Update.sameOutcome_ofModel same hg.of_bind hh.of_bind).bind fun u v same => ?_
  obtain ⟨graph, same⟩ := same
  exact .ok (.of graph same)

theorem sameButSpelling_deleteOf {g h : JoinGraph} (same : g.SameButSpelling h) :
    (s.deleteOf g).SameButSpelling ((s.inDialect d).deleteOf h) :=
  .of h h.base same same.base

theorem sameOutcome_insertOf (entity : String) (model : Model) :
    SameOutcome Insert.SameButSpelling (s.insertOf entity model)
      ((s.inDialect d).insertOf entity model) :=
  (s.catalog.isCommon_table entity).same_bind fun table _ =>
    Insert.sameOutcome_ofModel table s.dialect d model

theorem sameOutcome_updateModelOf (entity : String) (model : Model) :
    SameOutcome Update.SameButSpelling (s.updateModelOf entity model)
      ((s.inDialect d).updateModelOf entity model) := by
  refine (Keyed.sameOutcome_update s.dialect d).bind fun u v same => ?_
  obtain ⟨graph, same⟩ := same
  exact .ok (.of graph same)

theorem sameOutcome_deleteModelOf (entity : String) (model : Model) :
    SameOutcome Delete.SameButSpelling (s.deleteModelOf entity model)
      ((s.inDialect d).deleteModelOf entity model) := by
  refine (Keyed.sameOutcome_delete s.dialect d).bind fun d e same => ?_
  obtain ⟨graph, target, hgraph, htarget⟩ := same
  exact .ok (.of graph target hgraph htarget)

end Session

namespace BuilderStep

/-- Whether a call is the update of a graph. -/
def isUpdate : BuilderStep → Bool
  | update _ => true
  | _ => false

variable {s : Session} {d : Sql.Dialect} {b b' : Builder}

/-- A call comes to the same in both dialects, unless it is an update that one
of them refuses. -/
theorem rel_outcome? (step : BuilderStep) (same : b.SameButSpelling b')
    (hb : step.isUpdate = true → ∀ x ∈ step.outcome? s b, IsCommon x)
    (hb' : step.isUpdate = true → ∀ x ∈ step.outcome? (s.inDialect d) b', IsCommon x) :
    Option.Rel (SameOutcome Builder.SameButSpelling) (step.outcome? s b)
      (step.outcome? (s.inDialect d) b') := by
  cases step with
  | perform operation =>
      cases same with
      | graph same => exact .some ((operation.sameOutcome_stage same).map fun _ _ => .graph)
      -- here and below, the other builders do not have the call
      | _ => exact .none
  | selectAll =>
      cases same with
      | @graph g h same => exact .some (.ok (.select (.of h same)))
      | _ => exact .none
  | select properties =>
      cases same with
      | @graph g h same =>
          exact .some ((Select.SameButSpelling.select (.of h same) properties).map
            fun _ _ => .select)
      | select same => exact .some ((same.select properties).map fun _ _ => .select)
      | _ => exact .none
  | orderBy items =>
      cases same with
      | select same => exact .some ((same.orderBy items).map fun _ _ => .select)
      | count same => exact .some ((same.orderBy items).map fun _ _ => .count)
      | _ => exact .none
  | take rows offset =>
      cases same with
      | select same => exact .some ((same.take rows offset).map fun _ _ => .select)
      | _ => exact .none
  | count property =>
      cases same with
      | @graph g h same =>
          exact .some ((Count.SameButSpelling.count (.of h same) property).map fun _ _ => .count)
      | count same => exact .some ((same.count property).map fun _ _ => .count)
      | _ => exact .none
  | update model =>
      cases same with
      | graph same =>
          exact .some ((Session.sameOutcome_updateOf same (hb rfl _ rfl).of_map
            (hb' rfl _ rfl).of_map).map fun _ _ => .update)
      | _ => exact .none
  | delete =>
      cases same with
      | graph same => exact .some (.ok (.delete (Session.sameButSpelling_deleteOf same)))
      | _ => exact .none
  | deleteFrom label =>
      cases same with
      | graph same =>
          exact .some (((Session.sameButSpelling_deleteOf same).fromAlias label).map
            fun _ _ => .delete)
      | delete same => exact .some ((same.fromAlias label).map fun _ _ => .delete)
      | _ => exact .none

end BuilderStep

namespace BuilderCall

/-- Whether a call is the update of a graph. -/
def isUpdate : BuilderCall → Bool
  | further _ step => step.isUpdate
  | _ => false

variable {s : Session} {d : Sql.Dialect} {found found' : Nat → Option Builder}

/-- A call comes to the same in both dialects, unless it is an update that one
of them refuses. -/
theorem rel_outcome? (call : BuilderCall)
    (same : ∀ number, Option.Rel Builder.SameButSpelling (found number) (found' number))
    (hb : call.isUpdate = true → ∀ x ∈ call.outcome? s found, IsCommon x)
    (hb' : call.isUpdate = true → ∀ x ∈ call.outcome? (s.inDialect d) found', IsCommon x) :
    Option.Rel (SameOutcome Builder.SameButSpelling) (call.outcome? s found)
      (call.outcome? (s.inDialect d) found') := by
  cases call with
  | start entity label =>
      exact .some ((JoinGraph.sameOutcome_start s.catalog s.dialect d entity label).map
        fun _ _ => .graph)
  | insert entity model =>
      exact .some ((Session.sameOutcome_insertOf entity model).map fun _ _ => .insert)
  | updateModel entity model =>
      exact .some ((Session.sameOutcome_updateModelOf entity model).map fun _ _ => .update)
  | deleteModel entity model =>
      exact .some ((Session.sameOutcome_deleteModelOf entity model).map fun _ _ => .delete)
  | further earlier step =>
      refine rel_bind (same earlier) fun b b' hfound hfound' same => ?_
      rw [outcome?, hfound] at hb
      rw [outcome?, hfound'] at hb'
      exact step.rel_outcome? same hb hb'

end BuilderCall

end EntityQuery
