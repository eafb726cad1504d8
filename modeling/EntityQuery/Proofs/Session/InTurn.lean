import EntityQuery.Proofs.Engine
import EntityQuery.Proofs.Statement.Keyed
import EntityQuery.Session
import Mathlib.Data.UInt

/-!
# Lists of models

Work on a list of models is the work on each of them in turn, up to the first
failure (`work_on_models_runs_in_turn`): the engine is handed the calls of the
models that succeed and of the one that fails, and no others. Row counts are
added up. Where it is an error to affect no row, they come to at least one for
each model that a statement is run for.
-/

namespace EntityQuery

open EngineM

variable {σ β γ : Type}

/-- Work that succeeds on models one after another, each from the state that the
one before it left: what it gives for each of them, the calls for each of them,
and the last state. -/
inductive Succeeds (single : Model → EngineM (σ × List Script.Call) β) :
    σ → List Model → List β → List (List Script.Call) → σ → Prop
  | nil (state : σ) : Succeeds single state [] [] [] state
  | cons {model : Model} {models : List Model} {outcome : β} {outcomes : List β}
      {calls : List Script.Call} {others : List (List Script.Call)} {state next final : σ}
      (first : (single model).runFrom (state, []) = (.ok outcome, next, calls))
      (rest : Succeeds single next models outcomes others final) :
      Succeeds single state (model :: models) (outcome :: outcomes) (calls :: others) final

/-- All of the models are worked on, and the outcomes are taken together. -/
def Completes (single : Model → EngineM (σ × List Script.Call) β)
    (together : List Model → EngineM (σ × List Script.Call) γ) (total : List β → γ)
    (state : σ) (models : List Model) : Prop :=
  ∃ outcomes calls final, Succeeds single state models outcomes calls final ∧
    (together models).runFrom (state, []) = (.ok (total outcomes), final, calls.flatten)

/-- The work on one of the models fails after that on the models before it, and
the failure is the outcome of all. -/
def Breaks (single : Model → EngineM (σ × List Script.Call) β)
    (together : List Model → EngineM (σ × List Script.Call) γ) (state : σ)
    (models : List Model) : Prop :=
  ∃ done model rest, models = done ++ model :: rest ∧
    ∃ outcomes calls between, Succeeds single state done outcomes calls between ∧
      ∃ error last final, (single model).runFrom (between, []) = (.error error, final, last) ∧
        (together models).runFrom (state, []) = (.error error, final, calls.flatten ++ last)

/-- Work on models that is the single work on each of them in turn. Both go as
they do where no calls are noted down. -/
structure RunsInTurn (engine : Engine σ) (single : ∀ {τ : Type}, Engine τ → Model → EngineM τ β)
    (together : ∀ {τ : Type}, Engine τ → List Model → EngineM τ γ) (total : List β → γ) :
    Prop where
  records_single : ∀ model, Records (single engine.recorded model) (single engine model)
  records_together : ∀ models, Records (together engine.recorded models) (together engine models)
  completes_or_breaks : ∀ state models,
    Completes (single engine.recorded) (together engine.recorded) total state models ∨
      Breaks (single engine.recorded) (together engine.recorded) state models

section Steps

variable {engine : Engine σ} {single : ∀ {τ : Type}, Engine τ → Model → EngineM τ β}
  {together : ∀ {τ : Type}, Engine τ → List Model → EngineM τ γ} {total : List β → γ}
  {combine : β → γ → γ}

/-- It is enough that work on models starts with the first of them and goes on
with the others. -/
theorem runsInTurn_of_steps
    (records : ∀ model, Records (single engine.recorded model) (single engine model))
    (total_nil : ∀ {τ : Type} (engine : Engine τ), together engine [] = pure (total []))
    (total_cons : ∀ outcome outcomes, total (outcome :: outcomes) = combine outcome (total outcomes))
    (step : ∀ {τ : Type} (engine : Engine τ) model models, together engine (model :: models) =
      single engine model >>= fun outcome =>
        together engine models >>= fun others => pure (combine outcome others)) :
    RunsInTurn engine single together total := by
  have hrecords : ∀ models, Records (together engine.recorded models) (together engine models) := by
    intro models
    induction models with
    | nil =>
        rw [total_nil, total_nil]
        exact records_pure _
    | cons model models ih =>
        rw [step, step]
        exact (records model).bind fun outcome => ih.bind fun others => records_pure _
  refine ⟨records, hrecords, fun state models => ?_⟩
  induction models generalizing state with
  | nil =>
      refine .inl ⟨[], [], state, .nil state, ?_⟩
      rw [total_nil]
      rfl
  | cons model models ih =>
      rcases hfirst : (single engine.recorded model).runFrom (state, []) with
        ⟨error | outcome, next, calls⟩
      · refine .inr ⟨[], model, models, rfl, [], [], state, .nil state, error, calls, next, hfirst,
          ?_⟩
        rw [step, runFrom_bind, hfirst]
        rfl
      · -- what the others do after the calls of the first is what they do by themselves
        have hothers : (together engine.recorded models).runFrom (next, calls) =
            let alone := (together engine.recorded models).runFrom (next, [])
            (alone.1, alone.2.1, calls ++ alone.2.2) := by
          rw [hrecords models next calls, hrecords models next []]
          rfl
        rcases ih next with ⟨outcomes, others, final, hall, hrun⟩ |
          ⟨done, failed, rest, rfl, outcomes, others, between, hall, error, last, final, hlast, hrun⟩
        · refine .inl ⟨outcome :: outcomes, calls :: others, final, .cons hfirst hall, ?_⟩
          rw [step, runFrom_bind, hfirst]
          dsimp only
          rw [runFrom_bind, hothers, hrun, total_cons]
          rfl
        · refine .inr ⟨model :: done, failed, rest, rfl, outcome :: outcomes, calls :: others,
            between, .cons hfirst hall, error, last, final, hlast, ?_⟩
          rw [step, runFrom_bind, hfirst]
          dsimp only
          rw [runFrom_bind, hothers, hrun, List.flatten_cons, List.append_assoc]

end Steps

/-! ### Row counts -/

/-- What is returned for models is the sum of the row counts for each of them,
which is at least the given number where no row may be missed. -/
def AddsUp (required : Bool) (least : List Model → Nat)
    (single : Model → EngineM (σ × List Script.Call) UInt64)
    (together : List Model → EngineM σ UInt64) : Prop :=
  ∀ state models total final, (together models).runFrom state = (.ok total, final) →
    ∃ counts calls, Succeeds single state models counts calls final ∧ total = counts.sum ∧
      ((counts.map UInt64.toNat).sum < 2 ^ 64 → total.toNat = (counts.map UInt64.toNat).sum) ∧
      (required = true → least models ≤ (counts.map UInt64.toNat).sum)

/-- Counts that fit together in a number are added as they are. -/
theorem toNat_sum_of_lt {counts : List UInt64} (h : (counts.map UInt64.toNat).sum < 2 ^ 64) :
    counts.sum.toNat = (counts.map UInt64.toNat).sum := by
  induction counts with
  | nil => rfl
  | cons count counts ih =>
      rw [List.map_cons, List.sum_cons] at h
      have hrest := ih (by omega)
      rw [List.sum_cons, List.map_cons, List.sum_cons, UInt64.toNat_add, hrest]
      exact Nat.mod_eq_of_lt h

/-- Models that cannot be worked on without a row come to one row each. -/
theorem Succeeds.countP_le {single : Model → EngineM (σ × List Script.Call) UInt64}
    {state final : σ} {models : List Model} {counts : List UInt64}
    {calls : List (List Script.Call)} (h : Succeeds single state models counts calls final)
    {p : Model → Bool} (nonzero : ∀ model state count after, p model = true →
      (single model).runFrom state = (.ok count, after) → count ≠ 0) :
    models.countP p ≤ (counts.map UInt64.toNat).sum := by
  induction h with
  | nil => exact Nat.le_refl 0
  | @cons model models count counts calls others state next final first rest ih =>
      rw [List.countP_cons, List.map_cons, List.sum_cons]
      split
      next hp =>
        have hcount : count.toNat ≠ 0 := fun hzero =>
          nonzero _ _ _ _ hp first (UInt64.toNat_inj.1 hzero)
        omega
      next => omega

theorem addsUp_of_runsInTurn {engine : Engine σ}
    {single : ∀ {τ : Type}, Engine τ → Model → EngineM τ UInt64}
    {together : ∀ {τ : Type}, Engine τ → List Model → EngineM τ UInt64}
    (h : RunsInTurn engine single together List.sum) {required : Bool} {p : Model → Bool}
    (nonzero : required = true → ∀ model state count after, p model = true →
      (single engine.recorded model).runFrom state = (.ok count, after) → count ≠ 0) :
    AddsUp required (List.countP p) (single engine.recorded) (together engine) := by
  intro state models total final hrun
  have hrecorded := h.records_together models state []
  rw [hrun] at hrecorded
  rcases h.completes_or_breaks state models with ⟨counts, calls, last, hall, hcounts⟩ |
    ⟨_, _, _, -, _, _, _, -, _, _, _, -, herror⟩
  · obtain ⟨htotal, hlast⟩ := Prod.ext_iff.1 (hrecorded.symm.trans hcounts)
    obtain rfl := Except.ok.inj htotal
    obtain rfl : final = last := (Prod.ext_iff.1 hlast).1
    exact ⟨counts, calls, hall, rfl, toNat_sum_of_lt, fun hrequired =>
      hall.countP_le (nonzero hrequired)⟩
  · cases (Prod.ext_iff.1 (hrecorded.symm.trans herror)).1

theorem Delete.ne_zero_of_execute {d : Delete} {engine : Engine σ} {state final : σ}
    {count : UInt64} (required : d.requireAffected = true)
    (h : (d.execute engine).runFrom state = (.ok count, final)) : count ≠ 0 := by
  obtain ⟨affected, next, -, h⟩ := runFrom_bind_eq_ok.1 h
  dsimp only at h
  split at h
  next => cases h
  next hsome =>
    cases h
    exact fun hzero => hsome ⟨hzero, required⟩

theorem Update.ne_zero_of_execute {u : Update} {engine : Engine σ} {state final : σ}
    {count : UInt64} (required : u.requireAffected = true) (assigns : u.assignments ≠ [])
    (h : (u.execute engine).runFrom state = (.ok count, final)) : count ≠ 0 := by
  rw [Update.execute, if_neg (by simpa using assigns)] at h
  obtain ⟨affected, next, -, h⟩ := runFrom_bind_eq_ok.1 h
  dsimp only at h
  split at h
  next => cases h
  next hsome =>
    cases h
    exact fun hzero => hsome ⟨hzero, required⟩

namespace Keyed

variable {catalog : Catalog} {dialect : Sql.Dialect} {entity : String} {model : Model}
  {g : JoinGraph} {u : Update}

theorem base_of_graph (hg : graph catalog dialect entity model = .ok g) :
    catalog.table entity = .ok g.base.table := by
  obtain ⟨base, bindings, after, hbase, -, hg⟩ := exists_withFilter_of_graph hg
  obtain ⟨_, -, hbase⟩ := bind_eq_ok.1 hbase
  obtain ⟨table, htable, hbase⟩ := bind_eq_ok.1 hbase
  obtain rfl := pure_eq_ok.1 hbase
  rcases JoinGraph.of_withFilter hg with ⟨-, rfl⟩ | ⟨-, _, -, rfl⟩
  · exact htable
  · exact htable

/-- A property that is mapped and no key is assigned if the model has it. -/
theorem assignments_ne_nil (hu : update catalog dialect entity model = .ok u) {table : Table}
    (htable : catalog.table entity = .ok table) {c : Column} (hc : c ∈ table.columns)
    (other : c.isPrimary = false) (has : model.contains c.property = true) :
    u.assignments ≠ [] := by
  obtain ⟨g, hg, hu⟩ := bind_eq_ok.1 hu
  obtain rfl := Except.ok.inj (htable.symm.trans (base_of_graph hg))
  obtain ⟨assignments, after, hassign, rfl⟩ := Update.of_ofModel hu
  obtain ⟨value, hvalue⟩ := Option.isSome_iff_exists.1 has
  -- the property is one of those that are changed
  have hpair : (g.base.alias ++ "." ++ c.property, value) ∈ g.base.columns.filterMap fun c =>
      if c.column.isPrimary then none
      else (model.get? c.column.property).map fun value => (c.property, value) := by
    refine List.mem_filterMap.2 ⟨⟨g.base.alias, c⟩, List.mem_map_of_mem hc, ?_⟩
    rw [other, if_neg Bool.false_ne_true, hvalue]
    rfl
  have hkey : g.base.alias ++ "." ++ c.property ∈ (changes g model).keys := by
    rw [Dict.mem_keys_iff, changes, Dict.get?_ofList, Ne, Dict.lookup_eq_none_iff, not_not,
      List.map_reverse, List.mem_reverse]
    exact List.mem_map_of_mem hpair
  rintro rfl
  rw [Dict.keys, ← (Update.columns_of_assign hassign).1] at hkey
  cases hkey

end Keyed

namespace Session

variable (s : Session) (engine : Engine σ) (entity : String)

theorem runsInTurn_insertAll :
    RunsInTurn engine (fun engine => s.insert engine entity)
      (fun engine => s.insertAll engine entity) id :=
  runsInTurn_of_steps
    (fun model => (records_liftM (s.insertOf entity model)).bind fun i => i.records_execute engine)
    (fun _ => rfl) (fun _ _ => rfl) (fun _ _ _ => rfl)

theorem runsInTurn_updateModels :
    RunsInTurn engine (fun engine => s.updateModel engine entity)
      (fun engine => s.updateModels engine entity) List.sum :=
  runsInTurn_of_steps
    (fun model => (records_liftM (s.updateModelOf entity model)).bind fun u =>
      u.records_execute engine)
    (fun _ => rfl) (fun _ _ => List.sum_cons) (fun _ _ _ => rfl)

theorem runsInTurn_deleteModels :
    RunsInTurn engine (fun engine => s.deleteModel engine entity)
      (fun engine => s.deleteModels engine entity) List.sum :=
  runsInTurn_of_steps
    (fun model => (records_liftM (s.deleteModelOf entity model)).bind fun d =>
      d.records_execute engine)
    (fun _ => rfl) (fun _ _ => List.sum_cons) (fun _ _ _ => rfl)

/-- Whether an update of the row of a model has anything to assign: the model
has a property that is mapped and no key. -/
def changesRow (model : Model) : Bool :=
  match s.catalog.table entity with
  | .ok table => table.columns.any fun c => !c.isPrimary && model.contains c.property
  | .error _ => false

variable {s engine entity}

theorem ne_zero_of_deleteModel {model : Model} {state after : σ} {count : UInt64}
    (required : s.requireAffected = true)
    (h : (s.deleteModel engine entity model).runFrom state = (.ok count, after)) : count ≠ 0 := by
  obtain ⟨d, hd, h⟩ := runFrom_liftM_bind_eq_ok.1 h
  obtain ⟨_, -, hd⟩ := bind_eq_ok.1 hd
  obtain rfl := pure_eq_ok.1 hd
  exact Delete.ne_zero_of_execute required h

theorem ne_zero_of_updateModel {model : Model} {state after : σ} {count : UInt64}
    (required : s.requireAffected = true) (changes : s.changesRow entity model = true)
    (h : (s.updateModel engine entity model).runFrom state = (.ok count, after)) : count ≠ 0 := by
  obtain ⟨u, hu, h⟩ := runFrom_liftM_bind_eq_ok.1 h
  obtain ⟨keyed, hkeyed, hu⟩ := bind_eq_ok.1 hu
  obtain rfl := pure_eq_ok.1 hu
  unfold changesRow at changes
  split at changes
  next table htable =>
    obtain ⟨c, hc, hchanges⟩ := List.any_eq_true.1 changes
    rw [Bool.and_eq_true, Bool.not_eq_true'] at hchanges
    have assigns : keyed.assignments ≠ [] :=
      Keyed.assignments_ne_nil hkeyed htable hc hchanges.1 hchanges.2
    refine Update.ne_zero_of_execute required ?_ h
    exact assigns
  next => cases changes

/-- A model that is refused before a statement is run causes no call. -/
def Refuses (single : Model → EngineM (σ × List Script.Call) β) (model : Model)
    (error : QueryError) : Prop :=
  ∀ state, (single model).runFrom (state, []) = (.error error, state, [])

theorem refuses_of_eq_error {α : Type} {make : Model → Except QueryError α}
    {run : α → EngineM (σ × List Script.Call) β} {model : Model} {error : QueryError}
    (h : make model = .error error) :
    Refuses (fun model => liftM (make model) >>= run) model error := by
  intro state
  dsimp only
  rw [h]
  rfl

/-- Without a value of its key, a model names no row. -/
theorem exists_graph_eq_error {catalog : Catalog} {dialect : Sql.Dialect} {table : Table}
    {model : Model} (registered : catalog.table entity = .ok table)
    (missing : ∃ key ∈ table.primaryKey, model.hasValue key.property = false) :
    ∃ error, Keyed.graph catalog dialect entity model = .error error ∧
      (entity ≠ "" → ∃ key ∈ table.primaryKey, model.hasValue key.property = false ∧
        error = .missingModelKey key.property) := by
  by_cases named : entity = ""
  · subst named
    exact ⟨.invalidAlias "", rfl, fun h => absurd rfl h⟩
  · rcases Keyed.complete_or_missing model table.primaryKey with complete | ⟨key, hkey⟩
    · obtain ⟨key, hkey, hnone⟩ := missing
      rw [complete key hkey] at hnone
      cases hnone
    · refine ⟨_, Keyed.graph_eq_error named registered hkey, fun _ =>
        ⟨key, List.mem_of_find?_eq_some hkey, ?_, rfl⟩⟩
      simpa using List.find?_some hkey

variable (s engine entity)

/-- Insertions, updates and deletions of models in a list are those of the
single models in turn. A model that is refused, be it for want of its key,
causes no call. Row counts are added up, and where it is an error to affect no
row they come to the number of models at least, of those that an update has
something to assign for. -/
theorem work_on_models_runs_in_turn :
    (RunsInTurn engine (fun engine => s.insert engine entity)
        (fun engine => s.insertAll engine entity) id ∧
      RunsInTurn engine (fun engine => s.updateModel engine entity)
        (fun engine => s.updateModels engine entity) List.sum ∧
      RunsInTurn engine (fun engine => s.deleteModel engine entity)
        (fun engine => s.deleteModels engine entity) List.sum) ∧
    (∀ model error,
      (s.insertOf entity model = .error error →
        Refuses (s.insert engine.recorded entity) model error) ∧
      (s.updateModelOf entity model = .error error →
        Refuses (s.updateModel engine.recorded entity) model error) ∧
      (s.deleteModelOf entity model = .error error →
        Refuses (s.deleteModel engine.recorded entity) model error)) ∧
    (∀ table model, s.catalog.table entity = .ok table →
      (∃ key ∈ table.primaryKey, model.hasValue key.property = false) →
      ∃ error, Refuses (s.updateModel engine.recorded entity) model error ∧
        Refuses (s.deleteModel engine.recorded entity) model error ∧
        (entity ≠ "" → ∃ key ∈ table.primaryKey, model.hasValue key.property = false ∧
          error = .missingModelKey key.property)) ∧
    AddsUp s.requireAffected (List.countP (s.changesRow entity))
      (s.updateModel engine.recorded entity) (s.updateModels engine entity) ∧
    AddsUp s.requireAffected List.length
      (s.deleteModel engine.recorded entity) (s.deleteModels engine entity) := by
  have hupdates := runsInTurn_updateModels s engine entity
  have hdeletes := runsInTurn_deleteModels s engine entity
  refine ⟨⟨runsInTurn_insertAll s engine entity, hupdates, hdeletes⟩, fun model error =>
    ⟨refuses_of_eq_error, refuses_of_eq_error, refuses_of_eq_error⟩, ?_, ?_, ?_⟩
  · intro table model registered missing
    obtain ⟨error, hgraph, herror⟩ := exists_graph_eq_error registered missing
    refine ⟨error, refuses_of_eq_error ?_, refuses_of_eq_error ?_, herror⟩
    · rw [updateModelOf, Keyed.update, hgraph]
      rfl
    · rw [deleteModelOf, Keyed.delete, hgraph]
      rfl
  · exact addsUp_of_runsInTurn hupdates fun required _ _ _ _ => ne_zero_of_updateModel required
  · have hall := addsUp_of_runsInTurn (p := fun _ => true) hdeletes
      fun required _ _ _ _ _ => ne_zero_of_deleteModel required
    simpa using hall

/-- Of three users the second is not there, and nobody asks for the third. -/
example :
    let session : Session := ⟨JoinGraph.phoneBook, .mysql, true⟩
    let users := ["1", "2", "3"].map fun id => Dict.ofList [("id", Json.num id)]
    let run := (session.deleteModels (Script.engine { affected := [1, 0] }) "User" users).runFrom {}
    run.1 = .error .noRowsAffected ∧ run.2.calls.length = 2 := by
  decide +kernel

end Session

end EntityQuery
