import EntityQuery.Proofs.Engine
import EntityQuery.Proofs.Spelling.Statements

/-!
# Engines that do not look at the SQL

An engine is blind if its answers depend on the kinds and the values of calls
alone. Engines with their answers ready are. On a blind engine statements of two
dialects run alike: what they return is the same, and they leave the engine in
states that later answers do not tell apart (`EngineM.Alike`).
-/

namespace EntityQuery

variable {σ α β γ δ : Type}

/-- Calls with one answer from related states, which lead to related states. -/
def SameAnswer (R : σ → σ → Prop) (call call' : StateM σ α) : Prop :=
  ∀ state state', R state state' →
    (call.run state).1 = (call'.run state').1 ∧ R (call.run state).2 (call'.run state').2

namespace Engine

/-- The engine answers calls of one kind with the same values alike, whatever
their SQL is. Related states are those that answers do not tell apart. -/
structure IsBlind (engine : Engine σ) (R : σ → σ → Prop) : Prop where
  select : ∀ sql sql' values, SameAnswer R (engine.select sql values) (engine.select sql' values)
  insert : ∀ sql sql' values, SameAnswer R (engine.insert sql values) (engine.insert sql' values)
  update : ∀ sql sql' values, SameAnswer R (engine.update sql values) (engine.update sql' values)
  delete : ∀ sql sql' values, SameAnswer R (engine.delete sql values) (engine.delete sql' values)

/-- What a call may be answered, whichever kind it is of. -/
structure Answer where
  rows : List Row := []
  id : Option Json := none
  affected : UInt64 := 0

/-- The next of some answers, of which a part is asked for. -/
def next (part : Answer → α) : StateM (List (Except String Answer)) (Except String α) :=
  modifyGet fun
    | [] => (.error "no answer left", [])
    | answer :: rest => (answer.map part, rest)

/-- An engine with its answers ready, which it gives in turn, whatever it is asked. -/
def canned : Engine (List (Except String Answer)) where
  select _ _ := next Answer.rows
  insert _ _ := next Answer.id
  update _ _ := next Answer.affected
  delete _ _ := next Answer.affected

theorem isBlind_canned : canned.IsBlind Eq := by
  constructor <;> rintro _ _ _ state _ rfl <;> exact ⟨rfl, rfl⟩

end Engine

namespace Script

/-- Calls of one kind with the same values. -/
structure Call.SameButSql (call call' : Call) : Prop where
  kind : call.kind = call'.kind
  values : call.values = call'.values

end Script

namespace Engine

/-- Calls that differ in their SQL only, noted down beside related states. -/
def SameRecord (R : σ → σ → Prop) (record record' : σ × List Script.Call) : Prop :=
  R record.1 record'.1 ∧ List.Forall₂ Script.Call.SameButSql record.2 record'.2

theorem sameAnswer_recording {R : σ → σ → Prop} (kind : Script.CallKind) (sql sql' : String)
    (values : Dict Json) {answer answer' : StateM σ α} (answers : SameAnswer R answer answer') :
    SameAnswer (SameRecord R) (recording ⟨kind, sql, values⟩ answer)
      (recording ⟨kind, sql', values⟩ answer') := by
  rintro ⟨state, calls⟩ ⟨state', calls'⟩ ⟨related, hcalls⟩
  obtain ⟨houtcome, hnext⟩ := answers state state' related
  exact ⟨houtcome, hnext, List.rel_append hcalls (.cons ⟨rfl, rfl⟩ .nil)⟩

theorem IsBlind.recorded {engine : Engine σ} {R : σ → σ → Prop} (blind : engine.IsBlind R) :
    engine.recorded.IsBlind (SameRecord R) where
  select sql sql' values :=
    sameAnswer_recording .select sql sql' values (blind.select sql sql' values)
  insert sql sql' values :=
    sameAnswer_recording .insert sql sql' values (blind.insert sql sql' values)
  update sql sql' values :=
    sameAnswer_recording .update sql sql' values (blind.update sql sql' values)
  delete sql sql' values :=
    sameAnswer_recording .delete sql sql' values (blind.delete sql sql' values)

end Engine

/-! ### Work that goes alike -/

namespace EngineM

/-- Work with the same outcome from related states, which leads to related states. -/
def Alike (R : σ → σ → Prop) (P : α → β → Prop) (work : EngineM σ α) (work' : EngineM σ β) : Prop :=
  ∀ state state', R state state' →
    SameOutcome P (work.runFrom state).1 (work'.runFrom state').1 ∧
      R (work.runFrom state).2 (work'.runFrom state').2

variable {R : σ → σ → Prop} {P : α → β → Prop} {Q : γ → δ → Prop}

theorem alike_pure {a : α} {b : β} (h : P a b) : Alike R P (pure a) (pure b) :=
  fun _ _ related => ⟨.ok h, related⟩

theorem alike_throw {e : QueryError} (h : e.isJoinedTarget = false) :
    Alike R P (throw e) (throw e) :=
  fun _ _ related => ⟨.error h, related⟩

theorem alike_liftM {x : Except QueryError α} {y : Except QueryError β} (same : SameOutcome P x y) :
    Alike R P (liftM x) (liftM y) := by
  cases same with
  | ok h => exact alike_pure h
  | error h => exact alike_throw h

/-- A failure of the engine is told in its own words in all dialects. -/
theorem alike_ofCall {call call' : StateM σ (Except String α)} (answers : SameAnswer R call call') :
    Alike R Eq (ofCall call) (ofCall call') := by
  intro state state' related
  obtain ⟨houtcome, hnext⟩ := answers state state' related
  rw [runFrom_ofCall, runFrom_ofCall]
  refine ⟨?_, hnext⟩
  change SameOutcome Eq ((call.run state).1.mapError .engine) ((call'.run state').1.mapError .engine)
  rw [houtcome]
  cases (call'.run state').1 with
  | ok a => exact .ok rfl
  | error message => exact .error rfl

/-- Work in sequence goes alike if each part of it does. -/
theorem Alike.bind {work : EngineM σ α} {work' : EngineM σ β} {f : α → EngineM σ γ}
    {k : β → EngineM σ δ} (first : Alike R P work work')
    (rest : ∀ a b, P a b → Alike R Q (f a) (k b)) : Alike R Q (work >>= f) (work' >>= k) := by
  intro state state' related
  have hfirst := first state state' related
  rw [runFrom_bind, runFrom_bind]
  generalize work.runFrom state = done, work'.runFrom state' = done' at hfirst ⊢
  obtain ⟨outcome, next⟩ := done
  obtain ⟨outcome', next'⟩ := done'
  obtain ⟨houtcome, hnext⟩ := hfirst
  cases houtcome with
  | ok h => exact rest _ _ h next next' hnext
  | error h => exact ⟨.error h, hnext⟩

/-- What is made of the same results is the same. -/
theorem Alike.returning {work work' : EngineM σ α} (same : Alike R Eq work work') (f : α → γ) :
    Alike R Eq (do return f (← work)) (do return f (← work')) := by
  refine same.bind ?_
  rintro a _ rfl
  exact alike_pure rfl

theorem alike_mapM {f : α → EngineM σ γ} (h : ∀ a, Alike R Eq (f a) (f a)) (xs : List α) :
    Alike R Eq (xs.mapM f) (xs.mapM f) := by
  induction xs with
  | nil => exact alike_pure rfl
  | cons x xs ih =>
      rw [List.mapM_cons]
      refine (h x).bind ?_
      rintro y _ rfl
      exact ih.returning _

end EngineM

/-! ### Statements on blind engines -/

open EngineM

variable {engine : Engine σ} {R : σ → σ → Prop} (blind : engine.IsBlind R)
include blind

theorem Select.SameButSpelling.execute {s t : Select} (same : s.SameButSpelling t) :
    Alike R Eq (s.execute engine) (t.execute engine) := by
  refine (alike_liftM same.shape).bind ?_
  rintro shape _ rfl
  obtain ⟨_, _, _, _, -, -⟩ := same
  refine (alike_ofCall (blind.select _ _ _)).bind ?_
  rintro rows _ rfl
  exact alike_pure rfl

omit blind in
theorem Model.isCommon_toTexts (model : Model) : IsCommon model.toTexts := by
  unfold toTexts
  split
  next => exact isCommon_ok _
  next => exact isCommon_error rfl

theorem Select.SameButSpelling.executeAsTexts {s t : Select} (same : s.SameButSpelling t) :
    Alike R Eq (s.executeAsTexts engine) (t.executeAsTexts engine) := by
  refine (same.execute blind).bind ?_
  rintro models _ rfl
  exact alike_mapM (fun model => alike_liftM model.isCommon_toTexts.same) models

theorem Count.SameButSpelling.execute {c d : Count} (same : c.SameButSpelling d) :
    Alike R Eq (c.execute engine) (d.execute engine) := by
  obtain ⟨_, _, _, _, -, -⟩ := same
  refine (alike_ofCall (blind.select _ _ _)).bind ?_
  rintro rows _ rfl
  split
  next => exact alike_pure rfl
  next => exact alike_throw rfl

theorem Update.SameButSpelling.execute {u v : Update} (same : u.SameButSpelling v) :
    Alike R Eq (u.execute engine) (v.execute engine) := by
  obtain ⟨_, _, _, _, -, -⟩ := same
  unfold Update.execute
  dsimp only
  split
  next => exact alike_pure rfl
  next =>
    refine (alike_ofCall (blind.update _ _ _)).bind ?_
    rintro affected _ rfl
    split
    next => exact alike_throw rfl
    next => exact alike_pure rfl

theorem Delete.SameButSpelling.execute {d e : Delete} (same : d.SameButSpelling e) :
    Alike R Eq (d.execute engine) (e.execute engine) := by
  obtain ⟨_, _, ⟨_, _, _, -, -⟩, -⟩ := same
  refine (alike_ofCall (blind.delete _ _ _)).bind ?_
  rintro affected _ rfl
  dsimp only
  split
  next => exact alike_throw rfl
  next => exact alike_pure rfl

theorem Insert.SameButSpelling.execute {i j : Insert} (same : i.SameButSpelling j) :
    Alike R Eq (i.execute engine) (j.execute engine) := by
  obtain ⟨_⟩ := same
  unfold Insert.execute
  dsimp only
  split
  next => exact alike_pure rfl
  next =>
    refine (alike_ofCall (blind.insert _ _ _)).bind ?_
    rintro id? _ rfl
    split
    next => exact alike_pure rfl
    next id =>
      split
      next => exact alike_pure rfl
      next => exact alike_liftM (IsCommon.same (i.isCommon_withId id))

end EntityQuery
