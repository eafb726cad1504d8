import EntityQuery.Engine.Scripted
import EntityQuery.Statement.Count
import EntityQuery.Statement.Delete
import EntityQuery.Statement.Insert
import EntityQuery.Statement.Select
import EntityQuery.Statement.Update

/-!
# What engines are asked

A recorded engine answers as the engine itself does, and every call is noted
down (`EngineM.Records`). A statement makes one call or none, and which one does
not depend on what the engine answers: what is done with the answer is quiet
(`EngineM.callsOf_ofCall_bind`).
-/

namespace EntityQuery

variable {σ α β : Type}

namespace Engine

/-- A call that is answered and noted down. -/
def recording (call : Script.Call) (answer : StateM σ α) : StateM (σ × List Script.Call) α :=
  modifyGet fun (state, calls) =>
    let (outcome, next) := (answer.run state).run
    (outcome, next, calls ++ [call])

/-- The engine with the calls so far beside its state, latest last. -/
def recorded (engine : Engine σ) : Engine (σ × List Script.Call) where
  select sql values := recording ⟨.select, sql, values⟩ (engine.select sql values)
  insert sql values := recording ⟨.insert, sql, values⟩ (engine.insert sql values)
  update sql values := recording ⟨.update, sql, values⟩ (engine.update sql values)
  delete sql values := recording ⟨.delete, sql, values⟩ (engine.delete sql values)

end Engine

namespace EngineM

/-- The calls that work makes from a state. -/
def callsOf (work : EngineM (σ × List Script.Call) α) (state : σ) : List Script.Call :=
  (work.runFrom (state, [])).2.2

/-- Work that makes no call. -/
def IsQuiet (work : EngineM σ α) : Prop := ∀ state, (work.runFrom state).2 = state

theorem isQuiet_pure (a : α) : IsQuiet (pure a : EngineM σ α) := fun _ => rfl

theorem isQuiet_throw (error : QueryError) : IsQuiet (throw error : EngineM σ α) := fun _ => rfl

theorem runFrom_liftM (outcome : Except QueryError α) (state : σ) :
    (liftM outcome : EngineM σ α).runFrom state = (outcome, state) := by
  cases outcome <;> rfl

theorem isQuiet_liftM (outcome : Except QueryError α) :
    IsQuiet (liftM outcome : EngineM σ α) := fun state => by rw [runFrom_liftM]

theorem runFrom_bind (work : EngineM σ α) (f : α → EngineM σ β) (state : σ) :
    (work >>= f).runFrom state =
      match work.runFrom state with
      | (.ok a, next) => (f a).runFrom next
      | (.error error, next) => (.error error, next) := by
  change (work.run.run state >>= fun x => (ExceptT.bindCont f x.1).run x.2) = _
  rw [← show work.runFrom state = work.run.run state from rfl]
  rcases work.runFrom state with ⟨error | a, next⟩ <;> rfl

/-- Work in sequence succeeds where each part of it does. -/
theorem runFrom_bind_eq_ok {work : EngineM σ α} {f : α → EngineM σ β} {state final : σ} {b : β} :
    (work >>= f).runFrom state = (.ok b, final) ↔
      ∃ a next, work.runFrom state = (.ok a, next) ∧ (f a).runFrom next = (.ok b, final) := by
  rw [runFrom_bind]
  rcases work.runFrom state with ⟨error | a, next⟩ <;> simp [and_assoc]

/-- What is made ahead of the work has to succeed as well. -/
theorem runFrom_liftM_bind_eq_ok {outcome : Except QueryError α} {f : α → EngineM σ β}
    {state final : σ} {b : β} :
    (liftM outcome >>= f).runFrom state = (.ok b, final) ↔
      ∃ a, outcome = .ok a ∧ (f a).runFrom state = (.ok b, final) := by
  cases outcome with
  | ok a =>
      change (f a).runFrom state = _ ↔ _
      simp
  | error error =>
      change (Except.error error, state) = _ ↔ _
      simp

/-- The failure of a call is passed on in its own words. -/
theorem runFrom_ofCall (answer : StateM σ (Except String α)) (state : σ) :
    (ofCall answer).runFrom state =
      ((answer.run state).run.1.mapError .engine, (answer.run state).run.2) := by
  simp only [runFrom, ofCall, ExceptT.run_mk, StateT.run_bind]
  generalize answer.run state = answered
  obtain ⟨outcome, after⟩ := answered
  cases outcome <;> rfl

/-- A call is answered as the engine answers it, and noted down after the calls before it. -/
theorem runFrom_ofCall_recording (call : Script.Call) (answer : StateM σ (Except String α))
    (state : σ) (calls : List Script.Call) :
    (ofCall (Engine.recording call answer)).runFrom (state, calls) =
      (((ofCall answer).runFrom state).1, ((ofCall answer).runFrom state).2, calls ++ [call]) := by
  rw [runFrom_ofCall, runFrom_ofCall]
  rfl

/-- A call is noted down whether or not it succeeds, and nothing after it if that is quiet. -/
theorem callsOf_ofCall_bind (call : Script.Call) (answer : StateM σ (Except String α))
    {f : α → EngineM (σ × List Script.Call) β} (quiet : ∀ a, (f a).IsQuiet) (state : σ) :
    callsOf (ofCall (Engine.recording call answer) >>= f) state = [call] := by
  rw [callsOf, runFrom_bind, runFrom_ofCall_recording]
  cases ((ofCall answer).runFrom state).1 with
  | ok a => exact congrArg Prod.snd (quiet a _)
  | error error => rfl

/-- Recorded work goes as the work itself does, and its calls come after those before it. -/
def Records (recorded : EngineM (σ × List Script.Call) α) (work : EngineM σ α) : Prop :=
  ∀ state calls, recorded.runFrom (state, calls) =
    ((work.runFrom state).1, (work.runFrom state).2, calls ++ callsOf recorded state)

theorem records_pure (a : α) : Records (pure a) (pure a : EngineM σ α) := by
  intro state calls
  exact congrArg (fun calls => (Except.ok a, state, calls)) (List.append_nil calls).symm

theorem records_throw (error : QueryError) :
    Records (throw error) (throw error : EngineM σ α) := by
  intro state calls
  exact congrArg (fun calls => (Except.error error, state, calls)) (List.append_nil calls).symm

theorem records_liftM (outcome : Except QueryError α) :
    Records (liftM outcome) (liftM outcome : EngineM σ α) := by
  cases outcome with
  | ok a => exact records_pure a
  | error error => exact records_throw error

theorem records_ofCall (call : Script.Call) (answer : StateM σ (Except String α)) :
    Records (ofCall (Engine.recording call answer)) (ofCall answer) := by
  intro state calls
  rw [callsOf, runFrom_ofCall_recording, runFrom_ofCall_recording]
  rfl

/-- Work in sequence is recorded in sequence. -/
theorem Records.bind {recorded : EngineM (σ × List Script.Call) α} {work : EngineM σ α}
    {f : α → EngineM (σ × List Script.Call) β} {h : α → EngineM σ β}
    (first : Records recorded work) (rest : ∀ a, Records (f a) (h a)) :
    Records (recorded >>= f) (work >>= h) := by
  intro state calls
  have hcalls : callsOf (recorded >>= f) state = callsOf recorded state ++
      match work.runFrom state with
      | (.ok a, next) => callsOf (f a) next
      | (.error _, _) => [] := by
    rw [callsOf, runFrom_bind, first]
    rcases work.runFrom state with ⟨error | a, next⟩
    · simp
    · simp [rest a next]
  rw [hcalls, runFrom_bind, runFrom_bind, first]
  rcases work.runFrom state with ⟨error | a, next⟩
  · simp
  · simp [rest a next]

end EngineM

/-! ### The calls of statements -/

open EngineM

variable (engine : Engine σ) (state : σ)

theorem Count.callsOf_execute (c : Count) :
    callsOf (c.execute engine.recorded) state =
      [⟨.select, c.sql, c.graph.parameters.values⟩] := by
  refine callsOf_ofCall_bind _ _ (fun rows => ?_) state
  split
  next => exact isQuiet_pure _
  next => exact isQuiet_throw _

theorem Delete.callsOf_execute (d : Delete) :
    callsOf (d.execute engine.recorded) state =
      [⟨.delete, d.sql, d.graph.parameters.values⟩] := by
  refine callsOf_ofCall_bind _ _ (fun affected => ?_) state
  split
  next => exact isQuiet_throw _
  next => exact isQuiet_pure _

/-- A selection whose rows have no shape is not run. -/
theorem Select.callsOf_execute (s : Select) :
    callsOf (s.execute engine.recorded) state =
      if s.shape.isOk then [⟨.select, s.sql, s.graph.parameters.values⟩] else [] := by
  rw [Select.execute]
  cases s.shape with
  | error error => rfl
  | ok shape => exact callsOf_ofCall_bind _ _ (fun rows => isQuiet_pure _) state

/-- An update that assigns nothing is not run. -/
theorem Update.callsOf_execute (u : Update) :
    callsOf (u.execute engine.recorded) state =
      if u.assignments.isEmpty then [] else [⟨.update, u.sql, u.graph.parameters.values⟩] := by
  rw [Update.execute]
  split
  next => rfl
  next =>
    refine callsOf_ofCall_bind _ _ (fun affected => ?_) state
    split
    next => exact isQuiet_throw _
    next => exact isQuiet_pure _

/-- An insertion of no column is not run. -/
theorem Insert.callsOf_execute (i : Insert) :
    callsOf (i.execute engine.recorded) state =
      if i.columns.isEmpty then [] else [⟨.insert, i.sql, i.parameters.values⟩] := by
  rw [Insert.execute]
  split
  next => rfl
  next =>
    refine callsOf_ofCall_bind _ _ (fun id? => ?_) state
    split
    next => exact isQuiet_pure _
    next =>
      split
      next => exact isQuiet_pure _
      next => exact isQuiet_liftM _

/-! ### Statements on recorded engines -/

theorem Delete.records_execute (d : Delete) :
    Records (d.execute engine.recorded) (d.execute engine) := by
  refine (records_ofCall _ _).bind fun affected => ?_
  split
  next => exact records_throw _
  next => exact records_pure _

theorem Update.records_execute (u : Update) :
    Records (u.execute engine.recorded) (u.execute engine) := by
  rw [Update.execute, Update.execute]
  split
  next => exact records_pure _
  next =>
    refine (records_ofCall _ _).bind fun affected => ?_
    split
    next => exact records_throw _
    next => exact records_pure _

theorem Insert.records_execute (i : Insert) :
    Records (i.execute engine.recorded) (i.execute engine) := by
  rw [Insert.execute, Insert.execute]
  split
  next => exact records_pure _
  next =>
    refine (records_ofCall _ _).bind fun id? => ?_
    split
    next => exact records_pure _
    next =>
      split
      next => exact records_pure _
      next => exact records_liftM _

end EntityQuery
