import EntityQuery.Model

/-!
# Engines

Statements are run by an engine: SQL text and the values of its placeholders
go in, rows or counts come out. An engine is a machine whose state each call
may change, also a call that fails; what it does with connections and
transactions is its own affair.
-/

namespace EntityQuery

/-- A database engine with states in `σ`. A failure is told in words. -/
structure Engine (σ : Type) where
  select : String → Dict Json → StateM σ (Except String (List Row))
  /-- The identifier that the database made for the row, if it made one. -/
  insert : String → Dict Json → StateM σ (Except String (Option Json))
  /-- The number of rows that were changed. -/
  update : String → Dict Json → StateM σ (Except String UInt64)
  /-- The number of rows that were removed. -/
  delete : String → Dict Json → StateM σ (Except String UInt64)

/-- Work that calls an engine. The engine's state is there afterwards in any case. -/
abbrev EngineM (σ : Type) (α : Type) := ExceptT QueryError (StateM σ) α

/-- The outcome of a call, a failure being passed on in its own words. -/
def EngineM.ofCall {σ α : Type} (call : StateM σ (Except String α)) : EngineM σ α :=
  ExceptT.mk do
    match ← call with
    | .ok a => return .ok a
    | .error message => return .error (.engine message)

/-- Run work from a state. -/
def EngineM.runFrom {σ α : Type} (work : EngineM σ α) (state : σ) : Except QueryError α × σ :=
  work.run.run state

end EntityQuery
