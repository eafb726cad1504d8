import EntityQuery.Engine.Basic

/-!
# Scripted engines

A scripted engine answers from a script and remembers every call. It stands in
for a database where the statements themselves are of interest.
-/

namespace EntityQuery

/-- What a scripted engine answers. Answers are used in turn, and the last of
them again and again. -/
structure Script where
  /-- The rows of every selection. -/
  rows : List Row := []
  /-- The identifiers of inserted rows. -/
  insertIds : List Json := []
  /-- The row counts of updates and deletes, which share one turn. -/
  affected : List UInt64 := []
  /-- The failure of every call from the given one on, counted from zero. -/
  failure : Option (String × Nat) := none

namespace Script

/-- The kinds of calls. -/
inductive CallKind where
  | select
  | insert
  | update
  | delete
  deriving DecidableEq

/-- A call as it came in. -/
structure Call where
  kind : CallKind
  sql : String
  values : Dict Json

/-- The calls so far, latest first, and how many answers have been used. -/
structure State where
  calls : List Call := []
  inserts : Nat := 0
  mutations : Nat := 0

/-- The answer whose turn it is. -/
def turn {α : Type} (answers : List α) (index : Nat) : Option α :=
  (answers[index]?).or answers.getLast?

/-- Remember a call, and answer it unless it fails. -/
def answer {α : Type} (script : Script) (call : Call) (reply : StateM State α) :
    StateM State (Except String α) := do
  let index := (← get).calls.length
  modify fun state => { state with calls := call :: state.calls }
  match script.failure with
  | some (message, first) =>
      if first ≤ index then return .error message else return .ok (← reply)
  | none => return .ok (← reply)

/-- The row count whose turn it is. -/
def mutate (script : Script) : StateM State UInt64 :=
  modifyGet fun state =>
    ((turn script.affected state.mutations).getD 0,
      { state with mutations := state.mutations + 1 })

/-- The engine that answers from the script. -/
def engine (script : Script) : Engine State where
  select sql values := script.answer ⟨.select, sql, values⟩ (pure script.rows)
  insert sql values := script.answer ⟨.insert, sql, values⟩ <|
    modifyGet fun state =>
      (turn script.insertIds state.inserts, { state with inserts := state.inserts + 1 })
  update sql values := script.answer ⟨.update, sql, values⟩ script.mutate
  delete sql values := script.answer ⟨.delete, sql, values⟩ script.mutate

end Script

end EntityQuery
