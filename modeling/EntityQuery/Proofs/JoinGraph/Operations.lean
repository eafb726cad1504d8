import EntityQuery.Proofs.JoinGraph.Coherence

/-!
# Failed operations leave no trace

An operation that extends a graph has many checks to pass, and a failure at any
of them leaves the graph as it was (`GraphOperation.eq_of_error`). So where
operations fail now and then, the others find the same graphs, have the same
outcomes and end with the same graph as they would among themselves
(`history_kept`).
-/

namespace EntityQuery

/-- An operation that extends a graph. -/
inductive GraphOperation where
  | addTable (spec : TableSpec)
  | join (kind : JoinKind) (spec : JoinSpec)
  | filter (condition : Json) (values : Values)

namespace GraphOperation

/-- The operation on the graph under construction. -/
def action : GraphOperation → GraphM Unit
  | addTable spec => .addTable spec
  | join kind spec => .join kind spec
  | filter condition values => .filter condition values

/-- The graph that the operation leads to, if nothing is wrong. -/
def stage : GraphOperation → JoinGraph → Except QueryError JoinGraph
  | addTable spec, g => g.withTable spec
  | join kind spec, g => g.withJoin kind spec
  | filter condition values, g => g.withFilter condition values

theorem action_eq_commit (operation : GraphOperation) :
    operation.action = .commit operation.stage := by
  cases operation with
  | addTable spec => exact GraphM.addTable_eq_commit spec
  | join kind spec => exact GraphM.join_eq_commit kind spec
  | filter condition values => exact GraphM.filter_eq_commit condition values

/-- An operation that fails leaves the graph as it was, whatever was wrong. -/
theorem eq_of_error {operation : GraphOperation} {g : JoinGraph} {error : QueryError}
    (h : (operation.action.runOn g).1 = .error error) : (operation.action.runOn g).2 = g := by
  rw [action_eq_commit, GraphM.runOn_commit] at h ⊢
  cases hstage : operation.stage g with
  | ok g' => rw [hstage] at h; cases h
  | error error => rfl

end GraphOperation

/-- An operation that was performed, its outcome, and the graph after it. -/
structure PerformedOperation where
  operation : GraphOperation
  outcome : Except QueryError Unit
  graph : JoinGraph

namespace JoinGraph

/-- What operations do in turn, call by call. -/
def history (g : JoinGraph) : List GraphOperation → List PerformedOperation
  | [] => []
  | operation :: rest =>
      let (outcome, next) := operation.action.runOn g
      ⟨operation, outcome, next⟩ :: next.history rest

/-- The graph after operations in turn. -/
def afterOperations (g : JoinGraph) (operations : List GraphOperation) : JoinGraph :=
  operations.foldl (fun g operation => (operation.action.runOn g).2) g

/-- The performed operations that did not fail. -/
def succeeded (performed : List PerformedOperation) : List PerformedOperation :=
  performed.filter fun call => call.outcome.isOk

/-- The operations that do not fail when all of them are performed in turn. -/
def kept (g : JoinGraph) (operations : List GraphOperation) : List GraphOperation :=
  (succeeded (g.history operations)).map PerformedOperation.operation

section cons

variable {g : JoinGraph} {operation : GraphOperation} {rest : List GraphOperation}

theorem history_cons : g.history (operation :: rest) =
    ⟨operation, (operation.action.runOn g).1, (operation.action.runOn g).2⟩ ::
      (operation.action.runOn g).2.history rest := rfl

theorem succeeded_history_cons_of_ok (h : (operation.action.runOn g).1 = .ok ()) :
    succeeded (g.history (operation :: rest)) =
      ⟨operation, .ok (), (operation.action.runOn g).2⟩ ::
        succeeded ((operation.action.runOn g).2.history rest) := by
  rw [history_cons, h]
  rfl

theorem succeeded_history_cons_of_error {error : QueryError}
    (h : (operation.action.runOn g).1 = .error error) :
    succeeded (g.history (operation :: rest)) = succeeded (g.history rest) := by
  rw [history_cons, h, GraphOperation.eq_of_error h]
  rfl

end cons

/-- Without the operations that fail, all others have the same outcomes on the
same graphs, and the graph after them is the same. -/
theorem history_kept (g : JoinGraph) (operations : List GraphOperation) :
    g.history (g.kept operations) = succeeded (g.history operations) ∧
      g.afterOperations (g.kept operations) = g.afterOperations operations := by
  induction operations generalizing g with
  | nil => exact ⟨rfl, rfl⟩
  | cons operation rest ih =>
      cases houtcome : (operation.action.runOn g).1 with
      | ok result =>
          obtain ⟨hhistory, hafter⟩ := ih (operation.action.runOn g).2
          rw [kept, succeeded_history_cons_of_ok houtcome, List.map_cons, history_cons, houtcome]
          exact ⟨congrArg _ hhistory, hafter⟩
      | error error =>
          obtain ⟨hhistory, hafter⟩ := ih g
          have hstep : g.afterOperations (operation :: rest) = g.afterOperations rest := by
            rw [afterOperations, List.foldl_cons, GraphOperation.eq_of_error houtcome]
            rfl
          rw [kept, succeeded_history_cons_of_error houtcome, hstep]
          exact ⟨hhistory, hafter⟩

/-- A join and a condition on the rows, among operations that each have a fault of their own. -/
def phoneOperations : List GraphOperation :=
  let phone : JoinSpec := { entity := "Phone", «alias» := "p", parentProperty := "u.phones" }
  let isNo (property : String) : Json := .obj [("$eq", .obj [(property, .str ":no")])]
  let no (text : String) : Values := .single "no" (.str text)
  [.addTable { entity := "Phone", «alias» := "p q" },
    .addTable { entity := "Phone", «alias» := "u" },
    .addTable { entity := "Cat", «alias» := "c" },
    .addTable { entity := "Phone", «alias» := "p" },
    .join .inner { phone with parentProperty := "phones" },
    .join .inner { phone with parentProperty := "v.phones" },
    .join .inner { phone with parentProperty := "u.friends" },
    .join .inner { phone with condition := some (isNo "q.no"), values := no "1" },
    .join .inner phone,
    .join .inner { phone with «alias» := "q" },
    .filter (isNo "p.no") ∅,
    .filter (.obj [("$eq", .obj [])]) (no "2"),
    .filter (isNo "p.no") (no "3"),
    .join .inner
      ⟨"User", "v", "p.user", some (.obj [("$gt", .obj [("v.id", .str ":no")])]), no "4"⟩,
    .filter (isNo "p.no") (no "3")]

example : (start phoneBook .mysql "User" "u").map (fun g =>
      (g.history phoneOperations).map PerformedOperation.outcome) = .ok [
    .error (.invalidAlias "p q"), .error (.duplicateAlias "u"), .error (.unknownEntity "Cat"),
    .error (.parentRequired "p"), .error (.invalidParentProperty "phones"),
    .error (.missingParent "v"), .error (.unknownRelationship "User" "Phone" "friends"),
    .error (.columnNotAvailable "q.no"), .ok (), .error (.mappingNotUnique "u" "phones"),
    .error (.condition (.missingParameter "no")),
    .error (.condition (.malformed ⟨some (.mark .closeBrace), [.column]⟩)), .ok (),
    .error (.parameterConflict "no"), .error (.alreadyPerformed .filter)] := by
  decide +kernel

end JoinGraph

end EntityQuery
