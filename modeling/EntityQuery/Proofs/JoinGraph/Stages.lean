import EntityQuery.JoinGraph.Build

/-!
# Operations in place and on the side

An operation on a graph reads it, checks, and assigns fields one after the other. What it comes
to can be said without assignments: a graph is extended on the side (`withTable`, `withJoin`,
`withFilter`), and the outcome of that stage is taken over if nothing was wrong (`commit`).

The two are equal (`addTable_eq_commit`, `join_eq_commit`, `filter_eq_commit`), because no
check follows an assignment: to read the graph and to check leaves it as it was
(`ComesTo.read`, `ComesTo.check`), and to assign never fails.
-/

namespace EntityQuery

namespace JoinGraph

/-- The graph with one more table. -/
def withTable (g : JoinGraph) (spec : TableSpec) : Except QueryError JoinGraph := do
  checkAlias spec.alias
  if (g.table? spec.alias).isSome then throw (.duplicateAlias spec.alias)
  let table ← g.catalog.table spec.entity
  let link ← g.linkOf spec
  let added : GraphTable :=
    { table, «alias» := spec.alias, link := some link, condition := spec.condition }
  let lookup := extendLookup g.lookup added.columns
  let restriction ←
    Restriction.ofCondition? g.dialect lookup g.parameters spec.condition spec.values
  return { g with
    joined := g.joined ++ [{ added with sql := restriction.sql }]
    columns := g.columns ++ added.columns
    lookup
    mappings := (link.parent, link.relationship.property) :: g.mappings
    parameters := restriction.parameters }

/-- The graph with one more table, joined through a property of its parent. -/
def withJoin (g : JoinGraph) (kind : JoinKind) (spec : JoinSpec) :
    Except QueryError JoinGraph :=
  match Sql.splitQualified spec.parentProperty with
  | none => .error (.invalidParentProperty spec.parentProperty)
  | some (parent, property) => do
      let condition ←
        match spec.condition with
        | some condition => pure condition
        | none => g.keyCondition spec parent property
      g.withTable {
        entity := spec.entity
        «alias» := spec.alias
        parent := some parent
        relationship := some property
        kind := some kind
        condition := some condition
        values := spec.values }

/-- The graph with a condition on its rows. -/
def withFilter (g : JoinGraph) (condition : Json) (values : Values) :
    Except QueryError JoinGraph :=
  if g.filtered then .error (.alreadyPerformed .filter)
  else if Condition.isBlank condition then .ok { g with filtered := true }
  else do
    let restriction ←
      Restriction.ofCondition g.dialect g.lookup g.parameters condition values
    return { g with
      base := { g.base with condition := some condition, sql := restriction.sql }
      parameters := restriction.parameters
      filtered := true }

end JoinGraph

namespace GraphM

/-- Take over the outcome of a stage, if nothing was wrong with it. -/
def commit (stage : JoinGraph → Except QueryError JoinGraph) : GraphM Unit := do
  match stage (← get) with
  | .ok g => set g
  | .error error => throw error

/-- An operation that leads from a graph to another and succeeds, or leaves it as it was and
fails. -/
def ComesTo (action : GraphM Unit) (g : JoinGraph) (outcome : Except QueryError JoinGraph) : Prop :=
  action.runOn g =
    match outcome with
    | .ok g' => (.ok (), g')
    | .error error => (.error error, g)

variable {α : Type} {g g' : JoinGraph}

theorem comesTo_commit (stage : JoinGraph → Except QueryError JoinGraph) (g : JoinGraph) :
    (commit stage).ComesTo g (stage g) := by
  change runOn (match stage g with | .ok g' => set g' | .error error => throw error) g = _
  cases stage g with
  | ok g' => rfl
  | error error => rfl

/-- The outcome of a stage is taken over; where it failed, the graph stays. -/
theorem runOn_commit (stage : JoinGraph → Except QueryError JoinGraph) (g : JoinGraph) :
    (commit stage).runOn g =
      match stage g with
      | .ok g' => (.ok (), g')
      | .error error => (.error error, g) :=
  comesTo_commit stage g

theorem eq_commit {action : GraphM Unit} {stage : JoinGraph → Except QueryError JoinGraph}
    (h : ∀ g, action.ComesTo g (stage g)) : action = commit stage := by
  refine funext fun g => ?_
  exact (h g).trans (comesTo_commit stage g).symm

theorem eq_or_of_commit (stage : JoinGraph → Except QueryError JoinGraph) (g : JoinGraph) :
    stage g = .ok ((commit stage).runOn g).2 ∨ ((commit stage).runOn g).2 = g := by
  rw [runOn_commit]
  cases stage g with
  | ok g' => exact .inl rfl
  | error error => exact .inr rfl

/-- What holds of a graph, and of what a stage makes of it, holds after either outcome. -/
theorem of_commit {P : JoinGraph → Prop} {stage : JoinGraph → Except QueryError JoinGraph}
    (before : P g) (after : ∀ g', stage g = .ok g' → P g') : P ((commit stage).runOn g).2 := by
  rcases eq_or_of_commit stage g with hstage | hsame
  · exact after _ hstage
  · rwa [hsame]

/-! ### Checks before assignments -/

namespace ComesTo

variable {action other : GraphM Unit} {outcome result : Except QueryError JoinGraph}

/-- To read leaves the graph as it was. -/
theorem read {next : JoinGraph → GraphM Unit} (h : (next g).ComesTo g outcome) :
    (get >>= next).ComesTo g outcome := h

/-- So does a check, whether or not it fails. -/
theorem check {found : Except QueryError α} {next : α → GraphM Unit}
    {stage : α → Except QueryError JoinGraph} (h : ∀ a, (next a).ComesTo g (stage a)) :
    (liftM found >>= next).ComesTo g (found >>= stage) := by
  cases found with
  | ok a => exact h a
  | error error => rfl

theorem ite {p : Prop} [Decidable p] (h : p → action.ComesTo g outcome)
    (h' : ¬p → other.ComesTo g result) :
    (if p then action else other).ComesTo g (if p then outcome else result) := by
  split
  next hp => exact h hp
  next hp => exact h' hp

/-- The graph that an operation led to, unless it failed. -/
theorem bind_eq (h : action.ComesTo g outcome) :
    ((action.runOn g).1 >>= fun _ => pure (action.runOn g).2) = outcome := by
  rw [h]
  cases outcome <;> rfl

/-- Nothing follows a refusal. -/
theorem refused {error : QueryError} {next : Unit → GraphM Unit}
    {stage : Unit → Except QueryError JoinGraph} :
    (throw error >>= next).ComesTo g (throw error >>= stage) := rfl

end ComesTo

/-- A table is added once all checks are passed. -/
theorem addTable_comesTo (spec : TableSpec) (g : JoinGraph) :
    (addTable spec).ComesTo g (g.withTable spec) := by
  refine .check fun _ => .read (.ite (fun _ => .refused) fun _ => .read ?_)
  refine .check fun table => .read (.check fun link => .read (.read (.read ?_)))
  -- the last check; only assignments are left, and these do not fail
  exact .check fun restriction => rfl

theorem join_comesTo (kind : JoinKind) (spec : JoinSpec) (g : JoinGraph) :
    (join kind spec).ComesTo g (g.withJoin kind spec) := by
  unfold join JoinGraph.withJoin
  rcases Sql.splitQualified spec.parentProperty with _ | ⟨parent, property⟩
  · rfl
  · cases spec.condition with
    | some condition => exact addTable_comesTo _ g
    | none => exact .read (.check fun condition => addTable_comesTo _ g)

theorem filter_comesTo (condition : Json) (values : Values) (g : JoinGraph) :
    (filter condition values).ComesTo g (g.withFilter condition values) := by
  unfold filter JoinGraph.withFilter
  refine .read (.ite (fun _ => rfl) fun _ => .ite (fun _ => rfl) fun _ => ?_)
  exact .read (.read (.read (.check fun restriction => rfl)))

/-- The operations take over the outcome of a stage, in place. -/
theorem addTable_eq_commit (spec : TableSpec) : addTable spec = commit (·.withTable spec) :=
  eq_commit (addTable_comesTo spec)

theorem join_eq_commit (kind : JoinKind) (spec : JoinSpec) :
    join kind spec = commit (·.withJoin kind spec) :=
  eq_commit (join_comesTo kind spec)

theorem filter_eq_commit (condition : Json) (values : Values) :
    filter condition values = commit (·.withFilter condition values) :=
  eq_commit (filter_comesTo condition values)

theorem addParameter_eq_commit (overwrite : Bool) (name : String) (value : Json) :
    addParameter overwrite name value =
      commit fun g => return { g with parameters := ← g.parameters.add overwrite name value } :=
  eq_commit fun _ => .read (.check fun _ => rfl)

end GraphM

end EntityQuery
