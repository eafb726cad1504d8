import EntityQuery.JoinGraph.Sql
import EntityQuery.Proofs.Condition.Naming
import EntityQuery.Proofs.JoinGraph.Operations

/-!
# Placeholders of join graphs

Whatever a graph writes mentions only names with values, as long as the
placeholders of the conditions given to it are named in word characters
(`isClosed_after`). No other placeholder gets into its text: where a join gives
no condition, the keys of the relationship are equated, and those are columns.
-/

namespace EntityQuery

/-- The condition that a call gives. -/
def GraphCall.condition? : GraphCall → Option Json
  | addTable spec => spec.condition
  | join _ spec => spec.condition
  | filter condition _ => some condition
  | mint _ | addParameter _ _ _ | addParameters _ _ _ _ | mergeParameters _ _ _ _ => none

/-- The condition that an operation gives. -/
def GraphOperation.condition? : GraphOperation → Option Json
  | addTable spec => spec.condition
  | join _ spec => spec.condition
  | filter condition _ => some condition

/-! ### Conditions of relationships -/

namespace Relationship

variable {r : Relationship} {parent label : String} {condition : Condition}

/-- The condition on keys equates columns of the two tables. -/
theorem of_keyCondition (h : r.keyCondition parent label = .ok condition) :
    condition.isWellKinded = true ∧ ∀ value ∈ condition.leaves, ∃ property,
      value = .column (parent ++ "." ++ property) ∨
        value = .column (label ++ "." ++ property) := by
  obtain ⟨equalities, hequalities, h⟩ := bind_eq_ok.1 h
  have hall : ∀ equality ∈ equalities, ∃ owner target,
      equality = .comparison .eq (parent ++ "." ++ owner) (.column (label ++ "." ++ target)) := by
    intro equality hmem
    obtain ⟨pair, -, hpair⟩ := exists_of_mem_mapM hequalities hmem
    split at hpair
    next owner target => exact ⟨owner, target, (Except.ok.inj hpair).symm⟩
    next => cases hpair
  have hkinded : ∀ equality ∈ equalities, equality.isWellKinded = true := by
    intro equality hmem
    obtain ⟨owner, target, rfl⟩ := hall equality hmem
    rfl
  have hleaves : ∀ equality ∈ equalities, ∀ value ∈ equality.leaves, ∃ property,
      value = .column (parent ++ "." ++ property) ∨
        value = .column (label ++ "." ++ property) := by
    intro equality hmem value hvalue
    obtain ⟨owner, target, rfl⟩ := hall equality hmem
    rcases List.mem_pair.1 hvalue with rfl | rfl
    · exact ⟨owner, .inl rfl⟩
    · exact ⟨target, .inr rfl⟩
  split at h
  next => cases h
  next equality =>
    cases h
    exact ⟨hkinded _ List.mem_cons_self, hleaves _ List.mem_cons_self⟩
  next hne _ =>
    cases h
    constructor
    · rw [Condition.isWellKinded, Condition.areWellKinded_iff.2 hkinded, Bool.and_true,
        List.isEmpty_eq_false_iff.2 hne]
      rfl
    · intro value hvalue
      rw [Condition.leaves, Condition.leavesIn_eq_flatMap] at hvalue
      obtain ⟨equality, hmem, hvalue⟩ := List.mem_flatMap.1 hvalue
      exact hleaves equality hmem value hvalue

/-- The condition on keys has no placeholders. -/
theorem isNamed_keyCondition (hparent : Text.isName parent = true)
    (hlabel : Text.isName label = true) (h : r.keyCondition parent label = .ok condition) :
    Condition.IsNamed condition.toJson := by
  obtain ⟨hkinded, hleaves⟩ := of_keyCondition h
  refine Condition.isNamed_toJson hkinded (fun value hvalue => ?_) fun name hname => ?_
  · obtain ⟨property, rfl | rfl⟩ := hleaves value hvalue
    · exact Operand.isGenuine_column hparent property
    · exact Operand.isGenuine_column hlabel property
  · obtain ⟨property, h | h⟩ := hleaves _ hname
    · cases h
    · cases h

end Relationship

namespace JoinGraph

variable {g g' : JoinGraph} {d : Sql.Dialect}

/-- The tables of a graph are under names, and their conditions in SQL mention
only names with values. -/
structure IsClosed (g : JoinGraph) (d : Sql.Dialect) : Prop where
  dialect_eq : g.dialect = d
  isName_alias : ∀ t ∈ g.tables, Text.isName t.alias = true
  mentionsOnly : ∀ t ∈ g.tables, ∀ sql ∈ t.sql,
    Sql.MentionsOnly d (Sql.HasValue g.parameters.values) [.written sql]

/-! ### Calls -/

theorem isClosed_start {catalog : Catalog} {entity label : String}
    (h : start catalog d entity label = .ok g) : g.IsClosed d := by
  obtain ⟨_, hlabel, h⟩ := bind_eq_ok.1 h
  obtain ⟨table, -, h⟩ := bind_eq_ok.1 h
  obtain rfl := pure_eq_ok.1 h
  exact ⟨rfl, List.forall_mem_singleton.2 (isName_of_checkAlias hlabel),
    List.forall_mem_singleton.2 fun _ hsql => nomatch hsql⟩

/-- What has a value still has one when more is bound. -/
theorem mentionsOnly_of_growsTo {before after : Parameters} {tokens : List Sql.Token}
    (grows : before.GrowsTo after) (h : Sql.MentionsOnly d (Sql.HasValue before.values) tokens) :
    Sql.MentionsOnly d (Sql.HasValue after.values) tokens :=
  h.mono fun name hname => ⟨hname.1, grows name hname.2⟩

theorem IsClosed.withParameters (h : g.IsClosed d) {parameters : Parameters}
    (grows : g.parameters.GrowsTo parameters) :
    { g with parameters := parameters }.IsClosed d :=
  { h with mentionsOnly := fun t ht sql hsql =>
      mentionsOnly_of_growsTo grows (h.mentionsOnly t ht sql hsql) }

theorem IsClosed.withTable (h : g.IsClosed d) {spec : TableSpec}
    (named : ∀ condition ∈ spec.condition, Condition.IsNamed condition)
    (hg : g.withTable spec = .ok g') : g'.IsClosed d := by
  obtain ⟨table, link, restriction, hname, -, -, -, hrestriction, rfl⟩ := of_withTable hg
  obtain ⟨hgrows, -⟩ := Restriction.of_ofCondition? hrestriction
  obtain ⟨rfl, haliases, hmentions⟩ := h
  refine ⟨rfl, List.forall_mem_append.2 ⟨haliases, List.forall_mem_singleton.2 hname⟩, ?_⟩
  intro t ht sql hsql
  rcases List.mem_append.1 (show t ∈ g.tables ++ [_] from ht) with hold | hadded
  · exact mentionsOnly_of_growsTo hgrows (hmentions t hold sql hsql)
  · obtain rfl := List.mem_singleton.1 hadded
    exact Restriction.mentionsOnly? named hrestriction sql hsql

theorem IsClosed.withJoin (h : g.IsClosed d) {kind : JoinKind} {spec : JoinSpec}
    (named : ∀ condition ∈ spec.condition, Condition.IsNamed condition)
    (hg : g.withJoin kind spec = .ok g') : g'.IsClosed d := by
  obtain ⟨parent, property, condition, -, hcondition, hg⟩ := exists_withTable_of_withJoin hg
  refine h.withTable (fun other hother => ?_) hg
  obtain rfl := Option.some.inj hother
  cases hgiven : spec.condition with
  | some given =>
      rw [hgiven, Option.elim_some] at hcondition
      cases hcondition
      exact named _ hgiven
  | none =>
      rw [hgiven, Option.elim_none, keyCondition] at hcondition
      split at hcondition
      next => cases hcondition
      next owner howner =>
        obtain ⟨relationship, -, hcondition⟩ := bind_eq_ok.1 hcondition
        obtain ⟨keys, hkeys, hcondition⟩ := bind_eq_ok.1 hcondition
        obtain rfl := pure_eq_ok.1 hcondition
        obtain ⟨hmem, rfl⟩ := of_table? howner
        have hparent := h.isName_alias owner hmem
        obtain ⟨_, _, _, hlabel, -⟩ := of_withTable hg
        exact Relationship.isNamed_keyCondition hparent hlabel hkeys

theorem IsClosed.withFilter (h : g.IsClosed d) {condition : Json} {values : Values}
    (named : Condition.IsNamed condition) (hg : g.withFilter condition values = .ok g') :
    g'.IsClosed d := by
  rcases of_withFilter hg with ⟨-, rfl⟩ | ⟨-, restriction, hrestriction, rfl⟩
  · exact { h with }
  · obtain ⟨hgrows, -⟩ := Restriction.of_ofCondition hrestriction
    obtain ⟨rfl, haliases, hmentions⟩ := h
    refine ⟨rfl, List.forall_mem_cons.2 (List.forall_mem_cons.1 haliases),
      List.forall_mem_cons.2 ⟨?_, fun t ht sql hsql => ?_⟩⟩
    · exact Restriction.mentionsOnly named hrestriction
    · exact mentionsOnly_of_growsTo hgrows (hmentions t (List.mem_cons_of_mem _ ht) sql hsql)

/-- An operation whose condition has named placeholders keeps a graph closed. -/
theorem IsClosed.stage (h : g.IsClosed d) {operation : GraphOperation}
    (named : ∀ condition ∈ operation.condition?, Condition.IsNamed condition)
    (hg : operation.stage g = .ok g') : g'.IsClosed d := by
  cases operation with
  | addTable spec => exact h.withTable named hg
  | join kind spec => exact h.withJoin named hg
  | filter condition values => exact h.withFilter (named condition rfl) hg

theorem IsClosed.commit (h : g.IsClosed d) {stage : JoinGraph → Except QueryError JoinGraph}
    (kept : ∀ g', stage g = .ok g' → g'.IsClosed d) :
    ((GraphM.commit stage).runOn g).2.IsClosed d :=
  GraphM.of_commit (P := (·.IsClosed d)) h kept

/-- A call whose condition has named placeholders keeps a graph closed, whether
or not it succeeds. -/
theorem IsClosed.perform (h : g.IsClosed d) {call : GraphCall}
    (named : ∀ condition ∈ call.condition?, Condition.IsNamed condition) :
    (g.perform call).IsClosed d := by
  cases call with
  | addTable spec =>
      rw [JoinGraph.perform, GraphM.addTable_eq_commit]
      exact h.commit fun _ hg => h.withTable named hg
  | join kind spec =>
      rw [JoinGraph.perform, GraphM.join_eq_commit]
      exact h.commit fun _ hg => h.withJoin named hg
  | filter condition values =>
      rw [JoinGraph.perform, GraphM.filter_eq_commit]
      exact h.commit fun _ hg => h.withFilter (named condition rfl) hg
  | mint base => exact h.withParameters (Parameters.growsTo_mint _ base)
  | addParameter overwrite name value =>
      rw [JoinGraph.perform, GraphM.addParameter_eq_commit]
      refine h.commit fun g' hg => ?_
      obtain ⟨parameters, hadd, hg⟩ := bind_eq_ok.1 hg
      obtain rfl := pure_eq_ok.1 hg
      exact h.withParameters (Parameters.growsTo_add hadd)
  | addParameters overwrite values order =>
      exact h.withParameters (Parameters.growsTo_addAll _ overwrite order)
  | mergeParameters overwrite other order =>
      exact h.withParameters (Parameters.growsTo_addAll _ overwrite order)

/-- A graph is closed after any calls whose conditions have named placeholders. -/
theorem isClosed_after {catalog : Catalog} {entity label : String}
    (h : start catalog d entity label = .ok g) {calls : List GraphCall}
    (named : ∀ call ∈ calls, ∀ condition ∈ call.condition?, Condition.IsNamed condition) :
    (g.after calls).IsClosed d := by
  have hstart := isClosed_start h
  clear h
  induction calls generalizing g with
  | nil => exact hstart
  | cons call calls ih =>
      obtain ⟨hcall, hcalls⟩ := List.forall_mem_cons.1 named
      exact ih hcalls (hstart.perform hcall)

/-! ### Lines -/

section Lines

variable {P : String → Prop} {t : GraphTable}

theorem mentionsOnly_tableTokens (t : GraphTable) : Sql.MentionsOnly d P t.sqlTokens :=
  Sql.mentionsOnly_fixedWords rfl

/-- A line mentions what the condition at its end mentions. -/
theorem mentionsOnly_joinLine (h : ∀ sql ∈ t.sql, Sql.MentionsOnly d P [.written sql]) :
    Sql.MentionsOnly d P t.joinLine := by
  have hkind : ∀ kind : JoinKind, kind.sqlTokens.all Sql.Token.isKeyword = true := by
    rintro (_ | _ | _) <;> rfl
  have htable : Sql.MentionsOnly d P
      (((t.link.bind Link.kind).getD .inner).sqlTokens ++ .space :: t.sqlTokens) :=
    Sql.mentionsOnly_keywords (hkind _)
      (Sql.mentionsOnly_keyword .space (mentionsOnly_tableTokens t))
  rw [GraphTable.joinLine]
  cases hsql : t.sql with
  | none => exact (List.append_nil _).symm ▸ htable
  | some sql =>
      exact Sql.mentionsOnly_append_break rfl htable (Sql.mentionsOnly_clause .on (h sql hsql))

variable (h : ∀ t ∈ g.tables, ∀ sql ∈ t.sql, Sql.MentionsOnly d P [.written sql])

include h

theorem mentionsOnly_joinLines : ∀ line ∈ g.joinLines, Sql.MentionsOnly d P line := by
  refine List.forall_mem_map.2 fun t ht => mentionsOnly_joinLine ?_
  exact h t (List.mem_cons_of_mem _ ht)

theorem mentionsOnly_whereLine : ∀ line ∈ g.whereLine?.toList, Sql.MentionsOnly d P line := by
  intro line hline
  obtain ⟨sql, hsql, rfl⟩ := Option.map_eq_some_iff.1 (Option.mem_toList.1 hline)
  exact Sql.mentionsOnly_clause .where_ (h g.base List.mem_cons_self sql hsql)

theorem mentionsOnly_lines : ∀ line ∈ g.lines, Sql.MentionsOnly d P line := by
  refine List.forall_mem_append.2 ⟨List.forall_mem_cons.2 ⟨?_, mentionsOnly_joinLines h⟩,
    mentionsOnly_whereLine h⟩
  exact Sql.mentionsOnly_clause .from_ (mentionsOnly_tableTokens g.base)

theorem mentionsOnly_sqlTokens : Sql.MentionsOnly d P g.sqlTokens :=
  Sql.mentionsOnly_stack (mentionsOnly_lines h)

/-- The condition that keys are among those of the rows mentions what the graph mentions. -/
theorem mentionsOnly_keySubquery (target : GraphTable) :
    Sql.MentionsOnly d P (g.keySubquery target) := by
  have hcolumns : Sql.MentionsOnly d P (Sql.commaSeparated
      (target.keyColumns.map fun c => [Sql.Token.column c.reference])) :=
    Sql.mentionsOnly_commaSeparated
      (List.forall_mem_map.2 fun c _ => Sql.mentionsOnly_column c.reference)
  have hkeys : Sql.MentionsOnly d P (keyTokens target.keyColumns) := by
    rw [keyTokens]
    split
    next => exact Sql.mentionsOnly_parenthesized hcolumns
    next => exact hcolumns
  have hrows : Sql.MentionsOnly d P (.keyword .select :: .space :: Sql.commaSeparated
      (target.keyColumns.map fun c => [Sql.Token.column c.reference]) ++
        .keyword .newline :: g.sqlTokens) :=
    Sql.mentionsOnly_append_break rfl (Sql.mentionsOnly_clause .select hcolumns)
      (mentionsOnly_sqlTokens h)
  exact Sql.mentionsOnly_append_break rfl (Sql.mentionsOnly_clause .where_ hkeys)
    (Sql.mentionsOnly_clause .in_ (Sql.mentionsOnly_parenthesized hrows))

end Lines

end JoinGraph

end EntityQuery
