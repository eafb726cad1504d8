import EntityQuery.JoinGraph.Sql
import EntityQuery.Proofs.JoinGraph.Growth

/-!
# Operations in either order

Two operations that each succeed on a graph see nothing of each other: the second of
them succeeds after the first exactly if the first succeeds after the second, and the
graph is then the same but for the order of the tables that they add
(`operations_commute`).

Each operation makes the same addition before and after the other one. Whether both
additions fit is symmetric in them (`Addition.Compatible`), and additions that are
compatible are made to the same effect in either order (`Addition.agreesUpToOrder`).
-/

namespace EntityQuery

namespace JoinGraph

variable {g : JoinGraph}

/-- Two graphs that have come out of one by two operations in either order, which add
some tables and some more: they differ in the order of these at most. -/
structure AgreesUpToOrder (g : JoinGraph) (added more : List GraphTable) (g' g'' : JoinGraph) :
    Prop where
  catalog_eq : g'.catalog = g''.catalog
  dialect_eq : g'.dialect = g''.dialect
  base_eq : g'.base = g''.base
  joined_eq : g'.joined = g.joined ++ added ++ more ∧ g''.joined = g.joined ++ more ++ added
  table?_eq : ∀ label, g'.table? label = g''.table? label
  columns_eq :
    g'.columns = g.columns ++ added.flatMap GraphTable.columns ++
      more.flatMap GraphTable.columns ∧
    g''.columns = g.columns ++ more.flatMap GraphTable.columns ++
      added.flatMap GraphTable.columns
  lookup_eq : g'.lookup = g''.lookup
  mappings_perm : g'.mappings.Perm g''.mappings
  parameters_eq : g'.parameters = g''.parameters
  filtered_eq : g'.filtered = g''.filtered

namespace Addition

variable {a b : Addition}

/-- Whether additions leave room for each other. -/
def Compatible : Addition → Addition → Prop
  | table added link values, table other link' values' =>
      added.alias ≠ other.alias ∧ linkPair link ≠ linkPair link' ∧ values.Agrees values'
  | table _ _ values, rows _ values' => values.Agrees values'
  | rows _ values, table _ _ values' => values.Agrees values'
  | rows _ _, rows _ _ => False

theorem compatible_comm : a.Compatible b ↔ b.Compatible a := by
  cases a with
  | table added link values =>
      cases b with
      | table other link' values' =>
          rw [Compatible, Compatible, ne_comm, Dict.agrees_comm, ne_comm (a := linkPair link)]
      | rows condition? values' => exact Dict.agrees_comm
  | rows condition? values =>
      cases b with
      | table other link' values' => exact Dict.agrees_comm
      | rows condition?' values' => exact Iff.rfl

/-- An addition that fits still fits after another one if both are compatible. -/
theorem fits_apply_iff (ha : a.Fits g) (hb : b.Fits g) : b.Fits (a.apply g) ↔ a.Compatible b := by
  cases a with
  | table added link values =>
      cases b with
      | table other link' values' =>
          obtain ⟨named, fresh, hpair, agrees⟩ := hb
          -- nothing of the graph is in the way, so only what has just been added can be
          have htable : ((table added link values).apply g).table? other.alias = none ↔
              added.alias ≠ other.alias := by
            rw [table?_apply_table, fresh, Option.none_or]
            simp
          have hmapping : linkPair link' ∉ ((table added link values).apply g).mappings ↔
              linkPair link ≠ linkPair link' := by
            have hmappings : ((table added link values).apply g).mappings =
                linkPair link :: g.mappings := rfl
            rw [hmappings, List.mem_cons, not_or, and_iff_left hpair, ne_comm]
          exact (and_iff_right named).trans (and_congr htable
            (and_congr hmapping (Parameters.agrees_bind_iff agrees)))
      | rows condition? values' =>
          exact (and_iff_right hb.1).trans (Parameters.agrees_bind_iff hb.2)
  | rows condition? values =>
      cases b with
      | table other link' values' =>
          obtain ⟨named, fresh, hpair, agrees⟩ := hb
          have htable : ((rows condition? values).apply g).table? other.alias = none := by
            have hbase : g.base.alias ≠ other.alias :=
              table?_eq_none_iff.1 fresh g.base List.mem_cons_self
            rw [table?_apply_rows, if_neg hbase, fresh]
          exact (and_iff_right named).trans ((and_iff_right htable).trans
            ((and_iff_right hpair).trans (Parameters.agrees_bind_iff agrees)))
      | rows condition?' values' =>
          exact ⟨fun h => Bool.false_ne_true h.1.symm, False.elim⟩

theorem joined_apply (a : Addition) (g : JoinGraph) :
    (a.apply g).joined = g.joined ++ a.tables := by
  cases a with
  | table added link values => rfl
  | rows condition? values => exact (List.append_nil g.joined).symm

theorem columns_apply (a : Addition) (g : JoinGraph) :
    (a.apply g).columns = g.columns ++ a.tables.flatMap GraphTable.columns := by
  cases a with
  | table added link values => rw [tables, List.flatMap_singleton]; rfl
  | rows condition? values => exact (List.append_nil g.columns).symm

/-- A condition on the rows and a table are added to the same effect in either order. -/
theorem apply_comm_rows {added : GraphTable} {link : Link} {values values' : Dict Json}
    (condition? : Option (Json × Option String)) (h : values.Agrees values') :
    (rows condition? values').apply ((table added link values).apply g) =
      (table added link values).apply ((rows condition? values').apply g) := by
  let result (parameters : Parameters) : JoinGraph :=
    { (rows condition? values').apply ((table added link values).apply g) with
      parameters := parameters }
  exact congrArg result (Parameters.bind_bind_comm g.parameters h)

theorem apply_comm (h : a.Compatible b) (hrows : a.tables = [] ∨ b.tables = []) :
    b.apply (a.apply g) = a.apply (b.apply g) := by
  cases a with
  | table added link values =>
      cases b with
      | table other link' values' => simp [tables] at hrows
      | rows condition? values' => exact apply_comm_rows condition? h
  | rows condition? values =>
      cases b with
      | table other link' values' => exact (apply_comm_rows condition? (Dict.agrees_comm.1 h)).symm
      | rows condition?' values' => exact h.elim

section Tables

variable {added other : GraphTable} {link link' : Link} {values values' : Dict Json}

theorem table?_comm (hne : added.alias ≠ other.alias) (label : String) :
    ((table other link' values').apply ((table added link values).apply g)).table? label =
      ((table added link values).apply ((table other link' values').apply g)).table? label := by
  simp only [table?_apply_table, Option.or_assoc]
  congr 1
  by_cases hadded : added.alias = label
  · rw [if_pos hadded, if_neg fun hother => hne (hadded.trans hother.symm), Option.or_none,
      Option.none_or]
  · rw [if_neg hadded, Option.none_or, Option.or_none]

theorem lookup_comm (named : Text.isName added.alias = true)
    (named' : Text.isName other.alias = true) (hne : added.alias ≠ other.alias) :
    ((table other link' values').apply ((table added link values).apply g)).lookup =
      ((table added link values).apply ((table other link' values').apply g)).lookup := by
  apply Dict.ext_get?
  intro key
  calc
    (extendLookup (extendLookup g.lookup added.columns) other.columns).get? key
        = (other.lookup.get? key).or ((added.lookup.get? key).or (g.lookup.get? key)) := by
          rw [get?_extendLookup, get?_extendLookup]
    _ = (added.lookup.get? key).or ((other.lookup.get? key).or (g.lookup.get? key)) := by
          -- under different aliases no property is of both tables
          rcases GraphTable.get?_eq_none_or named named' hne key with hnone | hnone
          · rw [hnone, Option.none_or, Option.none_or]
          · rw [hnone, Option.none_or, Option.none_or]
    _ = (extendLookup (extendLookup g.lookup other.columns) added.columns).get? key := by
          rw [get?_extendLookup, get?_extendLookup]

end Tables

/-- Compatible additions are made to the same effect in either order, but for the order of
their tables. -/
theorem agreesUpToOrder (ha : a.Fits g) (hb : b.Fits g) (h : a.Compatible b) :
    g.AgreesUpToOrder a.tables b.tables (b.apply (a.apply g)) (a.apply (b.apply g)) := by
  have hjoined : (b.apply (a.apply g)).joined = g.joined ++ a.tables ++ b.tables ∧
      (a.apply (b.apply g)).joined = g.joined ++ b.tables ++ a.tables := by
    simp only [joined_apply, and_self]
  have hcolumns : (b.apply (a.apply g)).columns = g.columns ++
        a.tables.flatMap GraphTable.columns ++ b.tables.flatMap GraphTable.columns ∧
      (a.apply (b.apply g)).columns = g.columns ++ b.tables.flatMap GraphTable.columns ++
        a.tables.flatMap GraphTable.columns := by
    simp only [columns_apply, and_self]
  by_cases hrows : a.tables = [] ∨ b.tables = []
  · have hcomm : b.apply (a.apply g) = a.apply (b.apply g) := apply_comm h hrows
    constructor
    case joined_eq => exact hjoined
    case columns_eq => exact hcolumns
    case table?_eq => exact fun label => by rw [hcomm]
    case mappings_perm => rw [hcomm]
    all_goals rw [hcomm]
  · cases a with
    | rows condition? values => exact absurd (.inl rfl) hrows
    | table added link values =>
        cases b with
        | rows condition? values' => exact absurd (.inr rfl) hrows
        | table other link' values' =>
            -- two tables: their order shows in the lists of tables and columns alone
            obtain ⟨hne, -, hagrees⟩ := h
            constructor
            case joined_eq => exact hjoined
            case columns_eq => exact hcolumns
            case table?_eq => exact table?_comm hne
            case lookup_eq => exact lookup_comm ha.1 hb.1 hne
            case mappings_perm => exact List.Perm.swap _ _ _
            case parameters_eq => exact Parameters.bind_bind_comm g.parameters hagrees
            all_goals rfl

end Addition

/-- An operation after another one: it succeeds exactly where its addition fits. -/
theorem runOn_of_isMadeBy {a : Addition} {operation : GraphOperation} {g' : JoinGraph}
    (made : a.IsMadeBy operation.stage g) (grown : g.GrowsInto g') :
    ((operation.action.runOn g').1 = .ok () ↔ a.Fits g') ∧
      ((operation.action.runOn g').1 = .ok () → (operation.action.runOn g').2 = a.apply g') := by
  rw [operation.action_eq_commit, GraphM.runOn_commit]
  cases hstage : operation.stage g' with
  | ok g'' =>
      obtain ⟨hfits, rfl⟩ := (made g' grown g'').1 hstage
      exact ⟨iff_of_true rfl hfits, fun _ => rfl⟩
  | error error =>
      have hunfit : ¬ a.Fits g' := fun hfits => by
        rw [(made g' grown _).2 ⟨hfits, rfl⟩] at hstage
        cases hstage
      have hfailed : (Except.error error : Except QueryError Unit) ≠ .ok () := nofun
      exact ⟨iff_of_false hfailed hunfit, fun hok => absurd hok hfailed⟩

/-- What an operation that succeeds adds to a coherent graph. -/
theorem exists_addition_of_runOn {operation : GraphOperation}
    (h : (operation.action.runOn g).1 = .ok ()) :
    ∃ a : Addition, a.IsMadeBy operation.stage g ∧ a.Fits g ∧
      (operation.action.runOn g).2 = a.apply g ∧ (operation.isFilter = true → a.tables = []) := by
  cases hstage : operation.stage g with
  | ok gx =>
      obtain ⟨a, made, hfilter⟩ := Addition.exists_isMadeBy_stage hstage
      obtain ⟨hfits, happly⟩ := runOn_of_isMadeBy made (.refl g)
      exact ⟨a, made, hfits.1 h, happly h, hfilter⟩
  | error error =>
      rw [operation.action_eq_commit, GraphM.runOn_commit, hstage] at h
      cases h

/-- Of two operations that each succeed on a graph, both succeed in one order exactly if they
do in the other. The graph is then the same but for the order of the tables that they add,
and if one of them gives the condition on the rows, it is the same altogether. -/
theorem operations_commute {catalog : Catalog} {dialect : Sql.Dialect} {entity label : String}
    (h : start catalog dialect entity label = .ok g) (calls : List GraphCall)
    (x y : GraphOperation) (hx : (x.action.runOn (g.after calls)).1 = .ok ())
    (hy : (y.action.runOn (g.after calls)).1 = .ok ()) :
    let xThenY := y.action.runOn (x.action.runOn (g.after calls)).2
    let yThenX := x.action.runOn (y.action.runOn (g.after calls)).2
    (xThenY.1 = .ok () ↔ yThenX.1 = .ok ()) ∧
      (xThenY.1 = .ok () → ∃ added more,
        (x.action.runOn (g.after calls)).2.joined = (g.after calls).joined ++ added ∧
        (y.action.runOn (g.after calls)).2.joined = (g.after calls).joined ++ more ∧
        (g.after calls).AgreesUpToOrder added more xThenY.2 yThenX.2 ∧
        (x.isFilter = true ∨ y.isFilter = true →
          xThenY.2 = yThenX.2 ∧ xThenY.2.sql = yThenX.2.sql)) := by
  have hcoherent := (isCoherent_start h).after calls
  generalize g.after calls = reached at hcoherent hx hy
  obtain ⟨a, madeA, fitsA, hafterX, hfilterX⟩ := exists_addition_of_runOn hx
  obtain ⟨b, madeB, fitsB, hafterY, hfilterY⟩ := exists_addition_of_runOn hy
  rw [hafterX, hafterY]
  -- after the other operation each makes the same addition, if it still fits
  obtain ⟨hxy, hresult⟩ := runOn_of_isMadeBy madeB (Addition.growsInto_apply hcoherent fitsA)
  obtain ⟨hyx, hresult'⟩ := runOn_of_isMadeBy madeA (Addition.growsInto_apply hcoherent fitsB)
  rw [Addition.fits_apply_iff fitsA fitsB] at hxy
  rw [Addition.fits_apply_iff fitsB fitsA, Addition.compatible_comm] at hyx
  refine ⟨hxy.trans hyx.symm, fun hok => ?_⟩
  have hcompatible := hxy.1 hok
  rw [hresult hok, hresult' (hyx.2 hcompatible)]
  refine ⟨a.tables, b.tables, Addition.joined_apply a reached, Addition.joined_apply b reached,
    Addition.agreesUpToOrder fitsA fitsB hcompatible, fun hfilter => ?_⟩
  have hcomm : b.apply (a.apply reached) = a.apply (b.apply reached) :=
    Addition.apply_comm hcompatible (hfilter.imp hfilterX hfilterY)
  exact ⟨hcomm, congrArg sql hcomm⟩

/-- A join of the phone with a given number. -/
def joinPhone (no : String) : GraphOperation :=
  .join .inner ⟨"Phone", "p", "u.phones", some (.obj [("$eq", .obj [("p.no", .str ":no")])]),
    .single "no" (.str no)⟩

/-- A condition on the user, which names its parameter as `joinPhone` does. -/
def filterUser (no : String) : GraphOperation :=
  .filter (.obj [("$neq", .obj [("u.id", .str ":no")])]) (.single "no" (.str no))

theorem operations_commute_phoneBook :
    ∃ g, start phoneBook .mysql "User" "u" = .ok g ∧
      let joined := ((joinPhone "1").action.runOn g).2
      let filtered := ((filterUser "1").action.runOn g).2
      ((joinPhone "1").action.runOn filtered).1 = .ok () ∧
        ((filterUser "1").action.runOn joined).2 = ((joinPhone "1").action.runOn filtered).2 ∧
        ((filterUser "1").action.runOn joined).2.tables.map (fun t => (t.alias, t.sql)) =
          [("u", some "`u`.`user_id` <> :no"), ("p", some "`p`.`no` = :no")] ∧
        ((filterUser "2").action.runOn joined).1 ≠ .ok () := by
  have hname : checkAlias "u" = .ok () := if_pos (by decide +kernel)
  obtain ⟨g, hg, hjoin, hfilter, hother, hboth, htables, hconflict⟩ :
      ∃ g, start phoneBook .mysql "User" "u" = .ok g ∧
        ((joinPhone "1").action.runOn g).1 = .ok () ∧
        ((filterUser "1").action.runOn g).1 = .ok () ∧
        ((filterUser "2").action.runOn g).1 = .ok () ∧
        ((filterUser "1").action.runOn ((joinPhone "1").action.runOn g).2).1 = .ok () ∧
        ((filterUser "1").action.runOn ((joinPhone "1").action.runOn g).2).2.tables.map
            (fun t => (t.alias, t.sql)) =
          [("u", some "`u`.`user_id` <> :no"), ("p", some "`p`.`no` = :no")] ∧
        ((joinPhone "1").action.runOn ((filterUser "2").action.runOn g).2).1 ≠ .ok () := by
    rw [start, hname]
    refine ⟨_, rfl, ?_, ?_, ?_, ?_, ?_, ?_⟩ <;> decide +kernel
  obtain ⟨horders, hagree⟩ :=
    operations_commute hg [] (joinPhone "1") (filterUser "1") hjoin hfilter
  obtain ⟨-, -, -, -, -, hsame⟩ := hagree hboth
  have hunequal := operations_commute hg [] (joinPhone "1") (filterUser "2") hjoin hother
  exact ⟨g, hg, horders.1 hboth, (hsame (.inr rfl)).1, htables, mt hunequal.1.1 hconflict⟩

end JoinGraph

end EntityQuery
