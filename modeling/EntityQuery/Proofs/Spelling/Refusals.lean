import EntityQuery.Proofs.JoinGraph.Columns
import EntityQuery.Proofs.JoinGraph.Tables
import EntityQuery.Proofs.Spelling.Programs

/-!
# What a dialect refuses

Some dialects refuse to assign a property of a joined table. No other call of a
program is refused in this way, and none is in MySQL (`Session.isExplained_run`).
Apart from such refusals the dialect changes the spelling alone
(`Session.run_inDialect`).
-/

namespace EntityQuery

namespace JoinGraph

/-- The column of a property is one of a joined table. -/
def IsJoined (g : JoinGraph) (property : String) : Prop :=
  ∃ t ∈ g.joined, ∃ c ∈ t.columns, g.column property = .ok c

variable {g g' : JoinGraph}

theorem IsCoherent.isJoined_of_ne (coherent : g.IsCoherent) {property : String} {c : GraphColumn}
    (hc : g.column property = .ok c) (hne : c.alias ≠ g.base.alias) : g.IsJoined property := by
  obtain ⟨hmem, -⟩ := of_column hc
  rw [coherent.columns_eq] at hmem
  obtain ⟨t, ht, hct⟩ := List.mem_flatMap.1 hmem
  rcases List.mem_cons.1 ht with rfl | ht
  · obtain ⟨column, -, rfl⟩ := List.mem_map.1 hct
    exact absurd rfl hne
  · exact ⟨t, ht, c, hct, hc⟩

/-- An operation adds a table or gives the condition on the rows. -/
theorem stage_cases {operation : GraphOperation} (h : operation.stage g = .ok g') :
    (∃ spec, g.withTable spec = .ok g') ∨
      ∃ condition values, g.withFilter condition values = .ok g' := by
  cases operation with
  | addTable spec => exact .inl ⟨spec, h⟩
  | join kind spec =>
      obtain ⟨_, _, _, _, _, h⟩ := exists_withTable_of_withJoin h
      exact .inl ⟨_, h⟩
  | filter condition values => exact .inr ⟨condition, values, h⟩

end JoinGraph

/-! ### Graphs that a session makes -/

/-- What is kept of the graphs that a session makes. -/
def Builder.IsOf (s : Session) : Builder → Prop
  | graph g => g.IsCoherent ∧ g.IsOver s.catalog s.dialect
  | _ => True

section made

variable {s : Session} {b b' : Builder}

theorem BuilderStep.isOf_of_outcome? {step : BuilderStep} (hb : b.IsOf s)
    (h : step.outcome? s b = some (.ok b')) : b'.IsOf s := by
  cases step with
  | perform operation =>
      cases b with
      | graph g =>
          obtain ⟨coherent, isOver⟩ := hb
          obtain ⟨g', hg', rfl⟩ := map_eq_ok.1 (Option.some.inj h)
          rcases JoinGraph.stage_cases hg' with ⟨spec, hg'⟩ | ⟨condition, values, hg'⟩
          · exact ⟨coherent.withTable hg', isOver.withTable hg'⟩
          · exact ⟨coherent.withFilter hg', isOver.withFilter hg'⟩
      | _ => cases h
  | selectAll => cases b <;> cases h; trivial
  | delete => cases b <;> cases h; trivial
  -- the other calls lead to statements, of which nothing is asked
  | _ =>
      cases b <;> first
        | cases h
        | obtain ⟨_, _, rfl⟩ := map_eq_ok.1 (Option.some.inj h)
          trivial

theorem BuilderCall.isOf_of_outcome? {call : BuilderCall} {found : Nat → Option Builder}
    (sound : ∀ number b, found number = some b → b.IsOf s)
    (h : call.outcome? s found = some (.ok b')) : b'.IsOf s := by
  cases call with
  | start entity label =>
      obtain ⟨g, hg, rfl⟩ := map_eq_ok.1 (Option.some.inj h)
      exact ⟨JoinGraph.isCoherent_start hg, JoinGraph.isOver_start hg⟩
  | further earlier step =>
      obtain ⟨b, hb, h⟩ := Option.bind_eq_some_iff.1 h
      exact step.isOf_of_outcome? (sound earlier b hb) h
  | _ =>
      obtain ⟨_, _, rfl⟩ := map_eq_ok.1 (Option.some.inj h)
      trivial

theorem Session.isOf_of_attempt {σ : Type} {engine : Engine σ} {found : Nat → Option Builder}
    {call : ProgramCall} {state : σ} (sound : ∀ number b, found number = some b → b.IsOf s)
    (h : (s.attempt engine found state call).1 = some (.ok (.builder b))) : b.IsOf s := by
  cases call with
  | make call =>
      obtain ⟨outcome, houtcome, hmap⟩ := Option.map_eq_some_iff.1 h
      obtain ⟨b', rfl, hb⟩ := map_eq_ok.1 hmap
      obtain rfl := Product.builder.inj hb
      exact call.isOf_of_outcome? sound houtcome
  | work call =>
      -- work on the engine gives results, not builders
      unfold Session.attempt at h
      dsimp only at h
      split at h
      next work _ =>
        obtain ⟨r, -, hr⟩ := map_eq_ok.1 (Option.some.inj h)
        cases hr
      next => cases h

end made

theorem ProgramCall.exists_of_isUpdate {call : ProgramCall} (h : call.isUpdate = true) :
    ∃ earlier model, call = .make (.further earlier (.update model)) := by
  cases call with
  | work call => cases h
  | make call =>
      cases call with
      | further earlier step =>
          cases step with
          | update model => exact ⟨earlier, model, rfl⟩
          | _ => cases h
      | _ => cases h

/-! ### Refused updates -/

/-- A property is told to be one of a joined table that may not be assigned,
and it is: the call is an update of a graph that was made before, it assigns
the property, and the dialect updates base tables only. -/
structure Session.IsRefusal (s : Session) (found : Nat → Option Builder) (call : ProgramCall)
    (d : Sql.Dialect) (property : String) : Prop where
  dialect : d = s.dialect
  not_mysql : s.dialect ≠ .mysql
  assigns : ∃ earlier model g, call = .make (.further earlier (.update model)) ∧
    found earlier = some (.graph g) ∧ property ∈ model.keys ∧ g.IsJoined property

/-- A refusal stays one as more builders are made. -/
theorem Session.IsRefusal.mono {s : Session} {found found' : Nat → Option Builder}
    {call : ProgramCall} {d : Sql.Dialect} {property : String}
    (h : s.IsRefusal found call d property)
    (more : ∀ number b, found number = some b → found' number = some b) :
    s.IsRefusal found' call d property := by
  obtain ⟨earlier, model, g, hcall, hfound, hassigns⟩ := h.assigns
  exact ⟨h.dialect, h.not_mysql, earlier, model, g, hcall, more _ _ hfound, hassigns⟩

theorem Session.of_updateOf_refused {s : Session} {g : JoinGraph} {model : Model} {e : QueryError}
    (made : (Builder.graph g).IsOf s) (refused : s.updateOf g model = .error e)
    (joined : e.isJoinedTarget = true) :
    ∃ property ∈ model.keys, e = .joinedUpdateTarget s.dialect property ∧ s.dialect ≠ .mysql ∧
      g.IsJoined property := by
  obtain ⟨coherent, isOver⟩ := made
  rcases bind_eq_error.1 refused with refused | ⟨_, -, refused⟩
  · obtain ⟨property, hmem, htarget⟩ := Update.of_ofModel_refused refused joined
    obtain ⟨rfl, hstyle, c, hc, hne⟩ := Update.of_targetOf_refused htarget joined
    rw [isOver.dialect_eq] at hstyle
    refine ⟨property, hmem, by rw [isOver.dialect_eq], ?_, coherent.isJoined_of_ne hc hne⟩
    intro hmysql
    rw [hmysql] at hstyle
    cases hstyle
  · cases refused

section refusals

variable {σ : Type} {engine : Engine σ} {R : σ → σ → Prop} (blind : engine.IsBlind R)
  {s : Session}
include blind

/-- A call that is no update is not refused, whatever the engine answers. -/
theorem Session.attempt_of_not_update {found : Nat → Option Builder} {call : ProgramCall}
    {state : σ} (related : R state state) (other : call.isUpdate = false) :
    (∀ x ∈ (s.attempt engine found state call).1, IsCommon x) ∧
      R (s.attempt engine found state call).2 (s.attempt engine found state call).2 := by
  have same : ∀ number, Option.Rel Builder.SameButSpelling (found number) (found number) := by
    intro number
    cases found number with
    | none => exact .none
    | some b => exact .some (.refl b)
  obtain ⟨agree, hstate⟩ := attempt_agrees (s := s) (d := s.dialect) blind call same related
    (fun h => Bool.noConfusion (other.symm.trans h)) fun h => Bool.noConfusion (other.symm.trans h)
  refine ⟨fun x hx => ?_, hstate⟩
  rw [Option.mem_def.1 hx] at agree
  obtain ⟨_, -, same⟩ := exists_of_rel_some agree
  exact same.isCommon

/-- A refusal that a call reports is one. -/
theorem Session.isRefusal_of_attempt {found : Nat → Option Builder} {call : ProgramCall}
    {state : σ} (sound : ∀ number b, found number = some b → b.IsOf s) (related : R state state)
    {d : Sql.Dialect} {property : String}
    (h : (s.attempt engine found state call).1 = some (.error (.joinedUpdateTarget d property))) :
    s.IsRefusal found call d property := by
  cases hupdate : call.isUpdate with
  | false => exact Bool.noConfusion ((attempt_of_not_update blind related hupdate).1 _ h _ rfl)
  | true =>
      obtain ⟨earlier, model, rfl⟩ := ProgramCall.exists_of_isUpdate hupdate
      obtain ⟨outcome, houtcome, hmap⟩ := Option.map_eq_some_iff.1 h
      obtain ⟨b, hb, houtcome⟩ := Option.bind_eq_some_iff.1 houtcome
      cases b with
      | graph g =>
          obtain rfl := Option.some.inj houtcome
          cases hupdateOf : s.updateOf g model with
          | ok u => rw [hupdateOf] at hmap; cases hmap
          | error e =>
              rw [hupdateOf] at hmap
              obtain rfl := Except.error.inj hmap
              obtain ⟨property', hmem, heq, hmysql, hjoined⟩ :=
                of_updateOf_refused (sound earlier _ hb) hupdateOf rfl
              obtain ⟨rfl, rfl⟩ := QueryError.joinedUpdateTarget.inj heq
              exact ⟨rfl, hmysql, earlier, model, g, rfl, hb, hmem, hjoined⟩
      | _ => cases houtcome

/-- What is kept along a run: the graphs are those of a session, and the
refusals that have been reported are refusals. -/
structure Progress.IsExplained (p : Progress σ) (s : Session) (R : σ → σ → Prop) : Prop where
  sound : ∀ number b, builderAt? p.performed number = some b → b.IsOf s
  state : R p.state p.state
  refused : ∀ call ∈ p.performed, ∀ d property,
    call.outcome? = some (.error (.joinedUpdateTarget d property)) →
      s.IsRefusal (builderAt? p.performed) call.call d property

theorem Progress.IsExplained.perform {p : Progress σ} (h : p.IsExplained s R)
    (call : ProgramCall) : (s.perform engine p call).IsExplained s R where
  sound number b hb := by
    rcases builderAt?_concat_cases hb with hb | hb
    · exact h.sound number b hb
    · exact Session.isOf_of_attempt h.sound (Performed.outcome?_of_builder? hb)
  state := by
    cases hupdate : call.isUpdate with
    | false => exact (Session.attempt_of_not_update blind h.state hupdate).2
    | true =>
        obtain ⟨earlier, model, rfl⟩ := ProgramCall.exists_of_isUpdate hupdate
        exact h.state
  refused performed hmem d property hrefused := by
    refine Session.IsRefusal.mono ?_ fun number b => builderAt?_append
    rcases List.mem_append.1 hmem with hmem | hmem
    · exact h.refused performed hmem d property hrefused
    · obtain rfl := List.mem_singleton.1 hmem
      exact Session.isRefusal_of_attempt blind h.sound h.state hrefused

theorem Session.isExplained_run {state : σ} (start : R state state) (calls : List ProgramCall) :
    (s.run engine state calls).IsExplained s R := by
  induction calls using List.reverseRecOn with
  | nil =>
      refine ⟨fun number b hb => ?_, start, fun call hmem => ?_⟩
      · cases hb
      · cases hmem
  | append_singleton calls call ih =>
      rw [run_concat]
      exact ih.perform blind call

end refusals

/-- The dialect changes the spelling alone. Two runs of a program in two
dialects agree call by call and ask the engine the same but for the SQL, unless
one of them is refused an update; and what is refused is to assign a property
of a joined table, outside of MySQL. -/
theorem Session.run_inDialect {σ : Type} {engine : Engine σ} {R : σ → σ → Prop}
    (blind : engine.IsBlind R) {state : σ} (start : R state state) (s : Session)
    (d : Sql.Dialect) (calls : List ProgramCall) :
    let run := s.run engine.recorded (state, []) calls
    let run' := (s.inDialect d).run engine.recorded (state, []) calls
    (run.IsCommon → run'.IsCommon →
        List.Forall₂ Performed.AgreesButForSql run.performed run'.performed ∧
          List.Forall₂ Script.Call.SameButSql run.state.2 run'.state.2 ∧
          R run.state.1 run'.state.1) ∧
      ∀ call ∈ run.performed, ∀ refusing property,
        call.outcome? = some (.error (.joinedUpdateTarget refusing property)) →
          s.IsRefusal (builderAt? run.performed) call.call refusing property := by
  have start : Engine.SameRecord R (state, []) (state, []) := ⟨start, .nil⟩
  refine ⟨fun hp hq => ?_, (isExplained_run blind.recorded start calls).refused⟩
  obtain ⟨hperformed, hstate, hcalls⟩ := run_agrees blind.recorded start calls hp hq
  exact ⟨hperformed, hcalls, hstate⟩

open JoinGraph (phoneBook)

/-- The phones of users are read by number, counted, changed and removed. In between, two
values conflict with those before them, and an alias is not there. -/
def phoneProgram : List ProgramCall :=
  let phone : JoinSpec := {
    entity := "Phone", «alias» := "p", parentProperty := "u.phones"
    values := .ofList [("no", .str "3"), ("by", .str "owner")] }
  let byNumber : Json := .obj [("$eq", .obj [("p.no", .str ":no")])]
  [.make (.start "User" "u"),
    .make (.further 0 (.perform (.join .leftOuter phone))),
    .make (.further 1 (.perform (.filter byNumber (.ofList [("no", .str "3")])))),
    .make (.further 2 .selectAll),
    .make (.further 3 (.take 10 none)),
    .work (.execute 4),
    .make (.further 2 (.count (some "p.no"))),
    .work (.execute 6),
    .make (.further 2 (.update (Dict.ofList [("u.id", .num "2")]))),
    .work (.execute 8),
    .make (.further 1 (.perform (.filter byNumber
      (.ofList [("no", .str "4"), ("by", .str "number")])))),
    .make (.further 2 (.deleteFrom "q")),
    .work (.deleteModel "Phone" (Dict.ofList [("no", .str "3")]))]

/-- One user with one phone, counts, and a failure. -/
def phoneAnswers : List (Except String Engine.Answer) :=
  [.ok { rows := [Dict.ofList [("u.id", .num "1"), ("p.no", .str "3"), ("p.owner", .num "1")]] },
    .ok { rows := [Dict.ofList [("count", .num "1")]] }, .ok { affected := 1 },
    .error "connection lost"]

theorem Session.run_inDialect_phoneProgram :
    let run := Session.run ⟨phoneBook, .mysql, true⟩ Engine.canned.recorded (phoneAnswers, [])
      phoneProgram
    let run' := Session.run ⟨phoneBook, .tsql, true⟩ Engine.canned.recorded (phoneAnswers, [])
      phoneProgram
    run.state.2.map Script.Call.kind = [.select, .select, .update, .delete] ∧
      run.performed.filterMap Performed.error? =
        [.parameterConflict "no", .unknownAlias "q", .engine "connection lost"] ∧
      List.Forall₂ Performed.AgreesButForSql run.performed run'.performed ∧
      List.Forall₂ Script.Call.SameButSql run.state.2 run'.state.2 ∧ run.state.1 = run'.state.1 :=
  ⟨by decide +kernel, by decide +kernel,
    (run_inDialect Engine.isBlind_canned rfl ⟨phoneBook, .mysql, true⟩ .tsql phoneProgram).1
      (by decide +kernel) (by decide +kernel)⟩

/-- The owner of a phone is assigned through its user, which some dialects refuse. -/
example :
    let run := Session.run ⟨phoneBook, .postgres, true⟩ Engine.canned [] <|
      phoneProgram.take 2 ++ [.make (.further 1 (.update (Dict.ofList [("p.owner", .num "2")])))]
    run.performed.map Performed.error? =
      [none, none, some (.joinedUpdateTarget .postgres "p.owner")] := by
  decide +kernel

end EntityQuery
