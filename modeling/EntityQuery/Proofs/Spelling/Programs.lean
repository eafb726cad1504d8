import EntityQuery.Proofs.Spelling.Builders
import Mathlib.Data.List.Induction

/-!
# Programs in two dialects

A program calls a session, builds on what earlier calls have made, and runs
statements; where a call fails, it goes on with what it has. In two dialects,
and on an engine that does not look at the SQL, its calls come to the same one
by one, and the engine is asked the same but for the SQL. An update that one of
the dialects refuses is all that can tell them apart (`Session.run_agrees`).

A program that only builds makes the builders that `Session.build` makes, as long
as none of its calls fails (`Session.build_eq_some_iff`).
-/

namespace EntityQuery

variable {σ : Type}

/-! ### Programs -/

/-- What a statement returns. -/
inductive Result where
  | models (models : List Model)
  | texts (models : List (Dict String))
  /-- How many rows were counted, changed or removed. -/
  | rows (count : UInt64)
  | saved (model : Model)

/-- The run of a statement; graphs are not run. -/
def Builder.execute? (engine : Engine σ) : Builder → Option (EngineM σ Result)
  | graph _ => none
  | select s => some do return .models (← s.execute engine)
  | count c => some do return .rows (← c.execute engine)
  | update u => some do return .rows (← u.execute engine)
  | delete d => some do return .rows (← d.execute engine)
  | insert i => some do return .saved (← i.execute engine)

/-- The run of a selection for models that hold nothing but text. -/
def Builder.executeAsTexts? (engine : Engine σ) : Builder → Option (EngineM σ Result)
  | select s => some do return .texts (← s.executeAsTexts engine)
  | _ => none

/-- A call that reaches the engine: an earlier statement is run by its number,
or a model is worked on at once. -/
inductive EngineCall where
  | execute (earlier : Nat)
  | executeAsTexts (earlier : Nat)
  | insert (entity : String) (model : Model)
  | updateModel (entity : String) (model : Model)
  | deleteModel (entity : String) (model : Model)

/-- The work of a call, where some builders are found by their numbers; there
is none if the statement is not found. -/
def EngineCall.work? (s : Session) (engine : Engine σ) (found : Nat → Option Builder) :
    EngineCall → Option (EngineM σ Result)
  | execute earlier => (found earlier).bind (Builder.execute? engine)
  | executeAsTexts earlier => (found earlier).bind (Builder.executeAsTexts? engine)
  | insert entity model => some do return .saved (← s.insert engine entity model)
  | updateModel entity model => some do return .rows (← s.updateModel engine entity model)
  | deleteModel entity model => some do return .rows (← s.deleteModel engine entity model)

/-- A call of a program. -/
inductive ProgramCall where
  | make (call : BuilderCall)
  | work (call : EngineCall)

/-- Whether a call is the update of a graph. -/
def ProgramCall.isUpdate : ProgramCall → Bool
  | make call => call.isUpdate
  | work _ => false

/-- What a call of a program gives, if it does not fail. -/
inductive Product where
  | builder (b : Builder)
  | result (r : Result)

/-- What a call comes to, and the state of the engine after it; nothing if
what the call is about is not found. -/
def Session.attempt (s : Session) (engine : Engine σ) (found : Nat → Option Builder) (state : σ) :
    ProgramCall → Option (Except QueryError Product) × σ
  | .make call => ((call.outcome? s found).map (Except.map .builder), state)
  | .work call =>
      match call.work? s engine found with
      | some work => (some ((work.runFrom state).1.map .result), (work.runFrom state).2)
      | none => (none, state)

/-- A call, and what it came to. -/
structure Performed where
  call : ProgramCall
  outcome? : Option (Except QueryError Product)

/-- The builder that a call made. -/
def Performed.builder? (p : Performed) : Option Builder :=
  match p.outcome? with
  | some (.ok (.builder b)) => some b
  | _ => none

/-- The reason why a call failed. -/
def Performed.error? (p : Performed) : Option QueryError :=
  match p.outcome? with
  | some (.error e) => some e
  | _ => none

/-- The builder that the call of a number made. -/
def builderAt? (performed : List Performed) (number : Nat) : Option Builder :=
  performed[number]?.bind Performed.builder?

/-- The calls so far, and the state of the engine after them. -/
structure Progress (σ : Type) where
  performed : List Performed
  state : σ

/-- Perform one more call. -/
def Session.perform (s : Session) (engine : Engine σ) (progress : Progress σ)
    (call : ProgramCall) : Progress σ :=
  let (outcome?, next) := s.attempt engine (builderAt? progress.performed) progress.state call
  ⟨progress.performed ++ [⟨call, outcome?⟩], next⟩

/-- Perform calls in turn. -/
def Session.run (s : Session) (engine : Engine σ) (state : σ) (calls : List ProgramCall) :
    Progress σ :=
  calls.foldl (s.perform engine) ⟨[], state⟩

theorem Session.run_concat (s : Session) (engine : Engine σ) (state : σ)
    (calls : List ProgramCall) (call : ProgramCall) :
    s.run engine state (calls ++ [call]) = s.perform engine (s.run engine state calls) call := by
  rw [run, List.foldl_append]
  rfl

theorem Performed.outcome?_of_builder? {p : Performed} {b : Builder} (h : p.builder? = some b) :
    p.outcome? = some (.ok (.builder b)) := by
  unfold builder? at h
  split at h
  next heq => rw [heq, Option.some.inj h]
  next => cases h

theorem builderAt?_append {performed more : List Performed} {number : Nat} {b : Builder}
    (h : builderAt? performed number = some b) : builderAt? (performed ++ more) number = some b := by
  obtain ⟨p, hp, hb⟩ := Option.bind_eq_some_iff.1 h
  obtain ⟨hlt, -⟩ := List.getElem?_eq_some_iff.1 hp
  rw [builderAt?, List.getElem?_append_left hlt]
  exact h

theorem builderAt?_concat_cases {performed : List Performed} {last : Performed} {number : Nat}
    {b : Builder} (h : builderAt? (performed ++ [last]) number = some b) :
    builderAt? performed number = some b ∨ last.builder? = some b := by
  obtain ⟨p, hp, hb⟩ := Option.bind_eq_some_iff.1 h
  rw [List.getElem?_append] at hp
  split at hp
  next => exact .inl (Option.bind_eq_some_iff.2 ⟨p, hp, hb⟩)
  next =>
    obtain rfl := List.mem_singleton.1 (List.mem_of_getElem? hp)
    exact .inr hb

/-! ### Programs that only build -/

theorem Session.build_concat (s : Session) (built : List Builder) (calls : List BuilderCall)
    (call : BuilderCall) :
    s.build built (calls ++ [call]) =
      (s.build built calls).bind fun before => (call.make s before).map (before ++ [·]) := by
  induction calls generalizing built with
  | nil => rw [List.nil_append, build, build, Option.bind_some, Option.map_eq_bind]; rfl
  | cons first rest ih =>
      rw [List.cons_append, build, build, Option.bind_assoc]
      exact congrArg _ (funext fun next => ih (built ++ [next]))

theorem builderAt?_of_map_builder? {performed : List Performed} {built : List Builder}
    (h : performed.map Performed.builder? = built.map some) (number : Nat) :
    builderAt? performed number = built[number]? := by
  have hnumber : (performed.map Performed.builder?)[number]? = (built.map some)[number]? :=
    congrArg (·[number]?) h
  rw [List.getElem?_map, List.getElem?_map] at hnumber
  rw [builderAt?]
  cases hp : performed[number]? with
  | none =>
      rw [hp, Option.map_none, eq_comm, Option.map_eq_none_iff] at hnumber
      exact hnumber.symm
  | some p =>
      rw [hp, Option.map_some, eq_comm, Option.map_eq_some_iff] at hnumber
      obtain ⟨b, hb, hsome⟩ := hnumber
      rw [hb, Option.bind_some, hsome]

theorem Performed.builder?_make (call : ProgramCall)
    (outcome? : Option (Except QueryError Builder)) :
    builder? ⟨call, outcome?.map (Except.map .builder)⟩ = outcome?.bind Except.toOption := by
  rcases outcome? with _ | _ | _ <;> rfl

/-- The builders that calls make in turn are those that a program of these calls makes, where
each call of the program makes one. -/
theorem Session.build_eq_some_iff (s : Session) (engine : Engine σ) (state : σ)
    (calls : List BuilderCall) (built : List Builder) :
    s.build [] calls = some built ↔
      (s.run engine state (calls.map .make)).performed.map Performed.builder? =
        built.map some := by
  induction calls using List.reverseRecOn generalizing built with
  | nil =>
      rw [build, Option.some.injEq, eq_comm]
      exact List.map_eq_nil_iff.symm.trans eq_comm
  | append_singleton calls call ih =>
      rw [build_concat, List.map_append, List.map_singleton, run_concat, perform]
      generalize s.run engine state (calls.map .make) = progress at ih ⊢
      rw [attempt]
      dsimp only
      rw [List.map_append, List.map_singleton, Performed.builder?_make,
        eq_comm (b := List.map some built), List.map_eq_append_iff, Option.bind_eq_some_iff]
      constructor
      · rintro ⟨before, hbefore, hnext⟩
        obtain ⟨next, hmake, rfl⟩ := Option.map_eq_some_iff.1 hnext
        have hperformed := (ih before).1 hbefore
        refine ⟨before, [next], rfl, hperformed.symm, ?_⟩
        rw [funext (builderAt?_of_map_builder? hperformed), ← BuilderCall.make_eq, hmake]
        rfl
      · rintro ⟨before, last, rfl, hperformed, hlast⟩
        obtain ⟨next, rfl, hnext⟩ := List.map_eq_singleton_iff.1 hlast
        refine ⟨before, (ih before).2 hperformed.symm, Option.map_eq_some_iff.2 ⟨next, ?_, rfl⟩⟩
        rw [BuilderCall.make_eq, ← funext (builderAt?_of_map_builder? hperformed.symm)]
        exact hnext.symm

/-! ### What is the same in two dialects -/

/-- The shape of the models that a selection reads; other builders have none. -/
def Builder.shape? : Builder → Option (Except QueryError Shape)
  | select s => some s.shape
  | _ => none

/-- Builders that differ in their dialect and the SQL of their conditions, with
the same parameters and the same shape. -/
structure Builder.AgreesButForSql (b b' : Builder) : Prop where
  same : b.SameButSpelling b'
  parameters : b.parameters = b'.parameters
  shape : b.shape? = b'.shape?

/-- The same result, or builders that are the same but for their SQL. -/
inductive Product.AgreesButForSql : Product → Product → Prop
  | builder {b b' : Builder} (h : b.AgreesButForSql b') : AgreesButForSql (builder b) (builder b')
  | result (r : Result) : AgreesButForSql (result r) (result r)

/-- The same call, and what it came to is the same but for the SQL of builders. -/
structure Performed.AgreesButForSql (p p' : Performed) : Prop where
  call : p.call = p'.call
  outcome : Option.Rel (SameOutcome Product.AgreesButForSql) p.outcome? p'.outcome?

/-- Calls that agree one by one, and engines in related states after them. -/
structure Progress.AgreesButForSql (R : σ → σ → Prop) (p p' : Progress σ) : Prop where
  performed : List.Forall₂ Performed.AgreesButForSql p.performed p'.performed
  state : R p.state p'.state

/-- No call has reported that an update assigns a property of a joined table. -/
def Progress.IsCommon (p : Progress σ) : Prop :=
  ∀ call ∈ p.performed, ∀ outcome ∈ call.outcome?, EntityQuery.IsCommon outcome

instance decidableIsCommonProgress (p : Progress σ) : Decidable p.IsCommon :=
  inferInstanceAs
    (Decidable (∀ call ∈ p.performed, ∀ outcome ∈ call.outcome?, EntityQuery.IsCommon outcome))

theorem Builder.SameButSpelling.agrees {b b' : Builder} (same : b.SameButSpelling b') :
    b.AgreesButForSql b' := by
  refine ⟨same, ?_, ?_⟩
  · cases same with
    | graph same => obtain ⟨_, _, _, -, -⟩ := same; rfl
    | select same => obtain ⟨_, _, _, _, -, -⟩ := same; rfl
    | count same => obtain ⟨_, _, _, _, -, -⟩ := same; rfl
    | update same => obtain ⟨_, _, _, _, -, -⟩ := same; rfl
    | delete same => obtain ⟨_, _, ⟨_, _, _, -, -⟩, -⟩ := same; rfl
    | insert same => obtain ⟨_⟩ := same; rfl
  · cases same with
    | select same => exact congrArg some same.shape.eq
    | _ => rfl

theorem Performed.AgreesButForSql.rel_builder? {p q : Performed} (same : p.AgreesButForSql q) :
    Option.Rel Builder.SameButSpelling p.builder? q.builder? := by
  obtain ⟨call, outcome?⟩ := p
  obtain ⟨call', outcome?'⟩ := q
  obtain ⟨-, same⟩ := same
  cases same with
  | none => exact .none
  | some same =>
      cases same with
      | error h => exact .none
      | ok same =>
          cases same with
          | builder same => exact .some same.same
          | result r => exact .none

/-- The builders of one number, if there are any. -/
theorem rel_builderAt? {performed performed' : List Performed}
    (same : List.Forall₂ Performed.AgreesButForSql performed performed') (number : Nat) :
    Option.Rel Builder.SameButSpelling (builderAt? performed number)
      (builderAt? performed' number) := by
  induction same generalizing number with
  | nil => exact .none
  | cons same _ ih =>
      cases number with
      | zero => exact same.rel_builder?
      | succ number => exact ih number

/-! ### One call in two dialects -/

open EngineM

section attempt

variable {engine : Engine σ} {R : σ → σ → Prop} (blind : engine.IsBlind R) {s : Session}
  {d : Sql.Dialect}
include blind

theorem Builder.rel_execute? {b b' : Builder} (same : b.SameButSpelling b') :
    Option.Rel (Alike R Eq) (b.execute? engine) (b'.execute? engine) := by
  cases same with
  | graph same => exact .none
  | select same => exact .some ((same.execute blind).returning _)
  | count same => exact .some ((same.execute blind).returning _)
  | update same => exact .some ((same.execute blind).returning _)
  | delete same => exact .some ((same.execute blind).returning _)
  | insert same => exact .some ((same.execute blind).returning _)

theorem Builder.rel_executeAsTexts? {b b' : Builder} (same : b.SameButSpelling b') :
    Option.Rel (Alike R Eq) (b.executeAsTexts? engine) (b'.executeAsTexts? engine) := by
  cases same with
  | select same => exact .some ((same.executeAsTexts blind).returning _)
  | _ => exact .none

theorem Session.alike_insert (entity : String) (model : Model) :
    Alike R Eq (s.insert engine entity model) ((s.inDialect d).insert engine entity model) :=
  (alike_liftM (sameOutcome_insertOf entity model)).bind fun _ _ same => same.execute blind

theorem Session.alike_updateModel (entity : String) (model : Model) :
    Alike R Eq (s.updateModel engine entity model)
      ((s.inDialect d).updateModel engine entity model) :=
  (alike_liftM (sameOutcome_updateModelOf entity model)).bind fun _ _ same => same.execute blind

theorem Session.alike_deleteModel (entity : String) (model : Model) :
    Alike R Eq (s.deleteModel engine entity model)
      ((s.inDialect d).deleteModel engine entity model) :=
  (alike_liftM (sameOutcome_deleteModelOf entity model)).bind fun _ _ same => same.execute blind

variable {found found' : Nat → Option Builder}

/-- Work on the engine goes alike, whether or not it succeeds. -/
theorem EngineCall.rel_work? (call : EngineCall)
    (same : ∀ number, Option.Rel Builder.SameButSpelling (found number) (found' number)) :
    Option.Rel (Alike R Eq) (call.work? s engine found)
      (call.work? (s.inDialect d) engine found') := by
  cases call with
  | execute earlier =>
      exact rel_bind (same earlier) fun _ _ _ _ same => Builder.rel_execute? blind same
  | executeAsTexts earlier =>
      exact rel_bind (same earlier) fun _ _ _ _ same => Builder.rel_executeAsTexts? blind same
  | insert entity model => exact .some ((Session.alike_insert blind entity model).returning _)
  | updateModel entity model =>
      exact .some ((Session.alike_updateModel blind entity model).returning _)
  | deleteModel entity model =>
      exact .some ((Session.alike_deleteModel blind entity model).returning _)

/-- A call comes to the same in both dialects, unless it is an update that one
of them refuses. -/
theorem Session.attempt_agrees (call : ProgramCall) {state state' : σ}
    (same : ∀ number, Option.Rel Builder.SameButSpelling (found number) (found' number))
    (states : R state state')
    (common : call.isUpdate = true →
      ∀ x ∈ (s.attempt engine found state call).1, IsCommon x)
    (common' : call.isUpdate = true →
      ∀ x ∈ ((s.inDialect d).attempt engine found' state' call).1, IsCommon x) :
    Option.Rel (SameOutcome Product.AgreesButForSql) (s.attempt engine found state call).1
        ((s.inDialect d).attempt engine found' state' call).1 ∧
      R (s.attempt engine found state call).2
        ((s.inDialect d).attempt engine found' state' call).2 := by
  cases call with
  | make call =>
      refine ⟨?_, states⟩
      have houtcome := call.rel_outcome? (s := s) (d := d) same
        (fun h x hx => (common h _ (Option.mem_map_of_mem _ hx)).of_map)
        (fun h x hx => (common' h _ (Option.mem_map_of_mem _ hx)).of_map)
      exact rel_map houtcome fun _ _ same => same.map fun _ _ same => .builder same.agrees
  | work call =>
      have hwork := call.rel_work? (s := s) (d := d) blind same
      unfold attempt
      dsimp only
      generalize call.work? s engine found = work?,
        call.work? (s.inDialect d) engine found' = work?' at hwork ⊢
      cases hwork with
      | none => exact ⟨.none, states⟩
      | some alike =>
          obtain ⟨houtcome, hnext⟩ := alike state state' states
          refine ⟨.some (houtcome.map ?_), hnext⟩
          rintro r _ rfl
          exact .result r

end attempt

/-! ### Runs in two dialects -/

section run

variable {engine : Engine σ} {R : σ → σ → Prop} (blind : engine.IsBlind R) {s : Session}
  {d : Sql.Dialect}
include blind

/-- One more call after runs that agree, unless it is an update that a dialect refuses. -/
theorem Progress.AgreesButForSql.perform {p q : Progress σ} (agree : p.AgreesButForSql R q)
    (call : ProgramCall) (hp : (s.perform engine p call).IsCommon)
    (hq : ((s.inDialect d).perform engine q call).IsCommon) :
    (s.perform engine p call).AgreesButForSql R ((s.inDialect d).perform engine q call) := by
  obtain ⟨houtcome, hstate⟩ := Session.attempt_agrees blind call
    (rel_builderAt? agree.performed) agree.state (fun _ => hp _ List.mem_concat_self)
    (fun _ => hq _ List.mem_concat_self)
  exact ⟨List.rel_append agree.performed (.cons ⟨rfl, houtcome⟩ .nil), hstate⟩

omit blind in
theorem Progress.IsCommon.of_perform {p : Progress σ} {call : ProgramCall}
    (h : (s.perform engine p call).IsCommon) : p.IsCommon :=
  fun performed hmem => h performed (List.mem_append_left _ hmem)

/-- Runs agree, unless an update is refused on the way. -/
theorem Session.run_agrees {state : σ} (start : R state state) (calls : List ProgramCall)
    (hp : (s.run engine state calls).IsCommon)
    (hq : ((s.inDialect d).run engine state calls).IsCommon) :
    (s.run engine state calls).AgreesButForSql R ((s.inDialect d).run engine state calls) := by
  induction calls using List.reverseRecOn with
  | nil => exact ⟨.nil, start⟩
  | append_singleton calls call ih =>
      rw [run_concat] at hp hq
      rw [run_concat, run_concat]
      exact (ih hp.of_perform hq.of_perform).perform blind call hp hq

end run

end EntityQuery
