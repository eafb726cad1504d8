import EntityQuery.Condition.Parser

/-!
# The grammar of conditions

A condition is written down as tokens in one way. The machine that reads
conditions takes a list of tokens if and only if it is what some condition is
written down as, where every operator is of the kind of its node and no list is
empty (`Reader.read_eq_ok_iff`).

What has been read is written down again from the state: each step appends the
token that it takes, and only conditions of the right kinds are left behind
(`Reader.of_step`). In the other direction the machine is run over the tokens
of a condition (`Reader.run_tokens`), by induction on the condition.
-/

namespace EntityQuery

/-- The token of an operand. -/
def Operand.token : Operand → Condition.Token
  | column name => .column name
  | parameter name => .parameter name
  | number spelling => .number spelling

namespace Condition

/-- The tokens up to the colon of an operator. -/
def opening (op : Operator) : List Token := [.mark .openBrace, .operator op, .mark .colon]

/-- Parts with commas between them. -/
def commaSeparated : List (List Token) → List Token
  | [] => []
  | [part] => part
  | part :: rest => part ++ .mark .comma :: commaSeparated rest

/-- Parts with a comma after each of them. -/
def commaEnded (parts : List (List Token)) : List Token :=
  parts.flatMap fun part => part ++ [.mark .comma]

/-- Operands as tokens. -/
def operandTokens (values : List Operand) : List (List Token) :=
  values.map fun value => [value.token]

/-- What holds of a list of conditions if it holds of each of them holds of every condition. -/
theorem inductionOn {motive : Condition → Prop} (condition : Condition)
    (comparison : ∀ op column value, motive (.comparison op column value))
    (nullTest : ∀ op column, motive (.nullTest op column))
    (membership : ∀ op column values, motive (.membership op column values))
    (boolean : ∀ op conditions, (∀ c ∈ conditions, motive c) → motive (.boolean op conditions)) :
    motive condition := by
  match condition with
  | .comparison op column value => exact comparison op column value
  | .nullTest op column => exact nullTest op column
  | .membership op column values => exact membership op column values
  | .boolean op conditions =>
      apply boolean op conditions
      intro c hc
      have hlt := List.sizeOf_lt_of_mem hc
      exact inductionOn c comparison nullTest membership boolean
termination_by sizeOf condition
decreasing_by
  simp only [Condition.boolean.sizeOf_spec]
  omega

mutual

/-- A condition as tokens. -/
def tokens : Condition → List Token
  | comparison op column value =>
      opening op ++ [.mark .openBrace, .column column, .mark .colon, value.token,
        .mark .closeBrace, .mark .closeBrace]
  | nullTest op column =>
      opening op ++ [.mark .openBrace, .column column, .mark .colon, .null,
        .mark .closeBrace, .mark .closeBrace]
  | membership op column values =>
      opening op ++ [.mark .openBrace, .column column, .mark .colon, .mark .openBracket] ++
        commaSeparated (operandTokens values) ++
        [.mark .closeBracket, .mark .closeBrace, .mark .closeBrace]
  | boolean op conditions =>
      opening op ++ [.mark .openBracket] ++ commaSeparated (listTokens conditions) ++
        [.mark .closeBracket, .mark .closeBrace]

/-- Each of some conditions as tokens. -/
def listTokens : List Condition → List (List Token)
  | [] => []
  | condition :: rest => tokens condition :: listTokens rest

end

mutual

/-- Whether every operator is of the kind of its node and no list is empty. -/
def isWellKinded : Condition → Bool
  | comparison op _ _ => op.kind = .comparison
  | nullTest op _ => op.kind = .nullTest
  | membership op _ values => op.kind = .membership && !values.isEmpty
  | boolean op conditions =>
      op.kind = .boolean && !conditions.isEmpty && areWellKinded conditions

/-- Whether all of some conditions are well kinded. -/
def areWellKinded : List Condition → Bool
  | [] => true
  | condition :: rest => isWellKinded condition && areWellKinded rest

end

theorem areWellKinded_iff {conditions : List Condition} :
    areWellKinded conditions = true ↔ ∀ condition ∈ conditions, condition.isWellKinded = true := by
  induction conditions with
  | nil => simp [areWellKinded]
  | cons condition rest ih => simp [areWellKinded, ih]

theorem listTokens_eq_map (conditions : List Condition) :
    listTokens conditions = conditions.map tokens := by
  induction conditions with
  | nil => rfl
  | cons condition rest ih => rw [listTokens, ih, List.map_cons]

theorem commaSeparated_concat (parts : List (List Token)) (last : List Token) :
    commaSeparated (parts ++ [last]) = commaEnded parts ++ last := by
  induction parts with
  | nil => rfl
  | cons part parts ih =>
      have hstep : commaSeparated (part :: (parts ++ [last])) =
          part ++ .mark .comma :: commaSeparated (parts ++ [last]) := by
        cases parts <;> rfl
      rw [List.cons_append, hstep, ih, commaEnded, commaEnded, List.flatMap_cons]
      simp

theorem commaEnded_concat (parts : List (List Token)) (last : List Token) :
    commaEnded (parts ++ [last]) = commaEnded parts ++ last ++ [.mark .comma] := by
  rw [commaEnded, commaEnded, List.flatMap_append, List.flatMap_singleton, List.append_assoc]

/-- Every condition ends with a brace. -/
theorem tokens_eq_concat (condition : Condition) :
    ∃ before, condition.tokens = before ++ [.mark .closeBrace] := by
  cases condition with
  | comparison op column value =>
      exact ⟨opening op ++ [.mark .openBrace, .column column, .mark .colon, value.token,
        .mark .closeBrace], by simp [tokens]⟩
  | nullTest op column =>
      exact ⟨opening op ++ [.mark .openBrace, .column column, .mark .colon, .null,
        .mark .closeBrace], by simp [tokens]⟩
  | membership op column values =>
      exact ⟨opening op ++ [.mark .openBrace, .column column, .mark .colon, .mark .openBracket] ++
        commaSeparated (operandTokens values) ++ [.mark .closeBracket, .mark .closeBrace],
        by simp [tokens]⟩
  | boolean op conditions =>
      exact ⟨opening op ++ [.mark .openBracket] ++ commaSeparated (listTokens conditions) ++
        [.mark .closeBracket], by simp [tokens]⟩

/-- The tokens of a condition with an inner brace, up to that brace. -/
def innerTokens : Condition → List Token
  | comparison op column value =>
      opening op ++ [.mark .openBrace, .column column, .mark .colon, value.token]
  | nullTest op column =>
      opening op ++ [.mark .openBrace, .column column, .mark .colon, .null]
  | membership op column values =>
      opening op ++ [.mark .openBrace, .column column, .mark .colon, .mark .openBracket] ++
        commaSeparated (operandTokens values) ++ [.mark .closeBracket]
  | boolean _ _ => []

theorem tokens_eq_innerTokens {condition : Condition} (sound : condition.isWellKinded = true)
    (h : condition.op.kind ≠ .boolean) :
    condition.tokens = condition.innerTokens ++ [.mark .closeBrace, .mark .closeBrace] := by
  cases condition with
  | comparison op column value => simp [tokens, innerTokens]
  | nullTest op column => simp [tokens, innerTokens]
  | membership op column values => simp [tokens, innerTokens]
  | boolean op conditions =>
      rw [isWellKinded, Bool.and_eq_true, Bool.and_eq_true] at sound
      exact absurd (of_decide_eq_true sound.1.1) h

/-! ### What has been read -/

/-- The tokens that have been read inside the innermost condition. -/
def Place.written : Place → List Token
  | start => []
  | opened => [.mark .openBrace]
  | named op => [.mark .openBrace, .operator op]
  | body op => opening op
  | inner op => opening op ++ [.mark .openBrace]
  | subject op column => opening op ++ [.mark .openBrace, .column column]
  | value op column => opening op ++ [.mark .openBrace, .column column, .mark .colon]
  | item op column earlier =>
      opening op ++ [.mark .openBrace, .column column, .mark .colon, .mark .openBracket] ++
        commaEnded (operandTokens earlier.reverse)
  | itemEnd op column earlier last =>
      opening op ++ [.mark .openBrace, .column column, .mark .colon, .mark .openBracket] ++
        commaEnded (operandTokens earlier.reverse) ++ [last.token]
  | innerEnd condition => condition.innerTokens
  | outerEnd condition => condition.tokens.dropLast
  | whole condition => condition.tokens

/-- The tokens of a boolean list up to its last comma. -/
def OpenList.written (list : OpenList) : List Token :=
  opening list.op ++ [.mark .openBracket] ++ commaEnded (list.earlier.reverse.map tokens)

/-- Whether what has been read of a condition has the right kinds. -/
def Place.isSound : Place → Bool
  | inner op | subject op _ | value op _ => op.kind != .boolean
  | item op _ _ | itemEnd op _ _ _ => op.kind = .membership
  | innerEnd condition => condition.isWellKinded && condition.op.kind != .boolean
  | outerEnd condition | whole condition => condition.isWellKinded
  | _ => true

/-- Whether a boolean list is one and has well kinded conditions. -/
def OpenList.isSound (list : OpenList) : Bool :=
  list.op.kind = .boolean && areWellKinded list.earlier

namespace Reader

/-- All tokens that have been read. -/
def written (r : Reader) : List Token :=
  r.lists.reverse.flatMap OpenList.written ++ r.place.written

/-- Whether all that has been read has the right kinds. -/
def isSound (r : Reader) : Bool := r.place.isSound && r.lists.all OpenList.isSound

theorem token_of_operand? {token : Token} {value : Operand} (h : operand? token = some value) :
    value.token = token := by
  cases token <;> cases h <;> rfl

/-- A step inside the innermost condition leaves the lists around it alone. -/
theorem of_place {place next : Place} {lists : List OpenList} {token : Token}
    (sound : isSound ⟨place, lists⟩ = true) (hwritten : next.written = place.written ++ [token])
    (hsound : next.isSound = true) :
    written ⟨next, lists⟩ = written ⟨place, lists⟩ ++ [token] ∧ isSound ⟨next, lists⟩ = true := by
  rw [isSound, Bool.and_eq_true] at sound ⊢
  refine ⟨?_, hsound, sound.2⟩
  rw [written, written, hwritten, List.append_assoc]

theorem of_openList {op : Operator} {lists : List OpenList} (hkind : op.kind = .boolean)
    (sound : isSound ⟨.body op, lists⟩ = true) :
    written ⟨.start, ⟨op, []⟩ :: lists⟩ = written ⟨.body op, lists⟩ ++ [.mark .openBracket] ∧
      isSound ⟨.start, ⟨op, []⟩ :: lists⟩ = true := by
  have hlists : lists.all OpenList.isSound = true := (Bool.and_eq_true_iff.1 sound).2
  constructor
  · simp [written, OpenList.written, Place.written, commaEnded]
  · rw [isSound, List.all_cons, hlists, OpenList.isSound, hkind]
    rfl

section InList

variable {condition : Condition} {list : OpenList} {lists : List OpenList}
  (sound : isSound ⟨.whole condition, list :: lists⟩ = true)

include sound

theorem isSound_list : list.op.kind = .boolean ∧
    areWellKinded (condition :: list.earlier) = true ∧ lists.all OpenList.isSound = true := by
  obtain ⟨hcondition, hlists⟩ := Bool.and_eq_true_iff.1 sound
  rw [List.all_cons, Bool.and_eq_true, OpenList.isSound, Bool.and_eq_true] at hlists
  refine ⟨of_decide_eq_true hlists.1.1, ?_, hlists.2⟩
  rw [areWellKinded, Bool.and_eq_true]
  exact ⟨hcondition, hlists.1.2⟩

theorem of_nextInList :
    written ⟨.start, { list with earlier := condition :: list.earlier } :: lists⟩ =
        written ⟨.whole condition, list :: lists⟩ ++ [.mark .comma] ∧
      isSound ⟨.start, { list with earlier := condition :: list.earlier } :: lists⟩ = true := by
  obtain ⟨hkind, hconditions, hlists⟩ := isSound_list sound
  constructor
  · simp [written, OpenList.written, Place.written, commaEnded_concat]
  · rw [isSound, List.all_cons, OpenList.isSound, hconditions, hlists, hkind]
    rfl

theorem of_closeList :
    written ⟨.outerEnd (.boolean list.op (condition :: list.earlier).reverse), lists⟩ =
        written ⟨.whole condition, list :: lists⟩ ++ [.mark .closeBracket] ∧
      isSound ⟨.outerEnd (.boolean list.op (condition :: list.earlier).reverse), lists⟩ =
        true := by
  obtain ⟨hkind, hconditions, hlists⟩ := isSound_list sound
  constructor
  · have htokens : (boolean list.op (condition :: list.earlier).reverse).tokens =
        list.written ++ condition.tokens ++ [.mark .closeBracket] ++ [.mark .closeBrace] := by
      rw [tokens, listTokens_eq_map, List.reverse_cons, List.map_append, List.map_singleton,
        commaSeparated_concat, OpenList.written]
      simp
    rw [written, Place.written, htokens, List.dropLast_concat]
    simp [written, Place.written]
  · have hreverse : areWellKinded (condition :: list.earlier).reverse = true := by
      rw [areWellKinded_iff] at hconditions ⊢
      exact fun c hc => hconditions c (List.mem_reverse.1 hc)
    rw [isSound, hlists, Place.isSound, isWellKinded, hkind, hreverse]
    simp

end InList

/-- A step appends the token that it takes and keeps to the right kinds. -/
theorem of_step {r next : Reader} {token : Token} (h : r.step token = some next)
    (sound : r.isSound = true) :
    next.written = r.written ++ [token] ∧ next.isSound = true := by
  obtain ⟨place, lists⟩ := r
  have hplace : place.isSound = true := (Bool.and_eq_true_iff.1 sound).1
  unfold step at h
  split at h
  case h_1 hp => cases hp; cases h; exact of_place sound rfl rfl
  case h_2 hp => cases hp; cases h; exact of_place sound rfl rfl
  case h_3 hp => cases hp; cases h; exact of_place sound rfl rfl
  case h_4 op hp =>
      cases hp
      dsimp only at h
      split at h
      next hkind => cases h; exact of_openList hkind sound
      next => cases h
      next hkind => cases h; exact of_place sound rfl (bne_iff_ne.2 hkind)
      next => cases h
  case h_5 hp => cases hp; cases h; exact of_place sound (by simp [Place.written]) hplace
  case h_6 hp => cases hp; cases h; exact of_place sound (by simp [Place.written]) hplace
  case h_7 op column hp =>
      cases hp
      dsimp only at h
      split at h
      next hkind =>
        obtain ⟨value, hvalue, rfl⟩ := Option.map_eq_some_iff.1 h
        refine of_place sound ?_ (by simp [Place.isSound, isWellKinded, Condition.op, hkind])
        rw [← token_of_operand? hvalue]
        simp [Place.written, innerTokens]
      next hkind =>
        cases h
        exact of_place sound (by simp [Place.written, innerTokens])
          (by simp [Place.isSound, isWellKinded, Condition.op, hkind])
      next hkind =>
        cases h
        exact of_place sound (by simp [Place.written, commaEnded, operandTokens])
          (decide_eq_true hkind)
      next => cases h
  case h_8 hp =>
      cases hp
      obtain ⟨value, hvalue, rfl⟩ := Option.map_eq_some_iff.1 h
      exact of_place sound (by rw [← token_of_operand? hvalue]; rfl) hplace
  case h_9 hp =>
      cases hp; cases h
      refine of_place sound ?_ hplace
      simp [Place.written, operandTokens, commaEnded_concat]
  case h_10 op column earlier last hp =>
      cases hp; cases h
      have hkind : op.kind = .membership := of_decide_eq_true hplace
      have hvalues : operandTokens (last :: earlier).reverse =
          operandTokens earlier.reverse ++ [[last.token]] := by simp [operandTokens]
      refine of_place sound ?_ (by simp [Place.isSound, isWellKinded, Condition.op, hkind])
      rw [Place.written, Place.written, innerTokens, hvalues, commaSeparated_concat]
      simp
  case h_11 condition hp =>
      cases hp; cases h
      obtain ⟨hwell, hkind⟩ := Bool.and_eq_true_iff.1 hplace
      refine of_place sound ?_ hwell
      rw [Place.written, Place.written, tokens_eq_innerTokens hwell (bne_iff_ne.1 hkind),
        List.append_cons, List.dropLast_concat]
  case h_12 condition hp =>
      cases hp; cases h
      obtain ⟨before, hbefore⟩ := condition.tokens_eq_concat
      refine of_place sound ?_ hplace
      rw [Place.written, Place.written, hbefore, List.dropLast_concat]
  case h_13 condition hp =>
      cases hp
      dsimp only at h
      split at h
      next list lists => cases h; exact of_nextInList sound
      next list lists => cases h; exact of_closeList sound
      next => cases h
  case h_14 => cases h

/-- The machine after some tokens. -/
def run (r : Reader) (tokens : List Token) : Option Reader := tokens.foldlM step r

theorem of_run {r last : Reader} {tokens : List Token} (h : r.run tokens = some last)
    (sound : r.isSound = true) :
    last.written = r.written ++ tokens ∧ last.isSound = true := by
  induction tokens generalizing r with
  | nil =>
      obtain rfl : r = last := Option.some.inj h
      exact ⟨(List.append_nil _).symm, sound⟩
  | cons token tokens ih =>
      rw [run, List.foldlM_cons] at h
      obtain ⟨next, hnext, h⟩ := Option.bind_eq_some_iff.1 h
      obtain ⟨hwritten, hsound⟩ := of_step hnext sound
      obtain ⟨hlast, hlastSound⟩ := ih h hsound
      exact ⟨by rw [hlast, hwritten, List.append_assoc]; rfl, hlastSound⟩

theorem result?_eq_some_iff {r : Reader} {condition : Condition} :
    r.result? = some condition ↔ r = ⟨.whole condition, []⟩ := by
  obtain ⟨place, lists⟩ := r
  cases place <;> cases lists <;> simp [result?]

/-- Reading succeeds where the machine takes all tokens and ends outside of any list. -/
theorem read_eq_ok_iff_run {r : Reader} {tokens : List Token} {condition : Condition} :
    r.read tokens = .ok condition ↔ r.run tokens = some ⟨.whole condition, []⟩ := by
  induction tokens generalizing r with
  | nil =>
      rw [read, run, List.foldlM_nil, Option.pure_def, Option.some.injEq, ← result?_eq_some_iff]
      cases r.result? <;> simp
  | cons token tokens ih =>
      rw [read, run, List.foldlM_cons]
      cases h : r.step token with
      | some next => exact ih
      | none => simp

/-! ### Reading what is written -/

theorem run_cons (r : Reader) (token : Token) (tokens : List Token) :
    r.run (token :: tokens) = (r.step token).bind fun next => next.run tokens := by
  rw [run, List.foldlM_cons]
  rfl

theorem run_opening (op : Operator) (lists : List OpenList) (tokens : List Token) :
    run ⟨.start, lists⟩ (opening op ++ tokens) = run ⟨.body op, lists⟩ tokens := rfl

theorem operand?_token (value : Operand) : operand? value.token = some value := by
  cases value <;> rfl

/-- After the column of a comparison or a null test, or at the list of a membership. -/
theorem run_inner {op : Operator} (h : op.kind ≠ .boolean) (column : String)
    (lists : List OpenList) (tokens : List Token) :
    run ⟨.body op, lists⟩ (.mark .openBrace :: .column column :: .mark .colon :: tokens) =
      run ⟨.value op column, lists⟩ tokens := by
  have hbrace : step ⟨.body op, lists⟩ (.mark .openBrace) = some ⟨.inner op, lists⟩ := by
    cases op <;> first | rfl | exact absurd rfl h
  rw [run_cons, hbrace]
  rfl

theorem run_operands {op : Operator} {column : String} {values : List Operand} (hne : values ≠ [])
    (earlier : List Operand) (lists : List OpenList) (tokens : List Token) :
    run ⟨.item op column earlier, lists⟩
        (commaSeparated (operandTokens values) ++ .mark .closeBracket :: tokens) =
      run ⟨.innerEnd (.membership op column (earlier.reverse ++ values)), lists⟩ tokens := by
  induction values generalizing earlier with
  | nil => exact absurd rfl hne
  | cons value values ih =>
      have hitem : step ⟨.item op column earlier, lists⟩ value.token =
          some ⟨.itemEnd op column earlier value, lists⟩ := by
        simp [step, operand?_token]
      cases values with
      | nil =>
          have htokens : commaSeparated (operandTokens [value]) ++ .mark .closeBracket :: tokens =
              value.token :: .mark .closeBracket :: tokens := rfl
          rw [htokens, run_cons, hitem, Option.bind_some, run_cons, ← List.reverse_cons]
          rfl
      | cons next rest =>
          have htokens : commaSeparated (operandTokens (value :: next :: rest)) ++
                .mark .closeBracket :: tokens =
              value.token :: .mark .comma :: (commaSeparated (operandTokens (next :: rest)) ++
                .mark .closeBracket :: tokens) := rfl
          have hrest := ih (List.cons_ne_nil _ _) (value :: earlier)
          rw [List.reverse_cons, List.append_assoc, List.singleton_append] at hrest
          rw [htokens, run_cons, hitem, Option.bind_some, run_cons, ← hrest]
          rfl

mutual

/-- The machine takes the tokens of a condition. -/
theorem run_tokens (condition : Condition) (h : condition.isWellKinded = true)
    (lists : List OpenList) (tokens : List Token) :
    run ⟨.start, lists⟩ (condition.tokens ++ tokens) = run ⟨.whole condition, lists⟩ tokens := by
  match condition with
  | comparison op column value =>
      have hkind : op.kind = .comparison := of_decide_eq_true h
      have hvalue : step ⟨.value op column, lists⟩ value.token =
          some ⟨.innerEnd (.comparison op column value), lists⟩ := by
        simp [step, hkind, operand?_token]
      simp only [Condition.tokens, List.append_assoc, List.cons_append, List.nil_append]
      rw [run_opening, run_inner (by simp [hkind]), run_cons, hvalue]
      rfl
  | nullTest op column =>
      have hkind : op.kind = .nullTest := of_decide_eq_true h
      have hvalue : step ⟨.value op column, lists⟩ .null =
          some ⟨.innerEnd (.nullTest op column), lists⟩ := by simp [step, hkind]
      simp only [Condition.tokens, List.append_assoc, List.cons_append, List.nil_append]
      rw [run_opening, run_inner (by simp [hkind]), run_cons, hvalue]
      rfl
  | membership op column values =>
      rw [isWellKinded, Bool.and_eq_true, decide_eq_true_eq] at h
      obtain ⟨hkind, hne⟩ := h
      have hvalue : step ⟨.value op column, lists⟩ (.mark .openBracket) =
          some ⟨.item op column [], lists⟩ := by simp [step, hkind]
      simp only [Condition.tokens, List.append_assoc, List.cons_append, List.nil_append]
      rw [run_opening, run_inner (by simp [hkind]), run_cons, hvalue, Option.bind_some,
        run_operands (by simpa using hne)]
      rfl
  | boolean op conditions =>
      rw [isWellKinded, Bool.and_eq_true, Bool.and_eq_true, decide_eq_true_eq] at h
      obtain ⟨⟨hkind, hne⟩, hconditions⟩ := h
      have hlist : step ⟨.body op, lists⟩ (.mark .openBracket) =
          some ⟨.start, ⟨op, []⟩ :: lists⟩ := by simp [step, hkind]
      simp only [Condition.tokens, List.append_assoc, List.cons_append, List.nil_append]
      rw [run_opening, run_cons, hlist, Option.bind_some,
        run_listTokens conditions hconditions (by simpa using hne)]
      rfl

theorem run_listTokens (conditions : List Condition) (h : areWellKinded conditions = true)
    (hne : conditions ≠ []) (op : Operator) (earlier : List Condition) (lists : List OpenList)
    (tokens : List Token) :
    run ⟨.start, ⟨op, earlier⟩ :: lists⟩
        (commaSeparated (listTokens conditions) ++ .mark .closeBracket :: tokens) =
      run ⟨.outerEnd (.boolean op (earlier.reverse ++ conditions)), lists⟩ tokens := by
  match conditions with
  | [] => exact absurd rfl hne
  | [condition] =>
      rw [areWellKinded, Bool.and_eq_true] at h
      rw [listTokens, listTokens, commaSeparated, run_tokens condition h.1, run_cons,
        ← List.reverse_cons]
      rfl
  | condition :: next :: rest =>
      rw [areWellKinded, Bool.and_eq_true] at h
      have htokens : commaSeparated (listTokens (condition :: next :: rest)) ++
            .mark .closeBracket :: tokens =
          condition.tokens ++ .mark .comma :: (commaSeparated (listTokens (next :: rest)) ++
            .mark .closeBracket :: tokens) := by
        simp only [listTokens, commaSeparated, List.append_assoc, List.cons_append]
      have hrest := run_listTokens (next :: rest) h.2 (List.cons_ne_nil _ _) op
        (condition :: earlier) lists tokens
      rw [List.reverse_cons, List.append_assoc, List.singleton_append] at hrest
      rw [htokens, run_tokens condition h.1, run_cons, ← hrest]
      rfl

end

/-- What is read are the tokens of well kinded conditions. -/
theorem read_eq_ok_iff {tokens : List Token} {condition : Condition} :
    initial.read tokens = .ok condition ↔
      tokens = condition.tokens ∧ condition.isWellKinded = true := by
  rw [read_eq_ok_iff_run]
  constructor
  · intro h
    obtain ⟨hwritten, hsound⟩ := of_run h rfl
    exact ⟨hwritten.symm, (Bool.and_eq_true_iff.1 hsound).1⟩
  · rintro ⟨rfl, h⟩
    have hrun := run_tokens condition h [] []
    rwa [List.append_nil] at hrun

end Reader

end Condition

end EntityQuery
