import EntityQuery.Proofs.Condition.Acceptance
import EntityQuery.Proofs.Condition.Places
import Mathlib.Order.Bounds.Basic

/-!
# Where reading a condition fails

Tokens that are no condition are blamed for the first of them that cannot go on:
the tokens before it begin some condition, with it they begin none, and what is
named as expected are the tokens that could stand in its place (`parse_malformed`).

The reason is that the machine never gets stuck in a place that it could not have
left otherwise. Whatever has been read can be completed (`canFinish`), so a token that
the machine takes begins a condition with those before it, and what the machine
expects is what it takes (`exists_expected_iff`).
-/

namespace EntityQuery.Condition

/-- Whether a token, or the end of the input, is of an expected kind. -/
def Expectation.admits : Expectation → Option Token → Bool
  | mark m, some (.mark other) => m = other
  | operator kind, some (.operator op) => op.kind = kind
  | column, some (.column _) => true
  | operand, some token => (Reader.operand? token).isSome
  | null, some .null => true
  | endOfInput, none => true
  | _, _ => false

/-- What a kind of token is called: a mark by itself in quotes, any other kind in words. -/
def Expectation.name : Expectation → String
  | mark .openBrace => "'\x7b'"
  | mark .closeBrace => "'\x7d'"
  | mark .openBracket => "'['"
  | mark .closeBracket => "']'"
  | mark .colon => "':'"
  | mark .comma => "','"
  | operator .comparison => "comparison operator"
  | operator .nullTest => "null comparison operator"
  | operator .membership => "in comparison operator"
  | operator .boolean => "boolean operator"
  | column => "column"
  | operand => "column, parameter or number"
  | null => "'null'"
  | endOfInput => "end of input"

/-- Names with commas between them, and with "or" before the last of several. -/
def alternatives (names : List String) : String :=
  ", ".intercalate names.dropLast ++ (if names.length ≤ 1 then "" else ", or ") ++
    names.getLast?.getD ""

/-- What was found at a place: the text that stands there in the source, in quotes, or the end of
the input. -/
inductive IsFound (source : String) : Option (Placed Token) → String → Prop
  | endOfInput : IsFound source none "end of input"
  | token {placed : Placed Token} {text : String} (stands : StandsAt source text placed.start)
      (whole : placed.stop = placed.start + text.utf8ByteSize) :
      IsFound source (some placed) ("'" ++ text ++ "'")

/-- The plainest column. -/
theorem isWritable_column : Token.IsWritable (.column "") :=
  ⟨.nil, nofun, fun op => by cases op <;> decide⟩

/-- The plainest number. -/
theorem isWritable_number : Token.IsWritable (.number "0") := isNumber_iff.1 (by decide)

/-- Every kind has a token that can be written, or is the end of the input. -/
theorem Expectation.exists_admits (x : Expectation) :
    ∃ next, (∀ t ∈ next, t.IsWritable) ∧ x.admits next = true := by
  cases x with
  | mark m => exact ⟨some (.mark m), fun _ ht => Option.mem_some.1 ht ▸ trivial, by simp [admits]⟩
  | operator kind =>
      have hop : ∃ op : Operator, op.kind = kind := by
        cases kind
        exacts [⟨.eq, rfl⟩, ⟨.isNull, rfl⟩, ⟨.isIn, rfl⟩, ⟨.and, rfl⟩]
      obtain ⟨op, rfl⟩ := hop
      exact ⟨some (.operator op), fun _ ht => Option.mem_some.1 ht ▸ trivial, by simp [admits]⟩
  | column => exact ⟨some (.column ""), fun _ ht => Option.mem_some.1 ht ▸ isWritable_column, rfl⟩
  | operand => exact ⟨some (.number "0"), fun _ ht => Option.mem_some.1 ht ▸ isWritable_number, rfl⟩
  | null => exact ⟨some .null, fun _ ht => Option.mem_some.1 ht ▸ trivial, rfl⟩
  | endOfInput => exact ⟨none, nofun, rfl⟩

/-- Tokens of a text that is read as a condition. -/
def IsConditionTokens (tokens : List Token) : Prop :=
  ∃ source condition placed, parse source = .ok condition ∧ lex source = .ok placed ∧
    placed.map Placed.value = tokens

/-- Whether a token, or the end of the input, follows some tokens in a condition. -/
def CanStand (before : List Token) (next : Option Token) : Prop :=
  ∃ whole, IsConditionTokens whole ∧ before <+: whole ∧ whole[before.length]? = next

namespace Reader

/-- Whether the machine takes a token, or the end of the input. -/
def takes (r : Reader) : Option Token → Bool
  | some token => (r.step token).isSome
  | none => r.result?.isSome

/-- Some tokens complete what has been read. -/
def CanFinish (r : Reader) : Prop :=
  ∃ rest condition, (∀ t ∈ rest, t.IsWritable) ∧ r.run rest = some ⟨.whole condition, []⟩

variable {r next : Reader} {before tokens : List Token}

/-! ### Completion -/

theorem CanFinish.of_step (h : next.CanFinish) (token : Token) (hstep : r.step token = some next)
    (writable : token.IsWritable) : r.CanFinish := by
  obtain ⟨rest, condition, hrest, hrun⟩ := h
  refine ⟨token :: rest, condition, List.forall_mem_cons.2 ⟨writable, hrest⟩, ?_⟩
  rw [run_cons, hstep]
  exact hrun

theorem CanFinish.of_mark (h : next.CanFinish) (m : Mark) (hstep : r.step (.mark m) = some next) :
    r.CanFinish := h.of_step (.mark m) hstep trivial

theorem canFinish_whole (condition : Condition) (lists : List OpenList) :
    CanFinish ⟨.whole condition, lists⟩ := by
  induction lists generalizing condition with
  | nil => exact ⟨[], condition, List.forall_mem_nil _, rfl⟩
  | cons list lists ih =>
      have houter : CanFinish ⟨.outerEnd (.boolean list.op (condition :: list.earlier).reverse),
          lists⟩ := (ih _).of_mark .closeBrace rfl
      exact houter.of_mark .closeBracket rfl

theorem canFinish_innerEnd (condition : Condition) (lists : List OpenList) :
    CanFinish ⟨.innerEnd condition, lists⟩ := by
  have houter : CanFinish ⟨.outerEnd condition, lists⟩ :=
    (canFinish_whole condition lists).of_mark .closeBrace rfl
  exact houter.of_mark .closeBrace rfl

theorem canFinish_item (op : Operator) (column : String) (earlier : List Operand)
    (lists : List OpenList) : CanFinish ⟨.item op column earlier, lists⟩ := by
  have hend : CanFinish ⟨.itemEnd op column earlier (.number "0"), lists⟩ :=
    (canFinish_innerEnd _ lists).of_mark .closeBracket rfl
  exact hend.of_step (.number "0") rfl isWritable_number

theorem canFinish_value {op : Operator} (h : op.kind ≠ .boolean) (column : String)
    (lists : List OpenList) : CanFinish ⟨.value op column, lists⟩ := by
  cases hkind : op.kind with
  | comparison =>
      refine (canFinish_innerEnd (.comparison op column (.number "0")) lists).of_step
        (.number "0") ?_ isWritable_number
      simp [step, hkind, operand?]
  | nullTest =>
      refine (canFinish_innerEnd (.nullTest op column) lists).of_step .null ?_ trivial
      simp [step, hkind]
  | membership =>
      refine (canFinish_item op column [] lists).of_mark .openBracket ?_
      simp [step, hkind]
  | boolean => exact absurd hkind h

theorem canFinish_inner {op : Operator} (h : op.kind ≠ .boolean) (lists : List OpenList) :
    CanFinish ⟨.inner op, lists⟩ := by
  have hsubject : CanFinish ⟨.subject op "", lists⟩ :=
    (canFinish_value h "" lists).of_mark .colon rfl
  exact hsubject.of_step (.column "") rfl isWritable_column

theorem canFinish_opened (lists : List OpenList) : CanFinish ⟨.opened, lists⟩ := by
  have hbody : CanFinish ⟨.body .eq, lists⟩ :=
    (canFinish_inner (by decide) lists).of_mark .openBrace rfl
  have hnamed : CanFinish ⟨.named .eq, lists⟩ := hbody.of_mark .colon rfl
  exact hnamed.of_step (.operator .eq) rfl trivial

theorem canFinish_body (op : Operator) (lists : List OpenList) : CanFinish ⟨.body op, lists⟩ := by
  by_cases hkind : op.kind = .boolean
  · have hstart : CanFinish ⟨.start, ⟨op, []⟩ :: lists⟩ :=
      (canFinish_opened _).of_mark .openBrace rfl
    refine hstart.of_mark .openBracket ?_
    simp [step, hkind]
  · refine (canFinish_inner hkind lists).of_mark .openBrace ?_
    cases op <;> first | rfl | exact absurd rfl hkind

/-- Whatever has been read can be completed. -/
theorem canFinish (sound : r.isSound = true) : r.CanFinish := by
  obtain ⟨place, lists⟩ := r
  have hplace : place.isSound = true := (Bool.and_eq_true_iff.1 sound).1
  cases place with
  | start => exact (canFinish_opened lists).of_mark .openBrace rfl
  | opened => exact canFinish_opened lists
  | named op => exact (canFinish_body op lists).of_mark .colon rfl
  | body op => exact canFinish_body op lists
  | inner op => exact canFinish_inner (bne_iff_ne.1 hplace) lists
  | subject op column =>
      exact (canFinish_value (bne_iff_ne.1 hplace) column lists).of_mark .colon rfl
  | value op column => exact canFinish_value (bne_iff_ne.1 hplace) column lists
  | item op column earlier => exact canFinish_item op column earlier lists
  | itemEnd op column earlier last =>
      exact (canFinish_innerEnd _ lists).of_mark .closeBracket rfl
  | innerEnd condition => exact canFinish_innerEnd condition lists
  | outerEnd condition =>
      exact (canFinish_whole condition lists).of_mark .closeBrace rfl
  | whole condition => exact canFinish_whole condition lists

/-! ### Expectations -/

/-- What the machine takes is of one expected kind, and nothing else is of any. -/
theorem countP_expected (r : Reader) (next : Option Token) :
    r.expected.countP (·.admits next) = (r.takes next).toNat := by
  obtain ⟨place, lists⟩ := r
  rcases next with _ | (m | raw | spelling | _ | name | op)
  case some.mark =>
    cases place with
    | body op | value op column => cases op <;> cases m <;> rfl
    | whole condition => cases lists <;> cases m <;> rfl
    | _ => cases m <;> rfl
  case some.operator =>
    cases place with
    | opened => cases op <;> rfl
    | body other | value other column => cases other <;> rfl
    | whole condition => cases lists <;> rfl
    | _ => rfl
  all_goals
    cases place with
    | body op | value op column => cases op <;> rfl
    | whole condition => cases lists <;> rfl
    | _ => rfl

theorem exists_expected_iff {next : Option Token} :
    (∃ x ∈ r.expected, x.admits next = true) ↔ r.takes next = true := by
  rw [← List.countP_pos_iff, countP_expected]
  cases r.takes next <;> decide

/-- Something is expected wherever reading has come to. -/
theorem expected_ne_nil (h : initial.run tokens = some r) : r.expected ≠ [] := by
  obtain ⟨rest, condition, -, hrun⟩ := canFinish (of_run h rfl).2
  have htakes : r.takes rest.head? = true := by
    cases rest with
    | nil => rw [Option.some.inj hrun]; rfl
    | cons token rest =>
        rw [run_cons] at hrun
        obtain ⟨after, hstep, -⟩ := Option.bind_eq_some_iff.1 hrun
        exact Option.isSome_iff_exists.2 ⟨after, hstep⟩
  obtain ⟨x, hx, -⟩ := exists_expected_iff.2 htakes
  exact List.ne_nil_of_mem hx

/-! ### What can stand somewhere -/

theorem run_append (r : Reader) (tokens more : List Token) :
    r.run (tokens ++ more) = (r.run tokens).bind fun next => next.run more :=
  List.foldlM_append

theorem isConditionTokens_iff : IsConditionTokens tokens ↔
    (∀ t ∈ tokens, t.IsWritable) ∧
      ∃ condition, initial.run tokens = some ⟨.whole condition, []⟩ := by
  constructor
  · rintro ⟨source, condition, placed, hparse, hlex, rfl⟩
    obtain ⟨placed', hlex', hread⟩ := parse_eq_ok_iff_lex.1 hparse
    obtain rfl := Except.ok.inj (hlex'.symm.trans hlex)
    exact ⟨isWritable_of_lex hlex, condition, read_eq_ok_iff_run.1 hread⟩
  · rintro ⟨hwritable, condition, hrun⟩
    obtain ⟨source, placed, hlex, rfl⟩ := exists_lex_of_isWritable hwritable
    exact ⟨source, condition, placed,
      parse_eq_ok_iff_lex.2 ⟨placed, hlex, read_eq_ok_iff_run.2 hrun⟩, hlex, rfl⟩

/-- What the machine has taken begins a condition. -/
theorem exists_prefix_of_run (h : initial.run tokens = some r)
    (writable : ∀ t ∈ tokens, t.IsWritable) :
    ∃ whole, IsConditionTokens whole ∧ tokens <+: whole := by
  obtain ⟨rest, condition, hrest, hrun⟩ := canFinish (of_run h rfl).2
  refine ⟨tokens ++ rest, isConditionTokens_iff.2 ⟨?_, condition, ?_⟩, List.prefix_append _ _⟩
  · exact List.forall_mem_append.2 ⟨writable, hrest⟩
  · rw [run_append, h]
    exact hrun

/-- The machine takes what can stand after the tokens that it has taken. -/
theorem takes_iff_canStand (h : initial.run before = some r)
    (writable : ∀ t ∈ before, t.IsWritable) {next : Option Token}
    (hnext : ∀ t ∈ next, t.IsWritable) : r.takes next = true ↔ CanStand before next := by
  constructor
  · intro htakes
    cases next with
    | none =>
        obtain ⟨condition, hresult⟩ := Option.isSome_iff_exists.1 htakes
        rw [result?_eq_some_iff.1 hresult] at h
        exact ⟨before, isConditionTokens_iff.2 ⟨writable, condition, h⟩, List.prefix_rfl,
          List.getElem?_length before⟩
    | some token =>
        obtain ⟨after, hstep⟩ := Option.isSome_iff_exists.1 htakes
        have hrun : initial.run (before ++ [token]) = some after := by
          rw [run_append, h, Option.bind_some, run_cons, hstep]
          rfl
        obtain ⟨whole, hwhole, rest, rfl⟩ := exists_prefix_of_run hrun
          (List.forall_mem_append.2 ⟨writable, List.forall_mem_singleton.2 (hnext token rfl)⟩)
        rw [List.append_assoc, List.singleton_append] at hwhole
        exact ⟨_, hwhole, List.prefix_append _ _, by simp⟩
  · rintro ⟨whole, hwhole, ⟨rest, rfl⟩, rfl⟩
    obtain ⟨-, condition, hrun⟩ := isConditionTokens_iff.1 hwhole
    rw [run_append, h, Option.bind_some] at hrun
    rw [List.getElem?_append_right le_rfl, Nat.sub_self]
    cases rest with
    | nil =>
        obtain rfl : r = _ := Option.some.inj hrun
        rfl
    | cons token rest =>
        rw [run_cons] at hrun
        obtain ⟨after, hstep, -⟩ := Option.bind_eq_some_iff.1 hrun
        exact Option.isSome_iff_exists.2 ⟨after, hstep⟩

/-- Reading fails at the first token that the machine does not take. -/
theorem of_read_error {error : SyntaxError} (h : r.read tokens = .error error) :
    ∃ n last, n ≤ tokens.length ∧ r.run (tokens.take n) = some last ∧
      last.takes tokens[n]? = false ∧ error = ⟨tokens[n]?, last.expected⟩ := by
  induction tokens generalizing r with
  | nil =>
      refine ⟨0, r, Nat.le_refl _, rfl, ?_⟩
      rw [read] at h
      cases hresult : r.result? with
      | some condition => rw [hresult] at h; cases h
      | none =>
          rw [hresult] at h
          exact ⟨by simp [takes, hresult], (Except.error.inj h).symm⟩
  | cons token tokens ih =>
      rw [read] at h
      cases hstep : r.step token with
      | some next =>
          rw [hstep] at h
          obtain ⟨n, last, hn, hrun, htakes, herror⟩ := ih h
          refine ⟨n + 1, last, Nat.succ_le_succ hn, ?_, htakes, herror⟩
          rw [List.take_succ_cons, run_cons, hstep]
          exact hrun
      | none =>
          rw [hstep] at h
          refine ⟨0, r, Nat.zero_le _, rfl, ?_, (Except.error.inj h).symm⟩
          simp [takes, hstep]

end Reader

/-! ### Messages -/

theorem Expectation.text_eq_name (x : Expectation) : x.text = x.name := by
  cases x with
  | mark m => cases m <;> decide
  | operator kind => cases kind <;> rfl
  | column | operand | null | endOfInput => rfl

theorem alternatives_cons {first : String} {names : List String} (h : 1 < names.length) :
    alternatives (first :: names) = first ++ ", " ++ alternatives names := by
  obtain _ | ⟨second, _ | ⟨third, rest⟩⟩ := names
  · cases h
  · exact absurd h (Nat.lt_irrefl 1)
  · have hseveral : ∀ n : Nat, (if n + 1 + 1 ≤ 1 then "" else ", or ") = ", or " := fun n =>
      if_neg (by omega)
    simp only [alternatives, List.dropLast_cons_cons, List.length_cons, hseveral,
      List.getLast?_cons_cons, String.intercalate_cons_cons, String.append_assoc]

theorem listText_eq_alternatives (expected : List Expectation) :
    Expectation.listText expected = alternatives (expected.map Expectation.name) := by
  fun_induction Expectation.listText expected with
  | case1 => rfl
  | case2 last => exact last.text_eq_name
  | case3 first last =>
      rw [first.text_eq_name, last.text_eq_name]
      rfl
  | case4 first rest hnil hone ih =>
      have hlength : 1 < (rest.map Expectation.name).length := by
        obtain _ | ⟨second, _ | ⟨third, rest⟩⟩ := rest
        · exact absurd rfl hnil
        · exact absurd rfl (hone second)
        · simp
      rw [List.map_cons, alternatives_cons hlength, ih, first.text_eq_name]

/-- A message says what stands in the source at the place that it blames. -/
theorem exists_isFound {source : String} {placed : List (Placed Token)}
    (lexed : lex source = .ok placed) (n : Nat) (expected : List Expectation) :
    ∃ found, IsFound source placed[n]? found ∧
      (Error.malformed ⟨(placed.map Placed.value)[n]?, expected⟩).message =
        "invalid condition: found " ++ found ++ " expected " ++
          alternatives (expected.map Expectation.name) := by
  rw [← listText_eq_alternatives, List.getElem?_map]
  cases hplaced : placed[n]? with
  | none => exact ⟨_, .endOfInput, rfl⟩
  | some p =>
      obtain ⟨hstands, hstop⟩ := standsAt_of_lex lexed (List.mem_of_getElem? hplaced)
      exact ⟨_, .token hstands hstop, rfl⟩

/-- Tokens that are no condition are blamed for the first one that cannot go on.

The tokens before it are the most that begin a condition. The message names it as found by its
text in the source, or the end of the input if all of them do, and it names as expected, each by
its name, the kinds of what could stand in its place: every token that could is of one of them,
and they admit nothing else. -/
theorem parse_malformed {source : String} {placed : List (Placed Token)} {error : Error}
    (lexed : lex source = .ok placed) (failed : parse source = .error error) :
    ∃ n expected found,
      let tokens := placed.map Placed.value
      IsGreatest {k | k ≤ tokens.length ∧
        ∃ whole, IsConditionTokens whole ∧ tokens.take k <+: whole} n ∧
      error = .malformed ⟨tokens[n]?, expected⟩ ∧
      error.message = "invalid condition: found " ++ found ++ " expected " ++
        alternatives (expected.map Expectation.name) ∧
      IsFound source placed[n]? found ∧ expected ≠ [] ∧
      (∀ next, (∀ t ∈ next, t.IsWritable) →
        ((∃ x ∈ expected, x.admits next = true) ↔ CanStand (tokens.take n) next)) ∧
      (∀ x ∈ expected, ∃ next, x.admits next = true ∧ CanStand (tokens.take n) next) ∧
      ∀ next, expected.countP (·.admits next) ≤ 1 := by
  rw [parse_of_lex lexed] at failed
  obtain ⟨syntaxError, hread, rfl⟩ := mapError_eq_error.1 failed
  obtain ⟨n, last, hn, hrun, htakes, rfl⟩ := Reader.of_read_error hread
  have hwritable := isWritable_of_lex lexed
  have hbefore : ∀ t ∈ (placed.map Placed.value).take n, t.IsWritable :=
    fun t ht => hwritable t (List.mem_of_mem_take ht)
  have hexpected : ∀ next : Option Token, (∀ t ∈ next, t.IsWritable) →
      ((∃ x ∈ last.expected, x.admits next = true) ↔
        CanStand ((placed.map Placed.value).take n) next) := fun next hnext => by
    rw [Reader.exists_expected_iff]
    exact Reader.takes_iff_canStand hrun hbefore hnext
  obtain ⟨found, hfound, hmessage⟩ := exists_isFound lexed n last.expected
  refine ⟨n, last.expected, found, ⟨⟨hn, Reader.exists_prefix_of_run hrun hbefore⟩, ?_⟩, rfl,
    hmessage, hfound, Reader.expected_ne_nil hrun, hexpected, fun x hx => ?_, fun next => ?_⟩
  · -- a longer beginning of a condition would make the machine take the token
    rintro k ⟨hk, whole, hwhole, rest, rfl⟩
    by_contra hlt
    have hnext : CanStand ((placed.map Placed.value).take n) (placed.map Placed.value)[n]? := by
      refine ⟨_, hwhole, ?_, ?_⟩
      · exact (List.take_prefix_take_left (by omega)).trans (List.prefix_append _ _)
      · rw [List.length_take_of_le hn, List.getElem?_append_left (by rw [List.length_take]; omega),
          List.getElem?_take_of_lt (by omega)]
    rw [← Reader.takes_iff_canStand hrun hbefore] at hnext
    · rw [htakes] at hnext
      cases hnext
    · exact fun t ht => hwritable t (List.mem_of_getElem? ht)
  · obtain ⟨next, hnext, hadmits⟩ := x.exists_admits
    exact ⟨next, hadmits, (hexpected next hnext).1 ⟨x, hx, hadmits⟩⟩
  · rw [Reader.countP_expected]
    exact Bool.toNat_le _

/-- A list whose values have no comma between them, and a brace that nothing follows. -/
theorem parse_malformed_list :
    ∃ placed n, lex "\x7b\"$in\": \x7b\"a\": [1 2]\x7d\x7d" = .ok placed ∧
      parse "\x7b\"$in\": \x7b\"a\": [1 2]\x7d\x7d" =
        .error (.malformed ⟨some (.number "2"), [.mark .comma, .mark .closeBracket]⟩) ∧
      (placed.map Placed.value)[n]? = some (.number "2") ∧
      CanStand ((placed.map Placed.value).take n) (some (.mark .comma)) ∧
      ¬CanStand ((placed.map Placed.value).take n) (some (.number "2")) ∧
      (parse "\x7b\"$in\": \x7b\"a\": [1 2]\x7d\x7d").mapError Error.message =
        .error "invalid condition: found '2' expected ',', or ']'" ∧
      (parse "\x7b").mapError Error.message =
        .error ("invalid condition: found end of input expected comparison operator, " ++
          "null comparison operator, in comparison operator, or boolean operator") := by
  let tokens : List Token := [.mark .openBrace, .operator .isIn, .mark .colon, .mark .openBrace,
    .column "a", .mark .colon, .mark .openBracket, .number "1", .number "2", .mark .closeBracket,
    .mark .closeBrace, .mark .closeBrace]
  obtain ⟨placed, hlex, htokens⟩ := exists_lex_of_map (by decide +kernel :
    (lex "\x7b\"$in\": \x7b\"a\": [1 2]\x7d\x7d").map (List.map Placed.value) = .ok tokens)
  have hparse : parse "\x7b\"$in\": \x7b\"a\": [1 2]\x7d\x7d" =
      .error (.malformed ⟨some (.number "2"), [.mark .comma, .mark .closeBracket]⟩) := by
    rw [parse_of_lex hlex, htokens]
    rfl
  obtain ⟨n, expected, found, -, herror, -, -, -, hexpected, -⟩ := parse_malformed hlex hparse
  obtain ⟨hfound, rfl⟩ := SyntaxError.mk.inj (Error.malformed.inj herror)
  refine ⟨placed, n, hlex, hparse, hfound.symm, ?_, ?_, ?_, ?_⟩
  · exact (hexpected (some (.mark .comma)) fun _ ht => Option.mem_some.1 ht ▸ trivial).1
      ⟨.mark .comma, List.mem_cons_self, rfl⟩
  · intro hstand
    have htwo : Token.IsWritable (.number "2") := isNumber_iff.1 (by decide)
    obtain ⟨x, hx, hadmits⟩ :=
      (hexpected (some (.number "2")) fun _ ht => Option.mem_some.1 ht ▸ htwo).2 hstand
    simp only [List.mem_cons, List.not_mem_nil, or_false] at hx
    rcases hx with rfl | rfl <;> cases hadmits
  · rw [hparse]
    exact congrArg Except.error (by decide +kernel)
  · obtain ⟨brace, hbrace, hmark⟩ := exists_lex_of_map (by decide +kernel :
      (lex "\x7b").map (List.map Placed.value) = .ok [.mark .openBrace])
    rw [parse_of_lex hbrace, hmark]
    exact congrArg Except.error (by decide +kernel)

end EntityQuery.Condition
