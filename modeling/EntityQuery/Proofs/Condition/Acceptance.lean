import EntityQuery.Proofs.Condition.Rereading

/-!
# What is read as a condition

A text is read as a condition exactly if its tokens are those of the condition,
written down with operators of the right kinds and without empty lists
(`parse_eq_ok_iff_tokens`). So no list of tokens has two readings, tokens after
a condition are an error of their own, and text that is no token is reported
wherever it stands, whatever else is wrong.
-/

namespace EntityQuery.Condition

namespace Reader

/-- Reading goes on from where the machine has got to. -/
theorem read_append {r next : Reader} {tokens : List Token} (h : r.run tokens = some next)
    (rest : List Token) : r.read (tokens ++ rest) = next.read rest := by
  induction tokens generalizing r with
  | nil =>
      obtain rfl : r = next := Option.some.inj h
      rfl
  | cons token tokens ih =>
      rw [run_cons] at h
      obtain ⟨second, hsecond, h⟩ := Option.bind_eq_some_iff.1 h
      rw [List.cons_append, read, hsecond]
      exact ih h

/-- The first token after a whole condition does not belong there. -/
theorem read_trailing {condition : Condition} (h : condition.isWellKinded = true) (token : Token)
    (rest : List Token) :
    initial.read (condition.tokens ++ token :: rest) = .error ⟨some token, [.endOfInput]⟩ := by
  have hrun := run_tokens condition h [] []
  rw [List.append_nil] at hrun
  exact read_append hrun (token :: rest)

end Reader

/-- Conditions of the right kinds are told apart by their tokens. -/
theorem tokens_inj {condition other : Condition} (h : condition.isWellKinded = true)
    (h' : other.isWellKinded = true) (heq : condition.tokens = other.tokens) :
    condition = other := by
  have hread : Reader.initial.read condition.tokens = .ok condition :=
    Reader.read_eq_ok_iff.2 ⟨rfl, h⟩
  have hother : Reader.initial.read condition.tokens = .ok other :=
    Reader.read_eq_ok_iff.2 ⟨heq, h'⟩
  exact Except.ok.inj (hread.symm.trans hother)

variable {source : String} {error : Error}

theorem parse_of_lex {placed : List (Placed Token)} (h : lex source = .ok placed) :
    parse source = (Reader.initial.read (placed.map Placed.value)).mapError .malformed := by
  rw [parse, h]
  simp only [bind, Except.bind]
  cases Reader.initial.read (placed.map Placed.value) <;> rfl

/-- Text that is no token is an error before any syntax error. -/
theorem parse_of_lex_error (h : lex source = .error error) : parse source = .error error := by
  rw [parse, h]
  rfl

theorem classify_ne_malformed (lexeme : Placed Lexeme) (syntaxError : SyntaxError) :
    classify lexeme ≠ .error (.malformed syntaxError) := by
  intro h
  have hfails := fails_of_classify h
  generalize lexeme.value = value at hfails
  cases hfails

/-- A text is read as a condition exactly if it has the tokens of the condition
and the condition has operators of the right kinds and no empty list. Hence
tokens have one reading, a token after the condition is the error, and a lexeme
that is no token is reported before any token that does not fit. -/
theorem parse_eq_ok_iff_tokens :
    (∀ source condition, parse source = .ok condition ↔
      (∃ placed, lex source = .ok placed ∧ placed.map Placed.value = condition.tokens) ∧
        condition.isWellKinded = true) ∧
    (∀ condition other : Condition, condition.isWellKinded = true → other.isWellKinded = true →
      condition.tokens = other.tokens → condition = other) ∧
    (∀ source placed (condition : Condition) token rest, condition.isWellKinded = true →
      lex source = .ok placed → placed.map Placed.value = condition.tokens ++ token :: rest →
      parse source = .error (.malformed ⟨some token, [.endOfInput]⟩)) ∧
    (∀ source, ∀ lexeme ∈ scan 0 source.toList, ∀ error, classify lexeme = .error error →
      ∃ error, lex source = .error error ∧ parse source = .error error ∧
        ∀ syntaxError, error ≠ .malformed syntaxError) := by
  refine ⟨fun source condition => ?_, fun _ _ => tokens_inj, ?_, ?_⟩
  · rw [parse_eq_ok_iff_lex]
    constructor
    · rintro ⟨placed, hlex, hread⟩
      obtain ⟨htokens, hkinded⟩ := Reader.read_eq_ok_iff.1 hread
      exact ⟨⟨placed, hlex, htokens⟩, hkinded⟩
    · rintro ⟨⟨placed, hlex, htokens⟩, hkinded⟩
      exact ⟨placed, hlex, Reader.read_eq_ok_iff.2 ⟨htokens, hkinded⟩⟩
  · intro source placed condition token rest hkinded hlex htokens
    rw [parse_of_lex hlex, htokens, Reader.read_trailing hkinded]
    rfl
  · intro source lexeme hmem error herror
    obtain ⟨first, -, error, hfirst, hlex⟩ := exists_mapM_eq_error hmem herror
    refine ⟨error, hlex, parse_of_lex_error hlex, ?_⟩
    rintro syntaxError rfl
    exact classify_ne_malformed first syntaxError hfirst

/-- Grown-ups, and whoever has one of two roles. -/
def grownUps : Condition :=
  .boolean .or [.comparison .gte "u.age" (.number "18"),
    .membership .isIn "u.role" [.parameter "role", .column "u.other"]]

theorem parse_eq_ok_iff_tokens_grownUps :
    parse grownUps.toJson.text = .ok grownUps ∧
      parse (grownUps.toJson.text ++ " null") = .error (.malformed ⟨some .null, [.endOfInput]⟩) ∧
      ∃ error, lex "] oops" = .error error ∧ parse "] oops" = .error error ∧
        ∀ syntaxError, error ≠ .malformed syntaxError := by
  obtain ⟨hread, -, htrailing, hlexical⟩ := parse_eq_ok_iff_tokens
  have hkinded : grownUps.isWellKinded = true := by decide
  refine ⟨?_, ?_, ?_⟩
  · exact (hread _ _).2 ⟨exists_lex_of_map (by decide +kernel), hkinded⟩
  · have hlex : (lex (grownUps.toJson.text ++ " null")).map (List.map Placed.value) =
        .ok (grownUps.tokens ++ [.null]) := by decide +kernel
    obtain ⟨placed, hlex, htokens⟩ := exists_lex_of_map hlex
    exact htrailing _ placed grownUps .null [] hkinded hlex htokens
  · have hscan : scan 0 "] oops".toList =
        [⟨.mark .closeBracket, 0, 1⟩, ⟨.word ['o', 'o', 'p', 's'], 2, 6⟩] := by
      change scan 0 [']', ' ', 'o', 'o', 'p', 's'] = _
      rw [scan, if_neg (by decide)]
      change _ :: scan 1 [' ', 'o', 'o', 'p', 's'] = _
      rw [scan, if_pos (by decide), scan, if_neg (by decide)]
      change _ :: _ :: scan 6 [] = _
      rw [scan]
      rfl
    refine hlexical _ ⟨.word ['o', 'o', 'p', 's'], 2, 6⟩ ?_ (.unexpectedText "oops" 2) rfl
    rw [hscan]
    exact List.mem_cons_of_mem _ List.mem_cons_self

end EntityQuery.Condition
