import EntityQuery.Proofs.Except
import EntityQuery.Proofs.Runs
import EntityQuery.Settings.Reference

/-!
# References are replaced once, from left to right

A text splits in one way into references and characters that stand for themselves
(`Reference.IsSplit`). To expand it replaces every reference of that split by the value of its
variable and keeps all else; values are not split again. It fails for the first variable that
the environment has no text for, because it is not set or because its value is no text.
-/

namespace EntityQuery

namespace Environment

/-- Whether a variable is set, be it to a text or not. -/
def IsSet (environment : Environment) (name : String) : Prop :=
  environment.answer name ≠ .error .notPresent

/-- Where nothing is set but texts, the variables with a text are those that are set. -/
theorem hasText_iff_isSet {environment : Environment}
    (texts : ∀ name, environment.answer name ≠ .error .notUnicode) (name : String) :
    environment.HasText name ↔ environment.IsSet name := by
  rw [HasText, IsSet]
  cases hanswer : environment.answer name with
  | ok text => exact iff_of_true ⟨text, rfl⟩ nofun
  | error error =>
      cases error with
      | notPresent => exact iff_of_false nofun (absurd rfl)
      | notUnicode => exact absurd hanswer (texts name)

theorem answer_ofDict_ne (texts : Dict String) (name : String) :
    (ofDict texts).answer name ≠ .error .notUnicode := by
  rw [ofDict]
  dsimp only
  split <;> exact nofun

end Environment

namespace Reference

/-- A piece as it may stand before the rest of a text. -/
inductive Piece.Fits : Piece → List Char → Prop
  | plain {c : Char} {rest : List Char} (other : c ≠ '$') : Fits (.plain c) rest
  | dollar {rest : List Char} (ends : ∀ c ∈ rest.head?, c ≠ '{' ∧ isNameChar c = false) :
      Fits .dollar rest
  | closed {name rest : List Char} (inside : '}' ∉ name) : Fits (.braced name true) rest
  | unclosed {name : List Char} (inside : '}' ∉ name) : Fits (.braced name false) []
  | bare {name rest : List Char} (nonempty : name ≠ []) (word : name.all isNameChar = true)
      (ends : ∀ c ∈ rest.head?, isNameChar c = false) : Fits (.bare name) rest

/-- The pieces that a text splits into, each as it may stand before the rest. -/
inductive IsSplit : List Char → List Piece → Prop
  | nil : IsSplit [] []
  | cons {piece : Piece} {rest : List Char} {pieces : List Piece} (fits : piece.Fits rest)
      (split : IsSplit rest pieces) : IsSplit (piece.chars ++ rest) (piece :: pieces)

/-- The variables that pieces refer to, in their order. -/
def names (pieces : List Piece) : List String := pieces.filterMap Piece.variable?

/-- What stands for a piece: the value of its variable, or the piece itself if it has none. -/
def Piece.replaced (environment : Environment) (piece : Piece) : List Char :=
  match piece.variable? with
  | none => piece.chars
  | some name =>
      match environment.answer name with
      | .ok value => value.toList
      | .error _ => []

/-- Whether a cut after some characters falls between those of one reference. -/
def CutsReference (text : List Char) (cut : Nat) : Prop :=
  ∃ before piece after, IsSplit text (before ++ piece :: after) ∧ piece.variable? ≠ none ∧
    (before.flatMap Piece.chars).length < cut ∧
    cut < (before.flatMap Piece.chars).length + piece.chars.length

variable {environment : Environment} {piece : Piece} {name chars rest more text : List Char}
  {split : List Piece}

/-! ### The split of a text -/

theorem isNameChar_brace : isNameChar '{' = false := by decide +kernel

theorem splitBraced_closed (h : '}' ∉ name) (rest : List Char) :
    splitBraced (name ++ '}' :: rest) = (name, some rest) := by
  induction name with
  | nil => rfl
  | cons c name ih =>
      rw [List.mem_cons, not_or] at h
      rw [List.cons_append, splitBraced, if_neg (Ne.symm h.1), ih h.2]

theorem splitBraced_unclosed (h : '}' ∉ name) : splitBraced name = (name, none) := by
  induction name with
  | nil => rfl
  | cons c name ih =>
      rw [List.mem_cons, not_or] at h
      rw [splitBraced, if_neg (Ne.symm h.1), ih h.2]

theorem brace_notMem_splitBraced (chars : List Char) : '}' ∉ (splitBraced chars).1 := by
  induction chars with
  | nil => exact List.not_mem_nil
  | cons c rest ih =>
      rw [splitBraced]
      split
      next => exact List.not_mem_nil
      next h => exact List.not_mem_cons_of_ne_of_not_mem (Ne.symm h) ih

/-- Where no brace follows, a dollar sign takes the longest run of name characters. -/
theorem pieceAfterDollar_of_ne (h : ∀ tail, rest ≠ '{' :: tail) :
    pieceAfterDollar rest =
      if (rest.takeWhile isNameChar).isEmpty then (.dollar, rest)
      else (.bare (rest.takeWhile isNameChar), rest.dropWhile isNameChar) := by
  rw [pieceAfterDollar]
  exact h

/-- The piece after a dollar sign may stand before what follows it. -/
theorem fits_pieceAfterDollar (rest : List Char) :
    (pieceAfterDollar rest).1.Fits (pieceAfterDollar rest).2 := by
  by_cases hbrace : ∃ tail, rest = '{' :: tail
  · obtain ⟨tail, rfl⟩ := hbrace
    have hinside := brace_notMem_splitBraced tail
    rw [pieceAfterDollar]
    generalize splitBraced tail = parts at hinside ⊢
    obtain ⟨name, after?⟩ := parts
    cases after? with
    | some after => exact .closed hinside
    | none => exact .unclosed hinside
  · rw [not_exists] at hbrace
    rw [pieceAfterDollar_of_ne hbrace]
    split
    next hnone =>
      refine .dollar fun c hc => ⟨?_, ?_⟩
      · rintro rfl
        exact hbrace rest.tail (List.eq_cons_of_mem_head? hc)
      · have hends := ends_dropWhile isNameChar rest
        rw [List.isEmpty_iff] at hnone
        rw [← List.takeWhile_append_dropWhile (p := isNameChar) (l := rest), hnone] at hc
        exact hends c hc
    next hsome =>
      exact .bare (mt List.isEmpty_iff.2 hsome) List.all_takeWhile (ends_dropWhile isNameChar rest)

theorem isSplit_pieces (chars : List Char) : IsSplit chars (pieces chars) := by
  fun_induction pieces chars with
  | case1 => exact .nil
  | case2 rest ih =>
      rw [← chars_pieceAfterDollar rest]
      exact .cons (fits_pieceAfterDollar rest) ih
  | case3 c rest hc ih => exact .cons (.plain hc) ih

/-- A piece that may stand before a text is the one that is found there. -/
theorem pieces_append (h : piece.Fits rest) :
    pieces (piece.chars ++ rest) = piece :: pieces rest := by
  cases h with
  | plain hc => rw [Piece.chars, List.singleton_append, pieces, if_neg hc]
  | dollar hends =>
      have hbrace : ∀ tail, rest ≠ '{' :: tail := by
        rintro tail rfl
        exact (hends _ rfl).1 rfl
      have hnone : rest.takeWhile isNameChar = [] := by
        have hrun : ([] ++ rest).takeWhile isNameChar = [] :=
          takeWhile_run_append rfl fun c hc => (hends c hc).2
        exact hrun
      rw [Piece.chars, List.singleton_append, pieces, if_pos rfl, pieceAfterDollar_of_ne hbrace,
        hnone]
      rfl
  | @closed name rest hinside =>
      have hsplit := splitBraced_closed hinside rest
      have hchars : (Piece.braced name true).chars ++ rest =
          '$' :: '{' :: (name ++ '}' :: rest) := by simp [Piece.chars]
      rw [hchars, pieces, if_pos rfl, pieceAfterDollar, hsplit]
      rfl
  | @unclosed name hinside =>
      have hchars : (Piece.braced name false).chars ++ [] = '$' :: '{' :: name := by
        simp [Piece.chars]
      rw [hchars, pieces.eq_2, if_pos rfl, pieceAfterDollar, splitBraced_unclosed hinside]
      rfl
  | @bare name rest hnonempty hword hends =>
      have hbrace : ∀ tail, name ++ rest ≠ '{' :: tail := by
        intro tail heq
        obtain ⟨c, run, rfl⟩ := List.exists_cons_of_ne_nil hnonempty
        obtain ⟨rfl, -⟩ := List.cons.inj heq
        rw [List.all_cons, isNameChar_brace] at hword
        cases hword
      rw [Piece.chars, List.cons_append, pieces, if_pos rfl, pieceAfterDollar_of_ne hbrace,
        takeWhile_run_append hword hends, dropWhile_run_append hword hends,
        if_neg (mt List.isEmpty_iff.1 hnonempty)]

/-- A text splits in one way. -/
theorem IsSplit.eq_pieces (h : IsSplit text split) : split = pieces text := by
  induction h with
  | nil => rw [pieces]
  | cons fits _ ih => rw [pieces_append fits, ← ih]

/-! ### The expansion of pieces -/

theorem Piece.expand_eq_ok (h : ∀ name ∈ piece.variable?, environment.HasText name) :
    piece.expand environment = .ok (piece.replaced environment) := by
  rw [expand, replaced]
  cases hvariable : piece.variable? with
  | none => rfl
  | some name =>
      obtain ⟨value, hvalue⟩ := h name hvariable
      dsimp only
      rw [hvalue]

theorem Piece.expand_eq_error {name : String} (h : piece.variable? = some name)
    (unset : ¬environment.HasText name) :
    piece.expand environment = .error (.missingVariable name) := by
  rw [expand, h]
  dsimp only
  split
  next value hvalue => exact absurd ⟨value, hvalue⟩ unset
  next => rfl

theorem names_cons (piece : Piece) (split : List Piece) :
    names (piece :: split) = piece.variable?.toList ++ names split := by
  rw [names, List.filterMap_cons, names]
  cases piece.variable? <;> rfl

theorem expandPieces_eq_ok (h : ∀ name ∈ names split, environment.HasText name) :
    expandPieces environment split = .ok (split.flatMap (Piece.replaced environment)) := by
  induction split with
  | nil => rfl
  | cons piece split ih =>
      rw [names_cons, List.forall_mem_append] at h
      have hpiece : piece.expand environment = .ok (piece.replaced environment) :=
        Piece.expand_eq_ok fun name hname => h.1 name (Option.mem_toList.2 hname)
      exact bind_eq_ok.2 ⟨_, hpiece, bind_eq_ok.2 ⟨_, ih h.2, rfl⟩⟩

theorem expandPieces_eq_error {name : String}
    (h : IsFirstWithout environment.HasText (names split) name) :
    expandPieces environment split = .error (.missingVariable name) := by
  obtain ⟨before, after, hnames, hset, hunset⟩ := h
  induction split generalizing before with
  | nil => cases before <;> cases hnames
  | cons piece split ih =>
      rw [names_cons] at hnames
      cases hvariable : piece.variable? with
      | none =>
          rw [hvariable] at hnames
          have hpiece : piece.expand environment = .ok (piece.replaced environment) :=
            Piece.expand_eq_ok fun name hname => by rw [hvariable] at hname; cases hname
          exact bind_eq_error.2 (.inr ⟨_, hpiece, bind_eq_error.2 (.inl (ih before hnames hset))⟩)
      | some first =>
          rw [hvariable, Option.toList_some, List.singleton_append] at hnames
          cases before with
          | nil =>
              obtain ⟨rfl, -⟩ := List.cons.inj hnames
              exact bind_eq_error.2 (.inl (Piece.expand_eq_error hvariable hunset))
          | cons other before =>
              obtain ⟨rfl, htail⟩ := List.cons.inj hnames
              obtain ⟨hfirst, hothers⟩ := List.forall_mem_cons.1 hset
              have hpiece : piece.expand environment = .ok (piece.replaced environment) :=
                Piece.expand_eq_ok fun name hname => by
                  rw [hvariable] at hname
                  rwa [← Option.some.inj hname]
              exact bind_eq_error.2
                (.inr ⟨_, hpiece, bind_eq_error.2 (.inl (ih before htail hothers))⟩)

theorem expandPieces_append (environment : Environment) (split others : List Piece) :
    expandPieces environment (split ++ others) = do
      let chars ← expandPieces environment split
      let rest ← expandPieces environment others
      return chars ++ rest := by
  induction split with
  | nil =>
      rw [List.nil_append]
      cases expandPieces environment others <;> rfl
  | cons piece split ih =>
      rw [List.cons_append, expandPieces, expandPieces, ih]
      cases piece.expand environment with
      | error e => rfl
      | ok chars =>
          cases expandPieces environment split with
          | error e => rfl
          | ok before =>
              cases expandPieces environment others with
              | error e => rfl
              | ok after => exact congrArg Except.ok (List.append_assoc chars before after).symm

/-! ### Texts cut in two -/

theorem Piece.Fits.of_append (h : piece.Fits (rest ++ more)) : piece.Fits rest := by
  have hends : ∀ P : Char → Prop, (∀ c ∈ (rest ++ more).head?, P c) → ∀ c ∈ rest.head?, P c := by
    intro P hall c hc
    refine hall c ?_
    rw [List.head?_append, Option.mem_def.1 hc]
    rfl
  generalize htext : rest ++ more = text at h hends
  cases h with
  | plain other => exact .plain other
  | dollar ends => exact .dollar (hends _ ends)
  | closed inside => exact .closed inside
  | unclosed inside =>
      obtain ⟨rfl, -⟩ := List.append_eq_nil_iff.1 htext
      exact .unclosed inside
  | bare nonempty word ends => exact .bare nonempty word (hends _ ends)

theorem Piece.length_chars_of_variable? (h : piece.variable? = none) : piece.chars.length = 1 := by
  cases piece with
  | plain | dollar => rfl
  | braced | bare => cases h

theorem CutsReference.cons {cut : Nat} (fits : piece.Fits rest) (h : CutsReference rest cut) :
    CutsReference (piece.chars ++ rest) (piece.chars.length + cut) := by
  obtain ⟨before, reference, after, hsplit, hreference, hlow, hhigh⟩ := h
  refine ⟨piece :: before, reference, after, .cons fits hsplit, hreference, ?_, ?_⟩
  · rw [List.flatMap_cons, List.length_append]
    omega
  · rw [List.flatMap_cons, List.length_append]
    omega

/-- A text that is not cut within a reference splits into the pieces of both parts. -/
theorem IsSplit.exists_append {first second : List Char} (h : IsSplit (first ++ second) split)
    (uncut : ¬CutsReference (first ++ second) first.length) :
    ∃ before after, split = before ++ after ∧ IsSplit first before ∧ IsSplit second after := by
  generalize htext : first ++ second = text at h uncut
  induction h generalizing first with
  | nil =>
      obtain ⟨rfl, rfl⟩ := List.append_eq_nil_iff.1 htext
      exact ⟨[], [], rfl, .nil, .nil⟩
  | @cons piece rest pieces fits hrest ih =>
      rcases List.append_eq_append_iff.1 htext with ⟨inner, hpiece, rfl⟩ | ⟨tail, rfl, rfl⟩
      · -- the cut is before, within or after the first piece
        by_cases hfirst : first = []
        · subst hfirst
          rw [List.nil_append] at hpiece
          exact ⟨[], piece :: pieces, rfl, .nil, hpiece ▸ .cons fits hrest⟩
        by_cases hinner : inner = []
        · subst hinner
          rw [List.append_nil] at hpiece
          have hfits : piece.Fits [] := Piece.Fits.of_append fits
          have hwhole : IsSplit (piece.chars ++ []) [piece] := .cons hfits .nil
          rw [List.append_nil, hpiece] at hwhole
          exact ⟨[piece], pieces, rfl, hwhole, hrest⟩
        have hlength := congrArg List.length hpiece
        rw [List.length_append] at hlength
        have hlow := List.length_pos_of_ne_nil hfirst
        have hhigh := List.length_pos_of_ne_nil hinner
        refine absurd ⟨[], piece, pieces, .cons fits hrest, fun hnone => ?_, hlow, ?_⟩ uncut
        · have hsingle := Piece.length_chars_of_variable? hnone
          omega
        · rw [List.flatMap_nil, List.length_nil]
          omega
      · rw [List.length_append] at uncut
        obtain ⟨before, after, rfl, hbefore, hafter⟩ := ih rfl fun h => uncut (h.cons fits)
        exact ⟨piece :: before, after, rfl, .cons fits.of_append hbefore, hafter⟩

/-- Without a dollar sign, every character stands for itself. -/
theorem isSplit_plain (h : '$' ∉ chars) : IsSplit chars (chars.map Piece.plain) := by
  induction chars with
  | nil => exact .nil
  | cons c chars ih =>
      rw [List.mem_cons, not_or] at h
      exact .cons (.plain (Ne.symm h.1)) (ih h.2)

/-! ### The expansion of a text -/

theorem expand_eq_map {text : String} (h : IsSplit text.toList split) :
    expand environment text = (expandPieces environment split).map String.ofList := by
  rw [expand, ← h.eq_pieces]

theorem expand_eq_ok_iff {text : String} (h : IsSplit text.toList split) {out : String} :
    expand environment text = .ok out ↔
      (∀ name ∈ names split, environment.HasText name) ∧
        out = String.ofList (split.flatMap (Piece.replaced environment)) := by
  rw [expand_eq_map h]
  rcases forall_or_exists_isFirstWithout environment.HasText (names split) with
    hset | ⟨name, hfirst⟩
  · rw [expandPieces_eq_ok hset]
    constructor
    · intro hout
      exact ⟨hset, (Except.ok.inj hout).symm⟩
    · rintro ⟨-, rfl⟩
      rfl
  · rw [expandPieces_eq_error hfirst]
    constructor
    · intro hout
      cases hout
    · rintro ⟨hset, -⟩
      exact absurd (hset name hfirst.mem) hfirst.not

theorem expand_eq_error_iff {text : String} (h : IsSplit text.toList split)
    {e : SettingsError} :
    expand environment text = .error e ↔
      ∃ name, IsFirstWithout environment.HasText (names split) name ∧
        e = .missingVariable name := by
  rw [expand_eq_map h]
  rcases forall_or_exists_isFirstWithout environment.HasText (names split) with
    hset | ⟨name, hfirst⟩
  · rw [expandPieces_eq_ok hset]
    constructor
    · intro herror
      cases herror
    · rintro ⟨name, hfirst, -⟩
      exact absurd (hset name hfirst.mem) hfirst.not
  · rw [expandPieces_eq_error hfirst]
    constructor
    · intro herror
      exact ⟨name, hfirst, (Except.error.inj herror).symm⟩
    · rintro ⟨other, hother, rfl⟩
      rw [← expandPieces_eq_error hfirst, expandPieces_eq_error hother]
      rfl

theorem expand_append {first second : String}
    (uncut : ¬CutsReference (first ++ second).toList first.toList.length) :
    expand environment (first ++ second) = do
      return (← expand environment first) ++ (← expand environment second) := by
  have hsplit := isSplit_pieces (first ++ second).toList
  rw [String.toList_append] at hsplit uncut
  obtain ⟨before, after, hpieces, hbefore, hafter⟩ := hsplit.exists_append uncut
  rw [← String.toList_append] at hsplit
  rw [expand_eq_map hsplit, expand_eq_map hbefore, expand_eq_map hafter, String.toList_append,
    hpieces, expandPieces_append]
  cases expandPieces environment before with
  | error e => rfl
  | ok chars =>
      cases expandPieces environment after with
      | error e => rfl
      | ok rest => exact congrArg Except.ok String.ofList_append

/-- A text splits in one way into references and characters that stand for themselves. If every
variable of the split is set to a text, the text is expanded by these in place of the references;
otherwise the first variable that has no text is reported, whether it is not set or its value is
no text; where nothing is set but texts, it is the first that is not set. The empty name has no
text. A text without references stays as it is, and a text that is not cut within a reference is
expanded part by part. -/
theorem expand_replaces_references (environment : Environment) (text : String) :
    (∃! split, IsSplit text.toList split) ∧
    (∀ split, IsSplit text.toList split →
      (∀ out, expand environment text = .ok out ↔
        (∀ name ∈ names split, environment.HasText name) ∧
          out = String.ofList (split.flatMap (Piece.replaced environment))) ∧
      ∀ e, expand environment text = .error e ↔
        ∃ name, IsFirstWithout environment.HasText (names split) name ∧
          e = .missingVariable name) ∧
    ((∀ name, environment.answer name ≠ .error .notUnicode) →
      ∀ name, environment.HasText name ↔ environment.IsSet name) ∧
    (∀ value, environment.answer "" ≠ .ok value) ∧
    ('$' ∉ text.toList → expand environment text = .ok text) ∧
    ∀ first second, text = first ++ second →
      ¬CutsReference text.toList first.toList.length →
      expand environment text = do
        return (← expand environment first) ++ (← expand environment second) := by
  refine ⟨⟨pieces text.toList, isSplit_pieces _, fun _ h => h.eq_pieces⟩,
    fun split h => ⟨fun _ => expand_eq_ok_iff h, fun _ => expand_eq_error_iff h⟩,
    Environment.hasText_iff_isSet, fun value hvalue => ?_, ?_, ?_⟩
  · rw [environment.answer_empty] at hvalue
    cases hvalue
  · intro hdollar
    have hplain := isSplit_plain hdollar
    have hnames : names (text.toList.map Piece.plain) = [] := by
      rw [names, List.filterMap_map]
      exact List.filterMap_eq_nil_iff.2 fun _ _ => rfl
    have hreplaced : (text.toList.map Piece.plain).flatMap (Piece.replaced environment) =
        text.toList := by
      rw [List.flatMap_map]
      exact List.flatMap_singleton' text.toList
    refine (expand_eq_ok_iff hplain).2 ⟨?_, ?_⟩
    · rw [hnames]
      exact nofun
    · rw [hreplaced, String.ofList_toList]
  · rintro first second rfl
    exact expand_append

/-- An environment of texts, one of which looks like a reference and another like the line of a
variable `A=B`. -/
def userTexts : Environment :=
  .ofDict (Dict.ofList [("USER", "$\x7bHOME\x7d"), ("é_1", "\x7d"), ("A", "B=C")])

/-- The environment `userTexts` with a variable whose value is no text. -/
def userVariables : Environment where
  answer name := if name = "LATIN" then .error .notUnicode else userTexts.answer name
  answer_empty := rfl

/-- The text `a${USER}$é_1/$`: a closed reference, one without braces that ends at a slash, and a
dollar sign at the end. -/
def referringText : String := "a$\x7bUSER\x7d$é_1/$"

/-- The split of `referringText`. -/
def referringPieces : List Piece :=
  [.plain 'a', .braced ['U', 'S', 'E', 'R'] true, .bare ['é', '_', '1'], .plain '/', .dollar]

/-- The text `${A=B}${}${X`: after a name that an equals sign follows in the line of `A`, a
reference to the empty name and one whose brace is not closed. -/
def unsetText : String := "$\x7bA=B\x7d$\x7b\x7d$\x7bX"

/-- The split of `unsetText`. -/
def unsetPieces : List Piece :=
  [.braced ['A', '=', 'B'] true, .braced [] true, .braced ['X'] false]

/-- The text `$A$LATIN$X`: a variable with a text, one without, and one that is not set. -/
def latinText : String := "$A$LATIN$X"

/-- The split of `latinText`. -/
def latinPieces : List Piece := [.bare ['A'], .bare ['L', 'A', 'T', 'I', 'N'], .bare ['X']]

theorem isSplit_referringText : IsSplit referringText.toList referringPieces := by
  have hpieces : pieces referringText.toList = referringPieces := by decide +kernel
  exact hpieces ▸ isSplit_pieces _

theorem isSplit_unsetText : IsSplit unsetText.toList unsetPieces := by
  have hpieces : pieces unsetText.toList = unsetPieces := by decide +kernel
  exact hpieces ▸ isSplit_pieces _

theorem isSplit_latinText : IsSplit latinText.toList latinPieces := by
  have hpieces : pieces latinText.toList = latinPieces := by decide +kernel
  exact hpieces ▸ isSplit_pieces _

/-- The closed reference ends after eight characters. -/
theorem not_cutsReference_referringText : ¬CutsReference referringText.toList 8 := by
  rintro ⟨before, piece, after, hcut, -, hlow, hhigh⟩
  have hparts := hcut.eq_pieces.trans isSplit_referringText.eq_pieces.symm
  obtain _ | ⟨first, _ | ⟨second, before⟩⟩ := before
  · obtain ⟨rfl, -⟩ := List.cons.inj hparts
    exact absurd hhigh (by decide)
  · obtain ⟨rfl, hrest⟩ := List.cons.inj hparts
    obtain ⟨rfl, -⟩ := List.cons.inj hrest
    exact absurd hhigh (by decide)
  · obtain ⟨rfl, hrest⟩ := List.cons.inj hparts
    obtain ⟨rfl, -⟩ := List.cons.inj hrest
    rw [List.flatMap_cons, List.flatMap_cons, List.length_append, List.length_append] at hlow
    change 1 + (7 + _) < 8 at hlow
    omega

theorem expand_replaces_references_userVariables :
    IsSplit referringText.toList referringPieces ∧
      (∀ name ∈ names referringPieces, userVariables.HasText name) ∧
      expand userVariables referringText = .ok "a$\x7bHOME\x7d\x7d/$" ∧
      IsSplit unsetText.toList unsetPieces ∧ userVariables.answer "A=B" = .ok "C" ∧
      IsFirstWithout userVariables.HasText (names unsetPieces) "" ∧
      expand userVariables unsetText = .error (.missingVariable "") ∧
      IsSplit latinText.toList latinPieces ∧ userVariables.answer "LATIN" = .error .notUnicode ∧
      IsFirstWithout userVariables.HasText (names latinPieces) "LATIN" ∧
      expand userVariables latinText = .error (.missingVariable "LATIN") ∧
      (∀ name, userTexts.answer name ≠ .error .notUnicode) ∧
      (∀ name, userTexts.HasText name ↔ userTexts.IsSet name) ∧
      '$' ∉ "a\x7d\x7bb".toList ∧ expand userVariables "a\x7d\x7bb" = .ok "a\x7d\x7bb" ∧
      ¬CutsReference referringText.toList "a$\x7bUSER\x7d".toList.length ∧
      expand userVariables referringText = do
        return (← expand userVariables "a$\x7bUSER\x7d") ++ (← expand userVariables "$é_1/$") := by
  have hset : ∀ name ∈ names referringPieces, userVariables.HasText name := by
    decide +kernel
  have hempty : IsFirstWithout userVariables.HasText (names unsetPieces) "" :=
    ⟨["A=B"], ["X"], by decide +kernel, by decide +kernel, by decide +kernel⟩
  have hlatin : IsFirstWithout userVariables.HasText (names latinPieces) "LATIN" :=
    ⟨["A"], ["X"], by decide +kernel, by decide +kernel, by decide +kernel⟩
  have hplain : '$' ∉ "a\x7d\x7bb".toList := by decide +kernel
  have hlength : "a$\x7bUSER\x7d".toList.length = 8 := by decide +kernel
  have huncut : ¬CutsReference referringText.toList "a$\x7bUSER\x7d".toList.length :=
    hlength ▸ not_cutsReference_referringText
  have htexts : ∀ name, userTexts.answer name ≠ .error .notUnicode :=
    Environment.answer_ofDict_ne _
  obtain ⟨-, hexpand, -, -, -, hcut⟩ := expand_replaces_references userVariables referringText
  obtain ⟨-, hunset, -, -, -, -⟩ := expand_replaces_references userVariables unsetText
  obtain ⟨-, hunread, -, -, -, -⟩ := expand_replaces_references userVariables latinText
  obtain ⟨-, -, -, -, hkept, -⟩ := expand_replaces_references userVariables "a\x7d\x7bb"
  obtain ⟨-, -, hisSet, -, -, -⟩ := expand_replaces_references userTexts referringText
  exact ⟨isSplit_referringText, hset,
    ((hexpand _ isSplit_referringText).1 _).2 ⟨hset, by decide +kernel⟩, isSplit_unsetText,
    by decide +kernel, hempty, ((hunset _ isSplit_unsetText).2 _).2 ⟨"", hempty, rfl⟩,
    isSplit_latinText, by decide +kernel, hlatin,
    ((hunread _ isSplit_latinText).2 _).2 ⟨"LATIN", hlatin, rfl⟩, htexts, hisSet htexts, hplain,
    hkept hplain, huncut, hcut "a$\x7bUSER\x7d" "$é_1/$" (by decide +kernel) huncut⟩

end Reference

end EntityQuery
