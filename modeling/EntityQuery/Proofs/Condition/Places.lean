import EntityQuery.Proofs.Condition.Lexemes
import EntityQuery.Proofs.Condition.Numerals
import Mathlib.Data.List.Chain

/-!
# Where tokens stand

To read a text as tokens and to write tokens down undo each other. The tokens of
a text stand in it one after the other, each as it is written and with its place,
and there is only white space around them. In the other direction, tokens that
are written down with blanks around them are read back with their places, as long
as no two words touch (`lex_inverts_writing`).

A text with tokens is described by the text before each token (`spread`), from
which the places follow (`placesFrom`). Reading yields such a description
(`exists_spread`), and a description is read (`classify_scan_spread`). White space
of any kind may stand around tokens, but only blanks may be put there freely,
since no other white space ends a word.
-/

namespace EntityQuery.Condition

namespace Token

/-- Whether a token can be read from what it is written as. -/
def IsWritable : Token → Prop
  | column raw => Text.IsQuotable raw.toList ∧ raw.toList.head? ≠ some ':' ∧
      ∀ op : Operator, op.keyword ≠ raw
  | parameter name => Text.IsQuotable name.toList ∧ name ≠ ""
  | number spelling => IsNumeral spelling.toList
  | mark _ | null | operator _ => True

/-- Whether a token is a word: it has no quotes and is no mark. -/
def isBare : Token → Bool
  | number _ | null => true
  | _ => false

end Token

/-- A token and the text between it and the token before it. -/
structure SpacedToken where
  gap : List Char
  token : Token

/-- The text of tokens with gaps, and a last gap after them. -/
def spread (last : List Char) : List SpacedToken → List Char
  | [] => last
  | first :: rest => first.gap ++ (first.token.chars ++ spread last rest)

/-- The places of tokens with gaps, from a byte on. -/
def placesFrom (position : Nat) : List SpacedToken → List (Placed Token)
  | [] => []
  | first :: rest =>
      let start := position + byteSize first.gap
      let stop := start + byteSize first.token.chars
      ⟨first.token, start, stop⟩ :: placesFrom stop rest

/-- A text stands in a source from a byte on, where a character begins. -/
def StandsAt (source text : String) (start : Nat) : Prop :=
  ∃ before after, source = before ++ text ++ after ∧ before.utf8ByteSize = start

/-- Whether a character is a space, a tab, a carriage return or a line feed. -/
def isBlankChar (c : Char) : Bool := c == ' ' || c == '\t' || c == '\r' || c == '\n'

/-- Tokens that can be read, with blanks around them and at least one between words. -/
structure AreWellSpaced (spaced : List SpacedToken) (last : List Char) : Prop where
  isWritable : ∀ s ∈ spaced, s.token.IsWritable
  blank_gap : ∀ s ∈ spaced, s.gap.all isBlankChar = true
  blank_last : last.all isBlankChar = true
  apart : spaced.IsChain fun s next =>
    s.token.isBare = true → next.token.isBare = true → next.gap ≠ []

variable {source rest last blanks : List Char} {lexeme : Lexeme} {token : Token}
  {spaced : List SpacedToken}

theorem Token.text_eq (token : Token) : token.text.toList = token.chars :=
  String.toList_ofList

/-! ### One token -/

theorem isClassified_of_spells (h : lexeme.Spells token) : IsClassified lexeme token := by
  cases h with
  | mark m => exact fun _ _ => rfl
  | operator op => exact isClassified_operator op
  | parameter ne => exact isClassified_parameter ne
  | column colon keyword => exact isClassified_column colon keyword
  | null => exact isClassified_null
  | number number => exact isClassified_number number

theorem isSpace_of_spells (h : lexeme.Spells token) :
    ∀ c ∈ lexeme.chars.head?, Unicode.isSpace c = false := by
  rintro c hc
  cases h with
  | mark m => cases hc; exact isSpace_mark m
  | operator op => cases hc; decide
  | parameter ne => cases hc; decide
  | column colon keyword => cases hc; decide
  | null => cases hc; decide
  | number number =>
      have hall := (isNumberChar_of_isNumber number).2
      exact isSpace_of_isNumberChar (List.all_eq_true.1 hall c (List.mem_of_mem_head? hc))

theorem ofKeyword?_eq_none_iff {keyword : String} :
    Operator.ofKeyword? keyword = none ↔ ∀ op : Operator, op.keyword ≠ keyword := by
  have hall : ∀ op : Operator, op ∈ Operator.all := by
    intro op
    cases op <;> decide
  rw [Operator.ofKeyword?, List.find?_eq_none]
  exact ⟨fun h op heq => h op (hall op) (decide_eq_true heq),
    fun h op _ heq => h op (of_decide_eq_true heq)⟩

/-- What is read can be written. -/
theorem isWritable_of_spells (h : lexeme.Spells token) (fits : lexeme.Fits rest) :
    token.IsWritable := by
  cases h with
  | mark m => trivial
  | operator op => trivial
  | @parameter name ne =>
      cases fits with
      | quoted quotable =>
          cases quotable with
          | plain _ _ hname =>
              refine ⟨by rwa [String.toList_ofList], fun hempty => ne ?_⟩
              rw [← String.toList_ofList (l := name), hempty, String.toList_empty]
  | column colon keyword =>
      cases fits with
      | quoted quotable =>
          rw [Token.IsWritable, String.toList_ofList]
          exact ⟨quotable, colon, ofKeyword?_eq_none_iff.1 keyword⟩
  | null => trivial
  | number number =>
      rw [Token.IsWritable, String.toList_ofList]
      exact isNumber_iff.1 number

/-- What can be written is a lexeme wherever no word runs into something else. -/
theorem exists_spells (writable : token.IsWritable) (ends : token.isBare = true → EndsWord rest) :
    ∃ lexeme : Lexeme, lexeme.Spells token ∧ lexeme.Fits rest := by
  cases token with
  | mark m => exact ⟨_, .mark m, .mark m rest⟩
  | column raw =>
      obtain ⟨quotable, colon, keyword⟩ := writable
      have hspells := Lexeme.Spells.column colon
        (by rw [String.ofList_toList]; exact ofKeyword?_eq_none_iff.2 keyword)
      rw [String.ofList_toList] at hspells
      exact ⟨_, hspells, .quoted quotable rest⟩
  | number spelling =>
      have hnumber := isNumber_iff.2 writable
      have hspells := Lexeme.Spells.number hnumber
      rw [String.ofList_toList] at hspells
      obtain ⟨hne, hall⟩ := isNumberChar_of_isNumber hnumber
      refine ⟨_, hspells, .word hne (List.all_eq_true.2 fun c hc => ?_) (ends rfl)⟩
      rw [endsWord_of_isNumberChar (List.all_eq_true.1 hall c hc)]
      rfl
  | null => exact ⟨_, .null, .word (List.cons_ne_nil _ _) (by decide) (ends rfl)⟩
  | parameter name =>
      obtain ⟨quotable, ne⟩ := writable
      have hspells : Lexeme.Spells (.quoted (':' :: name.toList))
          (.parameter (String.ofList name.toList)) := .parameter (by simpa using ne)
      rw [String.ofList_toList] at hspells
      exact ⟨_, hspells, .quoted (.plain (by decide) (by decide) quotable) rest⟩
  | operator op =>
      refine ⟨_, .operator op, .quoted ?_ rest⟩
      exact (splitQuoted_eq_some_iff.1 (isDelimited_keyword op [])).1

/-- A lexeme that spells a token is read as the token at its place. -/
theorem classify_scan_append (h : lexeme.Spells token) (fits : lexeme.Fits rest)
    (position : Nat) :
    (scan position (token.chars ++ rest)).mapM classify =
      ((scan (position + byteSize token.chars) rest).mapM classify).map
        (⟨token, position, position + byteSize token.chars⟩ :: ·) := by
  rw [h.chars_eq, scan_append fits (isSpace_of_spells h), List.mapM_cons,
    isClassified_of_spells h]
  cases (scan (position + byteSize lexeme.chars) rest).mapM classify <;> rfl

/-! ### Tokens with gaps -/

theorem AreWellSpaced.of_cons {first : SpacedToken} (h : AreWellSpaced (first :: spaced) last) :
    AreWellSpaced spaced last :=
  ⟨fun s hs => h.isWritable s (List.mem_cons_of_mem _ hs),
    fun s hs => h.blank_gap s (List.mem_cons_of_mem _ hs), h.blank_last, h.apart.of_cons⟩

theorem isSpace_of_isBlankChar {c : Char} (h : isBlankChar c = true) :
    Unicode.isSpace c = true := by
  simp only [isBlankChar, Bool.or_eq_true, beq_iff_eq] at h
  rcases h with ((rfl | rfl) | rfl) | rfl <;> decide

theorem all_isSpace_of_blank (h : blanks.all isBlankChar = true) :
    blanks.all Unicode.isSpace = true :=
  List.all_eq_true.2 fun c hc => isSpace_of_isBlankChar (List.all_eq_true.1 h c hc)

theorem endsWord_blank_append (h : blanks.all isBlankChar = true) (hrest : EndsWord rest) :
    EndsWord (blanks ++ rest) := by
  cases blanks with
  | nil => exact hrest
  | cons c blanks =>
      rintro d ⟨⟩
      rw [List.all_cons, Bool.and_eq_true] at h
      simp only [isBlankChar, Bool.or_eq_true, beq_iff_eq] at h
      rcases h.1 with ((rfl | rfl) | rfl) | rfl <;> decide

/-- Marks and quotes end words. -/
theorem endsWord_chars_append (h : token.isBare = false) (rest : List Char) :
    EndsWord (token.chars ++ rest) := by
  cases token with
  | mark m => exact endsWord_mark m rest
  | column raw => rintro c ⟨⟩; decide
  | number spelling => cases h
  | null => cases h
  | parameter name => rintro c ⟨⟩; decide
  | operator op => rintro c ⟨⟩; decide

theorem endsWord_spread (h : AreWellSpaced spaced last)
    (apart : ∀ next ∈ spaced.head?, next.token.isBare = true → next.gap ≠ []) :
    EndsWord (spread last spaced) := by
  cases spaced with
  | nil =>
      have hends : EndsWord (last ++ []) := endsWord_blank_append h.blank_last nofun
      rwa [List.append_nil] at hends
  | cons first rest =>
      have hgap := h.blank_gap first List.mem_cons_self
      cases hbare : first.token.isBare with
      | false => exact endsWord_blank_append hgap (endsWord_chars_append hbare _)
      | true =>
          obtain ⟨c, gap, hcons⟩ := List.exists_cons_of_ne_nil (apart first rfl hbare)
          rw [hcons] at hgap
          have hends : EndsWord (c :: gap ++ []) := endsWord_blank_append hgap nofun
          rintro d hd
          rw [spread, hcons] at hd
          cases hd
          exact hends c rfl

/-- Tokens with gaps are read back with their places. -/
theorem classify_scan_spread (h : AreWellSpaced spaced last) (position : Nat) :
    (scan position (spread last spaced)).mapM classify = .ok (placesFrom position spaced) := by
  induction spaced generalizing position with
  | nil =>
      have hlast : scan position (last ++ []) = scan (position + byteSize last) [] :=
        scan_spaces (all_isSpace_of_blank h.blank_last) position
      rw [List.append_nil] at hlast
      rw [spread, hlast, scan]
      rfl
  | cons first rest ih =>
      have hends : first.token.isBare = true → EndsWord (spread last rest) := by
        intro hbare
        refine endsWord_spread h.of_cons fun next hnext => ?_
        exact h.apart.rel_head? hnext hbare
      obtain ⟨lexeme, hspells, hfits⟩ :=
        exists_spells (h.isWritable first List.mem_cons_self) hends
      have hgap := all_isSpace_of_blank (h.blank_gap first List.mem_cons_self)
      rw [spread, scan_spaces hgap, classify_scan_append hspells hfits, ih h.of_cons]
      rfl

/-- What stands before the first token may be longer. -/
theorem exists_spread_cons {c : Char} {position : Nat} (space : Unicode.isSpace c = true)
    {P : SpacedToken → Prop} (hP : ∀ s, P s → P { s with gap := c :: s.gap })
    (hlast : last.all Unicode.isSpace = true) (hspaced : ∀ s ∈ spaced, P s) :
    ∃ spaced' last', c :: spread last spaced = spread last' spaced' ∧
      placesFrom (position + c.utf8Size) spaced = placesFrom position spaced' ∧
      (∀ s ∈ spaced', P s) ∧ last'.all Unicode.isSpace = true := by
  cases spaced with
  | nil =>
      refine ⟨[], c :: last, rfl, rfl, List.forall_mem_nil _, ?_⟩
      rw [List.all_cons, space, hlast]
      rfl
  | cons first rest =>
      obtain ⟨hfirst, hrest⟩ := List.forall_mem_cons.1 hspaced
      refine ⟨{ first with gap := c :: first.gap } :: rest, last, rfl, ?_,
        List.forall_mem_cons.2 ⟨hP first hfirst, hrest⟩, hlast⟩
      simp only [placesFrom, byteSize_cons, Nat.add_assoc]

/-- What is read are tokens that can be written, with white space around them. -/
theorem exists_spread {position : Nat} {placed : List (Placed Token)}
    (h : (scan position source).mapM classify = .ok placed) :
    ∃ spaced last, source = spread last spaced ∧ placed = placesFrom position spaced ∧
      (∀ s ∈ spaced, s.token.IsWritable ∧ s.gap.all Unicode.isSpace = true) ∧
      last.all Unicode.isSpace = true := by
  fun_induction scan position source generalizing placed with
  | case1 position =>
      cases h
      exact ⟨[], [], rfl, rfl, List.forall_mem_nil _, rfl⟩
  | case2 position c rest space ih =>
      obtain ⟨spaced, last, rfl, rfl, hspaced, hlast⟩ := ih h
      refine exists_spread_cons space (fun s hs => ⟨hs.1, ?_⟩) hlast hspaced
      rw [List.all_cons, space, hs.2]
      rfl
  | case3 position c rest space stop =>
      rename_i ih
      rw [List.mapM_cons] at h
      obtain ⟨first, hfirst, h⟩ := bind_eq_ok.1 h
      obtain ⟨others, hothers, h⟩ := bind_eq_ok.1 h
      obtain rfl := pure_eq_ok.1 h
      obtain ⟨spaced, last, hrest, rfl, hspaced, hlast⟩ := ih hothers
      have hspells := spells_of_classify hfirst
      have hfits := fits_cut (Bool.not_eq_true _ ▸ space) rest
      have hplaced : first = ⟨first.value, position, stop⟩ := by
        have h := isClassified_of_spells hspells position stop
        rw [hfirst] at h
        exact Except.ok.inj h
      have hchars : first.value.chars = (cut c rest).1.chars := hspells.chars_eq
      refine ⟨⟨[], first.value⟩ :: spaced, last, ?_, ?_,
        List.forall_mem_cons.2 ⟨⟨isWritable_of_spells hspells hfits, rfl⟩, hspaced⟩, hlast⟩
      · rw [spread, List.nil_append, ← hrest, hchars, chars_cut]
      · rw [placesFrom, hplaced]
        simp only [hchars]
        rfl

/-! ### Places -/

theorem le_start_of_mem_placesFrom {position : Nat} {p : Placed Token}
    (h : p ∈ placesFrom position spaced) : position ≤ p.start := by
  induction spaced generalizing position with
  | nil => cases h
  | cons first rest ih =>
      rcases List.mem_cons.1 h with rfl | hrest
      · exact Nat.le_add_right _ _
      · have hle := ih hrest
        omega

theorem pairwise_placesFrom (position : Nat) (spaced : List SpacedToken) :
    (placesFrom position spaced).Pairwise fun p q => p.stop ≤ q.start := by
  induction spaced generalizing position with
  | nil => exact .nil
  | cons first rest ih => exact .cons (fun q hq => le_start_of_mem_placesFrom hq) (ih _)

/-- Each token is written at its place. -/
theorem exists_of_mem_placesFrom (last : List Char) {position : Nat} {p : Placed Token}
    (h : p ∈ placesFrom position spaced) :
    (∃ s ∈ spaced, s.token = p.value) ∧ p.stop = p.start + byteSize p.value.chars ∧
      ∃ before after, spread last spaced = before ++ p.value.chars ++ after ∧
        position + byteSize before = p.start := by
  induction spaced generalizing position with
  | nil => cases h
  | cons first rest ih =>
      rcases List.mem_cons.1 h with rfl | hrest
      · exact ⟨⟨first, List.mem_cons_self, rfl⟩, rfl, first.gap, spread last rest,
          by rw [spread, List.append_assoc], rfl⟩
      · obtain ⟨⟨s, hs, htoken⟩, hstop, before, after, hspread, hstart⟩ := ih hrest
        refine ⟨⟨s, List.mem_cons_of_mem _ hs, htoken⟩, hstop,
          first.gap ++ first.token.chars ++ before, after, ?_, ?_⟩
        · rw [spread, hspread]
          simp only [List.append_assoc]
        · rw [byteSize_append, byteSize_append, ← hstart]
          omega

/-- An entry of two lists one after the other stands in one of them. -/
theorem append_eq_append_cons {α : Type} {front back before after : List α} {a : α}
    (h : front ++ back = before ++ a :: after) :
    (∃ more, front = before ++ a :: more) ∨
      ∃ more, before = front ++ more ∧ back = more ++ a :: after := by
  rcases List.append_eq_append_iff.1 h with ⟨more, hbefore, hback⟩ | ⟨more, hfront, hafter⟩
  · exact .inr ⟨more, hbefore, hback⟩
  · cases more with
    | nil =>
        rw [List.append_nil] at hfront
        exact .inr ⟨[], by rw [hfront, List.append_nil], hafter.symm⟩
    | cons b more => exact .inl ⟨more, by rw [hfront, (List.cons.inj hafter).1]⟩

/-- A character outside of all tokens stands in a gap. -/
theorem isSpace_of_outside {position : Nat} {before after : List Char} {c : Char}
    (hgaps : ∀ s ∈ spaced, s.gap.all Unicode.isSpace = true)
    (hlast : last.all Unicode.isSpace = true) (h : spread last spaced = before ++ c :: after)
    (outside : ∀ p ∈ placesFrom position spaced,
      position + byteSize before < p.start ∨ p.stop ≤ position + byteSize before) :
    Unicode.isSpace c = true := by
  induction spaced generalizing position before with
  | nil =>
      rw [spread] at h
      rw [h] at hlast
      exact List.all_eq_true.1 hlast c (by simp)
  | cons first rest ih =>
      obtain ⟨hgap, hgaps⟩ := List.forall_mem_cons.1 hgaps
      obtain ⟨hfirst, hothers⟩ := List.forall_mem_cons.1 outside
      rw [spread] at h
      rcases append_eq_append_cons h with ⟨more, hmore⟩ | ⟨within, rfl, htoken⟩
      · rw [hmore] at hgap
        exact List.all_eq_true.1 hgap c (by simp)
      rw [byteSize_append, ← Nat.add_assoc] at hfirst hothers
      rcases append_eq_append_cons htoken with ⟨more, hmore⟩ | ⟨behind, rfl, hbehind⟩
      · -- the character belongs to the first token
        have hsize := congrArg byteSize hmore
        rw [byteSize_append, byteSize_cons] at hsize
        have hpos := c.utf8Size_pos
        dsimp only at hfirst
        omega
      · rw [byteSize_append, ← Nat.add_assoc] at hothers
        exact ih hgaps hbehind hothers

theorem Token.IsWritable.chars_ne_nil (writable : token.IsWritable) : token.chars ≠ [] := by
  cases token with
  | number spelling =>
      intro hempty
      rw [Token.chars] at hempty
      rw [Token.IsWritable, hempty, ← isNumber_iff] at writable
      cases writable
  | mark _ | column _ | null | parameter _ | operator _ => exact List.cons_ne_nil _ _

/-- A token that is written takes room. -/
theorem Token.IsWritable.byteSize_pos (writable : token.IsWritable) : 0 < byteSize token.chars := by
  obtain ⟨c, chars, hcons⟩ := List.exists_cons_of_ne_nil writable.chars_ne_nil
  have hpos := c.utf8Size_pos
  rw [hcons, byteSize_cons]
  omega

/-- Each token of a text is written at its place. -/
theorem standsAt_of_mem_placesFrom {text : String} {p : Placed Token}
    (htext : text.toList = spread last spaced) (h : p ∈ placesFrom 0 spaced) :
    StandsAt text p.value.text p.start ∧ p.stop = p.start + p.value.text.utf8ByteSize := by
  obtain ⟨-, hstop, before, after, hspread, hstart⟩ := exists_of_mem_placesFrom last h
  rw [Nat.zero_add, byteSize_eq] at hstart
  refine ⟨⟨String.ofList before, String.ofList after, ?_, hstart⟩, ?_⟩
  · rw [← String.toList_inj, htext, hspread]
    simp only [String.toList_append, String.toList_ofList, Token.text_eq]
  · rw [hstop, byteSize_eq, Token.text]

theorem standsAt_of_lex {text : String} {placed : List (Placed Token)}
    (h : lex text = .ok placed) {p : Placed Token} (hp : p ∈ placed) :
    StandsAt text p.value.text p.start ∧ p.stop = p.start + p.value.text.utf8ByteSize := by
  obtain ⟨spaced, last, htext, rfl, -, -⟩ := exists_spread h
  exact standsAt_of_mem_placesFrom htext hp

theorem isWritable_of_lex {text : String} {placed : List (Placed Token)}
    (h : lex text = .ok placed) : ∀ t ∈ placed.map Placed.value, t.IsWritable := by
  intro t ht
  obtain ⟨spaced, last, -, rfl, hspaced, -⟩ := exists_spread h
  obtain ⟨p, hp, rfl⟩ := List.mem_map.1 ht
  obtain ⟨⟨s, hs, htoken⟩, -⟩ := exists_of_mem_placesFrom last hp
  exact htoken ▸ (hspaced s hs).1

theorem map_value_placesFrom (position : Nat) (spaced : List SpacedToken) :
    (placesFrom position spaced).map Placed.value = spaced.map SpacedToken.token := by
  induction spaced generalizing position with
  | nil => rfl
  | cons first rest ih => rw [placesFrom, List.map_cons, List.map_cons, ih]

/-- Tokens that can be written stand in some text. -/
theorem exists_lex_of_isWritable {tokens : List Token} (h : ∀ t ∈ tokens, t.IsWritable) :
    ∃ text placed, lex text = .ok placed ∧ placed.map Placed.value = tokens := by
  let spaced := tokens.map (SpacedToken.mk [' '])
  have hspaced : AreWellSpaced spaced [] := by
    refine ⟨List.forall_mem_map.2 h, List.forall_mem_map.2 fun _ _ => rfl, rfl, ?_⟩
    refine List.Pairwise.isChain (List.pairwise_map.2 (List.pairwise_of_forall ?_))
    exact fun _ _ _ _ => List.cons_ne_nil _ _
  refine ⟨String.ofList (spread [] spaced), placesFrom 0 spaced, ?_, ?_⟩
  · rw [lex, String.toList_ofList]
    exact classify_scan_spread hspaced 0
  · rw [map_value_placesFrom, List.map_map]
    exact List.map_id tokens

/-- To read tokens and to write them undo each other.

The tokens that are read from a text can be written, they stand in the text one after
the other, each as it is written, and all else is white space. Tokens that can
be written are read back with their places from a text that has blanks between them,
at least one between two words. -/
theorem lex_inverts_writing :
    (∀ source placed, lex source = .ok placed →
      placed.Pairwise (fun p q => p.stop ≤ q.start) ∧
      (∀ p ∈ placed, p.value.IsWritable ∧ p.start < p.stop ∧
        p.stop = p.start + p.value.text.utf8ByteSize ∧ StandsAt source p.value.text p.start) ∧
      ∀ before c after, source = before ++ String.singleton c ++ after →
        (∀ p ∈ placed, before.utf8ByteSize < p.start ∨ p.stop ≤ before.utf8ByteSize) →
        Unicode.isSpace c = true) ∧
    ∀ spaced last, AreWellSpaced spaced last →
      lex (String.ofList (spread last spaced)) = .ok (placesFrom 0 spaced) := by
  refine ⟨fun source placed h => ?_, fun spaced last h => ?_⟩
  · obtain ⟨spaced, last, hsource, rfl, hspaced, hlast⟩ := exists_spread h
    refine ⟨pairwise_placesFrom 0 spaced, fun p hp => ?_, fun before c after heq houtside => ?_⟩
    · obtain ⟨hstands, hstop⟩ := standsAt_of_mem_placesFrom hsource hp
      have hwritable := isWritable_of_lex h _ (List.mem_map_of_mem hp)
      have hpos := hwritable.byteSize_pos
      rw [byteSize_eq, ← Token.text] at hpos
      exact ⟨hwritable, by omega, hstop, hstands⟩
    · have hspread : spread last spaced = before.toList ++ c :: after.toList := by
        rw [← hsource, heq]
        simp only [String.toList_append, String.toList_singleton, List.append_assoc,
          List.cons_append, List.nil_append]
      refine isSpace_of_outside (fun s hs => (hspaced s hs).2) hlast hspread
        fun p (hp : p ∈ placesFrom 0 spaced) => ?_
      rw [byteSize_eq, String.ofList_toList, Nat.zero_add]
      exact houtside p hp
  · rw [lex, String.toList_ofList]
    exact classify_scan_spread h 0

/-- Words, a placeholder of two bytes and a column with an escaped quote. -/
theorem lex_inverts_writing_mixed :
    let source := "\t[7 null\":é\"\r\n\"a\\\"b\" "
    let placed : List (Placed Token) :=
      [⟨.mark .openBracket, 1, 2⟩, ⟨.number "7", 2, 3⟩, ⟨.null, 4, 8⟩, ⟨.parameter "é", 8, 13⟩,
        ⟨.column "a\\\"b", 15, 21⟩]
    lex source = .ok placed ∧ StandsAt source "\":é\"" 8 ∧ Unicode.isSpace '\t' = true := by
  intro source placed
  let spaced : List SpacedToken :=
    [⟨['\t'], .mark .openBracket⟩, ⟨[], .number "7"⟩, ⟨[' '], .null⟩, ⟨[], .parameter "é"⟩,
      ⟨['\r', '\n'], .column "a\\\"b"⟩]
  have hspaced : AreWellSpaced spaced [' '] := by
    refine ⟨List.forall_mem_cons.2 ⟨trivial, List.forall_mem_cons.2 ⟨isNumber_iff.1 (by decide),
      List.forall_mem_cons.2 ⟨trivial, List.forall_mem_cons.2 ⟨⟨?_, by decide⟩,
      List.forall_mem_singleton.2 ⟨?_, by decide, fun op => ?_⟩⟩⟩⟩⟩, ?_, by decide, ?_⟩
    · exact .plain (by decide) (by decide) .nil
    · exact .plain (by decide) (by decide) (.pair _ (.plain (by decide) (by decide) .nil))
    · cases op <;> decide
    · simp [spaced, isBlankChar]
    · simp [spaced, Token.isBare]
  have hlex : lex source = .ok placed := lex_inverts_writing.2 spaced [' '] hspaced
  obtain ⟨-, hplaces, houtside⟩ := lex_inverts_writing.1 source placed hlex
  refine ⟨hlex, (hplaces ⟨.parameter "é", 8, 13⟩ (by simp [placed])).2.2.2, ?_⟩
  refine houtside "" '\t' "[7 null\":é\"\r\n\"a\\\"b\" " rfl fun p hp => .inl ?_
  simp only [placed, List.mem_cons, List.not_mem_nil, or_false] at hp
  rcases hp with rfl | rfl | rfl | rfl | rfl <;> decide

end EntityQuery.Condition
