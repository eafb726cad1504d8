import EntityQuery.Proofs.Condition.Values

/-!
# How a source is cut

A lexeme is cut off a source exactly if its characters stand at the beginning
and it fits what follows it (`cut_eq_iff`): a word ends where the next character
ends words, and a quote that is not closed is followed by nothing. So what a
lexeme is depends on its own characters and on little of the rest, and a source
is scanned from left to right by putting lexemes and white space in front of
what has been scanned (`scan_append`, `scan_spaces`).
-/

namespace EntityQuery

/-- Characters that may stand between quotes: a backslash takes the next
character with it, and no quote stands outside of these pairs. -/
inductive Text.IsQuotable : List Char → Prop
  | nil : IsQuotable []
  | plain {c : Char} {raw : List Char} (quote : c ≠ '"') (slash : c ≠ '\\')
      (h : IsQuotable raw) : IsQuotable (c :: raw)
  | pair (c : Char) {raw : List Char} (h : IsQuotable raw) : IsQuotable ('\\' :: c :: raw)

namespace Condition

/-- No quote in a text closes it: each of them is taken by a backslash. -/
def IsUnclosed (content : List Char) : Prop :=
  ∀ raw rest, Text.IsQuotable raw → content ≠ raw ++ '"' :: rest

variable {source raw rest more blanks : List Char} {lexeme : Lexeme}

theorem isDelimited_of_isQuotable (h : Text.IsQuotable raw) : IsDelimited raw := by
  induction h with
  | nil => exact fun _ => rfl
  | plain quote slash _ ih => exact isDelimited_cons quote slash ih
  | pair c _ ih => exact isDelimited_escape ih

theorem isQuotable_of_splitQuoted (h : Text.splitQuoted source = some (raw, rest)) :
    Text.IsQuotable raw := by
  fun_induction Text.splitQuoted source generalizing raw with
  | case1 => cases h
  | case2 rest => cases h; exact .nil
  | case3 => cases h
  | case4 c rest ih =>
      obtain ⟨⟨raw, after⟩, hrest, ⟨⟩⟩ := Option.map_eq_some_iff.1 h
      exact .pair c (ih hrest)
  | case5 c rest quote dangling slash ih =>
      obtain ⟨⟨raw, after⟩, hrest, ⟨⟩⟩ := Option.map_eq_some_iff.1 h
      refine .plain quote ?_ (ih hrest)
      rintro rfl
      cases rest with
      | nil => exact dangling rfl rfl
      | cons d rest => exact slash d rest rfl rfl

/-- A quoted text ends at the first quote outside of the pairs. -/
theorem splitQuoted_eq_some_iff : Text.splitQuoted source = some (raw, rest) ↔
    Text.IsQuotable raw ∧ source = raw ++ '"' :: rest := by
  constructor
  · intro h
    exact ⟨isQuotable_of_splitQuoted h, (Text.append_of_splitQuoted h).symm⟩
  · rintro ⟨hraw, rfl⟩
    exact isDelimited_of_isQuotable hraw rest

theorem splitQuoted_eq_none_iff : Text.splitQuoted source = none ↔ IsUnclosed source := by
  rw [Option.eq_none_iff_forall_ne_some, Prod.forall]
  exact forall₂_congr fun raw rest => by rw [Ne, splitQuoted_eq_some_iff, not_and]

/-! ### Cutting -/

/-- A lexeme may stand before some text. -/
inductive Lexeme.Fits : Lexeme → List Char → Prop
  | mark (m : Mark) (rest : List Char) : Fits (.mark m) rest
  | quoted {raw : List Char} (quotable : Text.IsQuotable raw) (rest : List Char) :
      Fits (.quoted raw) rest
  | unterminated {content : List Char} (unclosed : IsUnclosed content) :
      Fits (.unterminated content) []
  | word {chars rest : List Char} (ne : chars ≠ []) (inside : chars.all (!endsWord ·) = true)
      (ends : EndsWord rest) : Fits (.word chars) rest

theorem EndsWord.of_append (h : EndsWord (rest ++ more)) : EndsWord rest := by
  intro c hc
  apply h c
  rw [List.head?_append, Option.mem_def.1 hc]
  rfl

/-- What a lexeme fits may be cut short. -/
theorem Lexeme.Fits.of_append (h : lexeme.Fits (rest ++ more)) : lexeme.Fits rest := by
  generalize hall : rest ++ more = all at h
  cases h with
  | mark m => exact .mark m rest
  | quoted quotable => exact .quoted quotable rest
  | unterminated unclosed =>
      obtain ⟨rfl, -⟩ := List.append_eq_nil_iff.1 hall
      exact .unterminated unclosed
  | word ne inside ends =>
      subst hall
      exact .word ne inside ends.of_append

theorem Lexeme.Fits.exists_chars_eq_cons (h : lexeme.Fits rest) :
    ∃ c chars, lexeme.chars = c :: chars := by
  cases h with
  | mark m => exact ⟨m.char, [], rfl⟩
  | @quoted raw => exact ⟨'"', raw ++ ['"'], rfl⟩
  | @unterminated content => exact ⟨'"', content, rfl⟩
  | word ne => exact List.exists_cons_of_ne_nil ne

/-- Of a text that is not closed, the rest of the source is cut off. -/
theorem cut_unterminated (unclosed : IsUnclosed source) :
    cut '"' source = (.unterminated source, []) := by
  have hmark : Mark.ofChar? '"' = none := by decide
  simp only [cut, hmark, if_pos, splitQuoted_eq_none_iff.2 unclosed]

theorem endsWord_eq_false {c : Char} (hmark : Mark.ofChar? c = none) (hquote : c ≠ '"')
    (space : Unicode.isSpace c = false) : endsWord c = false := by
  have hblank : ∀ d ∈ [' ', '\t', '\r', '\n'], c ≠ d := by
    rintro d hd rfl
    have hall := List.all_eq_true.1 (by decide : [' ', '\t', '\r', '\n'].all Unicode.isSpace = true)
    rw [hall c hd] at space
    cases space
  simp [endsWord, hmark, hquote, hblank]

theorem fits_cut {c : Char} (space : Unicode.isSpace c = false) (source : List Char) :
    (cut c source).1.Fits (cut c source).2 := by
  simp only [cut]
  split
  next m hm => exact .mark m source
  next hmark =>
    split
    next hquote =>
      split
      next raw rest hsplit => exact .quoted (isQuotable_of_splitQuoted hsplit) rest
      next hsplit => exact .unterminated (splitQuoted_eq_none_iff.1 hsplit)
    next hquote =>
      refine .word (List.cons_ne_nil _ _) ?_ fun d hd => ?_
      · rw [List.all_cons, endsWord_eq_false hmark hquote space]
        exact List.all_takeWhile
      · simpa using ends_dropWhile (!endsWord ·) source d hd

/-- A lexeme is cut off where its characters stand and it fits the rest. -/
theorem cut_eq_iff {c : Char} (space : Unicode.isSpace c = false) :
    cut c source = (lexeme, rest) ↔ lexeme.chars ++ rest = c :: source ∧ lexeme.Fits rest := by
  constructor
  · intro h
    have hchars := chars_cut c source
    have hfits := fits_cut space source
    rw [h] at hchars hfits
    exact ⟨hchars, hfits⟩
  · rintro ⟨hchars, hfits⟩
    cases hfits with
    | mark m =>
        obtain ⟨rfl, rfl⟩ := List.cons.inj hchars
        exact cut_mark m rest
    | quoted quotable =>
        rw [Lexeme.chars, List.cons_append, List.cons_append, List.append_assoc] at hchars
        obtain ⟨rfl, rfl⟩ := List.cons.inj hchars
        exact cut_quoted (isDelimited_of_isQuotable quotable) rest
    | unterminated unclosed =>
        rw [List.append_nil] at hchars
        obtain ⟨rfl, rfl⟩ := List.cons.inj hchars
        exact cut_unterminated unclosed
    | word ne inside ends =>
        obtain ⟨d, word, rfl⟩ := List.exists_cons_of_ne_nil ne
        obtain ⟨rfl, rfl⟩ := List.cons.inj hchars
        exact cut_word inside ends

/-! ### Scanning -/

theorem byteSize_eq (chars : List Char) : byteSize chars = (String.ofList chars).utf8ByteSize := by
  have hsum : ∀ size, chars.foldl (fun size c => size + c.utf8Size) size =
      size + (String.ofList chars).utf8ByteSize := by
    induction chars with
    | nil => exact fun _ => rfl
    | cons c chars ih =>
        intro size
        rw [List.foldl_cons, ih, String.ofList_cons, String.utf8ByteSize_append,
          String.utf8ByteSize_singleton, Nat.add_assoc]
  rw [byteSize, hsum, Nat.zero_add]

theorem byteSize_cons (c : Char) (chars : List Char) :
    byteSize (c :: chars) = c.utf8Size + byteSize chars := by
  rw [byteSize_eq, byteSize_eq, String.ofList_cons, String.utf8ByteSize_append,
    String.utf8ByteSize_singleton]

theorem byteSize_append (chars more : List Char) :
    byteSize (chars ++ more) = byteSize chars + byteSize more := by
  rw [byteSize_eq, byteSize_eq, byteSize_eq, String.ofList_append, String.utf8ByteSize_append]

/-- White space is skipped. -/
theorem scan_spaces (h : blanks.all Unicode.isSpace = true) (position : Nat) :
    scan position (blanks ++ rest) = scan (position + byteSize blanks) rest := by
  induction blanks generalizing position with
  | nil => rfl
  | cons c blanks ih =>
      rw [List.all_cons, Bool.and_eq_true] at h
      rw [List.cons_append, scan, if_pos h.1, ih h.2, byteSize_cons, Nat.add_assoc]

/-- A lexeme that fits what follows it is scanned as one. -/
theorem scan_append (fits : lexeme.Fits rest)
    (space : ∀ c ∈ lexeme.chars.head?, Unicode.isSpace c = false) (position : Nat) :
    scan position (lexeme.chars ++ rest) =
      ⟨lexeme, position, position + byteSize lexeme.chars⟩ ::
        scan (position + byteSize lexeme.chars) rest := by
  obtain ⟨c, chars, hchars⟩ := fits.exists_chars_eq_cons
  have hcut : cut c (chars ++ rest) = (lexeme, rest) :=
    (cut_eq_iff (space c (by rw [hchars]; rfl))).2 ⟨by rw [hchars, List.cons_append], fits⟩
  rw [hchars] at space
  rw [hchars, List.cons_append, scan, if_neg (by rw [space c rfl]; exact Bool.false_ne_true)]
  simp only [hcut, hchars]

end Condition

end EntityQuery
