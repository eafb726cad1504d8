import EntityQuery.Proofs.Condition.Places

/-!
# Where reading tokens fails

The error of a text that cannot be read as tokens is about the first of its
lexemes that is none: the text before it is read (`exists_of_scan_error`), and what
is blamed stands right after that. It is the empty placeholder, a word that is as
long as it can be, or a quote that is not closed with all that follows
(`lex_error`). To cut a source into lexemes never fails, so nothing else is an error.
-/

namespace EntityQuery.Condition

/-- The characters that no word contains. -/
def wordEnds : List Char := ['{', '}', '[', ']', ':', ',', '"', ' ', '\t', '\r', '\n']

variable {source rest : List Char} {error : Error}

/-- The first lexeme that is no token divides the source, and what stands before it
is read. -/
theorem exists_of_scan_error {position : Nat}
    (h : (scan position source).mapM classify = .error error) :
    ∃ before, ∃ lexeme : Lexeme, ∃ rest placed, source = before ++ (lexeme.chars ++ rest) ∧
      lexeme.Fits rest ∧ lexeme.Fails (position + byteSize before) error ∧
      (scan position before).mapM classify = .ok placed := by
  fun_induction scan position source with
  | case1 position =>
      rw [List.mapM_nil] at h
      cases h
  | case2 position c rest space ih =>
      obtain ⟨before, lexeme, after, placed, rfl, hfits, hfails, hplaced⟩ := ih h
      refine ⟨c :: before, lexeme, after, placed, rfl, hfits, ?_, ?_⟩
      · rwa [byteSize_cons, ← Nat.add_assoc]
      · rwa [scan, if_pos space]
  | case3 position c rest space stop =>
      rename_i ih
      have hfits := fits_cut (Bool.not_eq_true _ ▸ space) rest
      rw [List.mapM_cons] at h
      rcases bind_eq_error.1 h with hfirst | ⟨first, hfirst, h⟩
      · refine ⟨[], _, _, [], (chars_cut c rest).symm, hfits, fails_of_classify hfirst, ?_⟩
        rw [scan]
        rfl
      · have hothers : (scan stop (cut c rest).2).mapM classify = .error error := by
          rcases bind_eq_error.1 h with hothers | ⟨others, -, h⟩
          · exact hothers
          · cases h
        obtain ⟨before, lexeme, after, placed, hrest, hlexeme, hfails, hplaced⟩ := ih hothers
        have hspells := spells_of_classify hfirst
        have hchars : first.value.chars = (cut c rest).1.chars := hspells.chars_eq
        refine ⟨first.value.chars ++ before, lexeme, after,
          ⟨first.value, position, stop⟩ :: placed, ?_, hlexeme, ?_, ?_⟩
        · rw [List.append_assoc, ← hrest, hchars, chars_cut]
        · rwa [byteSize_append, ← Nat.add_assoc, hchars]
        · rw [hrest] at hfits
          rw [classify_scan_append hspells hfits.of_append, hchars, hplaced]
          rfl

/-- A word goes on up to the next character that ends words. -/
theorem takeWhile_wordEnds {chars : List Char} (inside : chars.all (!endsWord ·) = true)
    (ends : EndsWord rest) : (chars ++ rest).takeWhile (· ∉ wordEnds) = chars := by
  have hiff : ∀ c, decide (c ∉ wordEnds) = !endsWord c := by
    intro c
    rw [decide_not, Bool.not_inj_iff, Bool.eq_iff_iff, decide_eq_true_eq]
    exact endsWord_iff.symm
  simp only [hiff]
  rw [List.takeWhile_append_of_pos (List.all_eq_true.1 inside)]
  cases rest with
  | nil => exact List.append_nil _
  | cons c rest =>
      rw [List.takeWhile_cons_of_neg (by rw [ends c rfl]; decide), List.append_nil]

/-- A text that is not read as tokens is blamed for its first lexeme that is none. The
text before it is read. What is blamed stands in the source after that: a quote that
is not closed with all that follows, the placeholder without a name, or the longest
word there, which is neither null nor a number. -/
theorem lex_error {source : String} (h : lex source = .error error) :
    ∃ before text after placed, source = before ++ text ++ after ∧ lex before = .ok placed ∧
      (error = .unterminatedString text before.utf8ByteSize ∧ after = "" ∧
          (∃ content, text.toList = '"' :: content ∧ IsUnclosed content) ∨
        error = .unexpectedText text before.utf8ByteSize ∧
          (text = "\":\"" ∨
            text ≠ "" ∧ text.toList = (text ++ after).toList.takeWhile (· ∉ wordEnds) ∧
              text ≠ "null" ∧ ¬IsNumeral text.toList)) := by
  obtain ⟨before, lexeme, rest, placed, hsource, hfits, hfails, hplaced⟩ := exists_of_scan_error h
  rw [Nat.zero_add, byteSize_eq] at hfails
  refine ⟨String.ofList before, String.ofList lexeme.chars, String.ofList rest, placed, ?_, ?_, ?_⟩
  · rw [← String.toList_inj, hsource]
    simp only [String.toList_append, String.toList_ofList, List.append_assoc]
  · rwa [lex, String.toList_ofList]
  cases hfails with
  | colon => exact .inr ⟨rfl, .inl rfl⟩
  | unterminated content =>
      cases hfits with
      | unterminated unclosed =>
          exact .inl ⟨rfl, rfl, content, String.toList_ofList, unclosed⟩
  | @word chars null number =>
      cases hfits with
      | word ne inside ends =>
          refine .inr ⟨rfl, .inr ⟨fun hempty => ne ?_, ?_, fun hnull => null ?_, ?_⟩⟩
          · exact String.ofList_injective hempty
          · rw [String.toList_append, String.toList_ofList, String.toList_ofList]
            exact (takeWhile_wordEnds inside ends).symm
          · exact String.ofList_injective hnull
          · rw [String.toList_ofList, Lexeme.chars, ← isNumber_iff, number]
            exact Bool.false_ne_true

/-- A word that only looks like a number, after a placeholder of two bytes; a quote that only an
escaped one follows; and a placeholder without a name. -/
theorem lex_error_kinds :
    (lex "\":é\" x-1]" = .error (.unexpectedText "x-1" 6) ∧
      ∃ before after placed, "\":é\" x-1]" = before ++ "x-1" ++ after ∧
        before.utf8ByteSize = 6 ∧ lex before = .ok placed) ∧
    (lex "null \"a\\\"]" = .error (.unterminatedString "\"a\\\"]" 5) ∧
      ∃ before placed, "null \"a\\\"]" = before ++ "\"a\\\"]" ∧
        before.utf8ByteSize = 5 ∧ lex before = .ok placed) ∧
    lex "[\":\"]" = .error (.unexpectedText "\":\"" 1) ∧
      ∃ before after placed, "[\":\"]" = before ++ "\":\"" ++ after ∧
        before.utf8ByteSize = 1 ∧ lex before = .ok placed := by
  have hword : lex "\":é\" x-1]" = .error (.unexpectedText "x-1" 6) :=
    map_eq_error.1 (by decide +kernel : (lex "\":é\" x-1]").map (List.map Placed.value) = _)
  have hquote : lex "null \"a\\\"]" = .error (.unterminatedString "\"a\\\"]" 5) :=
    map_eq_error.1 (by decide +kernel : (lex "null \"a\\\"]").map (List.map Placed.value) = _)
  have hcolon : lex "[\":\"]" = .error (.unexpectedText "\":\"" 1) :=
    map_eq_error.1 (by decide +kernel : (lex "[\":\"]").map (List.map Placed.value) = _)
  refine ⟨⟨hword, ?_⟩, ⟨hquote, ?_⟩, hcolon, ?_⟩
  · obtain ⟨before, text, after, placed, hsource, hbefore, ⟨⟨⟩, -⟩ | ⟨herror, -⟩⟩ :=
      lex_error hword
    obtain ⟨rfl, hsize⟩ := Error.unexpectedText.inj herror
    exact ⟨before, after, placed, hsource, hsize.symm, hbefore⟩
  · obtain ⟨before, text, after, placed, hsource, hbefore, ⟨herror, rfl, -⟩ | ⟨⟨⟩, -⟩⟩ :=
      lex_error hquote
    obtain ⟨rfl, hsize⟩ := Error.unterminatedString.inj herror
    exact ⟨before, placed, hsource.trans String.append_empty, hsize.symm, hbefore⟩
  · obtain ⟨before, text, after, placed, hsource, hbefore, ⟨⟨⟩, -⟩ | ⟨herror, -⟩⟩ :=
      lex_error hcolon
    obtain ⟨rfl, hsize⟩ := Error.unexpectedText.inj herror
    exact ⟨before, after, placed, hsource, hsize.symm, hbefore⟩

end EntityQuery.Condition
