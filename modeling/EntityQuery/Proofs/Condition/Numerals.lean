import EntityQuery.Condition.Lexer
import EntityQuery.Proofs.Runs

/-!
# The pattern of numbers

A word is a number exactly if it has four parts in this order: an optional minus
sign, decimal digits, an optional point with digits after it, and an optional
exponent of a letter, an optional sign and digits (`isNumber_iff`). Each part of
the word is described by what it is made of and not by where it is cut.
-/

namespace EntityQuery.Condition

/-- Decimal digits, at least one. -/
def AreDigits (chars : List Char) : Prop := chars ≠ [] ∧ chars.all Unicode.isDigit = true

/-- A point with digits after it, or nothing. -/
def IsFractionPart (chars : List Char) : Prop :=
  chars = [] ∨ ∃ digits, AreDigits digits ∧ chars = '.' :: digits

/-- A letter, perhaps a sign, and digits, or nothing. -/
def IsExponentPart (chars : List Char) : Prop :=
  chars = [] ∨ ∃ letter ∈ ['e', 'E'], ∃ sign ∈ [[], ['+'], ['-']], ∃ digits,
    AreDigits digits ∧ chars = letter :: sign ++ digits

/-- The pattern of numbers. -/
def IsNumeral (chars : List Char) : Prop :=
  ∃ sign ∈ [[], ['-']], ∃ whole fraction exponent, AreDigits whole ∧ IsFractionPart fraction ∧
    IsExponentPart exponent ∧ chars = sign ++ whole ++ fraction ++ exponent

variable {chars digits rest : List Char}

theorem areDigits_iff :
    (!digits.isEmpty && digits.all Unicode.isDigit) = true ↔ AreDigits digits := by
  rw [Bool.and_eq_true, Bool.not_eq_true', ← Bool.not_eq_true, List.isEmpty_iff, AreDigits]

theorem AreDigits.ne_cons {c : Char} (h : AreDigits digits) (hc : Unicode.isDigit c = false) :
    digits ≠ c :: rest := by
  rintro rfl
  have hall := h.2
  rw [List.all_cons, hc] at hall
  cases hall

/-- Digits before something else are found again. -/
theorem AreDigits.takeWhile_append (h : AreDigits digits)
    (ends : ∀ c ∈ rest.head?, Unicode.isDigit c = false) :
    (digits ++ rest).takeWhile Unicode.isDigit = digits ∧
      (digits ++ rest).dropWhile Unicode.isDigit = rest :=
  ⟨takeWhile_run_append h.2 ends, dropWhile_run_append h.2 ends⟩

theorem areDigits_takeWhile (h : (!(chars.takeWhile Unicode.isDigit).isEmpty) = true) :
    AreDigits (chars.takeWhile Unicode.isDigit) :=
  areDigits_iff.1 (by rw [h, List.all_takeWhile]; rfl)

/-! ### The parts -/

theorem isExponent_iff : isExponent chars = true ↔
    ∃ sign ∈ [[], ['+'], ['-']], ∃ digits, AreDigits digits ∧ chars = sign ++ digits := by
  constructor
  · intro h
    unfold isExponent at h
    split at h
    next digits => exact ⟨['+'], by simp, digits, areDigits_iff.1 h, rfl⟩
    next digits => exact ⟨['-'], by simp, digits, areDigits_iff.1 h, rfl⟩
    next => exact ⟨[], by simp, chars, areDigits_iff.1 h, rfl⟩
  · rintro ⟨sign, hsign, digits, hdigits, rfl⟩
    simp only [List.mem_cons, List.not_mem_nil, or_false] at hsign
    rcases hsign with rfl | rfl | rfl
    · have hplus : ∀ rest, digits ≠ '+' :: rest := fun _ => hdigits.ne_cons (by decide)
      have hminus : ∀ rest, digits ≠ '-' :: rest := fun _ => hdigits.ne_cons (by decide)
      rw [List.nil_append, isExponent.eq_3 digits hplus hminus, areDigits_iff]
      exact hdigits
    · exact areDigits_iff.2 hdigits
    · exact areDigits_iff.2 hdigits

theorem isScale_iff : isScale chars = true ↔ IsExponentPart chars := by
  constructor
  · intro h
    unfold isScale at h
    split at h
    next => exact .inl rfl
    next rest =>
      obtain ⟨sign, hsign, digits, hdigits, rfl⟩ := isExponent_iff.1 h
      exact .inr ⟨'e', by simp, sign, hsign, digits, hdigits, rfl⟩
    next rest =>
      obtain ⟨sign, hsign, digits, hdigits, rfl⟩ := isExponent_iff.1 h
      exact .inr ⟨'E', by simp, sign, hsign, digits, hdigits, rfl⟩
    next => cases h
  · rintro (rfl | ⟨letter, hletter, sign, hsign, digits, hdigits, rfl⟩)
    · rfl
    · have hexponent := isExponent_iff.2 ⟨sign, hsign, digits, hdigits, rfl⟩
      simp only [List.mem_cons, List.not_mem_nil, or_false] at hletter
      rcases hletter with rfl | rfl <;> exact hexponent

/-- Neither an exponent nor a fraction begins with a digit. -/
theorem IsExponentPart.head?_eq {exponent : List Char} (h : IsExponentPart exponent) :
    ∀ c ∈ exponent.head?, Unicode.isDigit c = false ∧ c ≠ '.' := by
  rintro c hc
  rcases h with rfl | ⟨letter, hletter, sign, -, digits, -, rfl⟩
  · cases hc
  · cases hc
    simp only [List.mem_cons, List.not_mem_nil, or_false] at hletter
    rcases hletter with rfl | rfl <;> decide

theorem isFraction_iff : isFraction chars = true ↔
    ∃ fraction exponent, IsFractionPart fraction ∧ IsExponentPart exponent ∧
      chars = fraction ++ exponent := by
  constructor
  · intro h
    unfold isFraction at h
    split at h
    next rest =>
      rw [Bool.and_eq_true] at h
      refine ⟨'.' :: rest.takeWhile Unicode.isDigit, rest.dropWhile Unicode.isDigit,
        .inr ⟨_, areDigits_takeWhile h.1, rfl⟩, isScale_iff.1 h.2, ?_⟩
      rw [List.cons_append, List.takeWhile_append_dropWhile]
    next => exact ⟨[], chars, .inl rfl, isScale_iff.1 h, rfl⟩
  · rintro ⟨fraction, exponent, hfraction | ⟨digits, hdigits, hfraction⟩, hexponent, rfl⟩
    · subst hfraction
      have hpoint : ∀ rest, exponent ≠ '.' :: rest := by
        rintro rest rfl
        exact (hexponent.head?_eq '.' rfl).2 rfl
      rw [List.nil_append, isFraction.eq_2 exponent hpoint]
      exact isScale_iff.2 hexponent
    · subst hfraction
      obtain ⟨htake, hdrop⟩ :=
        hdigits.takeWhile_append fun c hc => (hexponent.head?_eq c hc).1
      rw [List.cons_append, isFraction, htake, hdrop, isScale_iff.2 hexponent, Bool.and_true,
        Bool.not_eq_true', ← Bool.not_eq_true, List.isEmpty_iff]
      exact hdigits.1

theorem isUnsignedNumber_iff : isUnsignedNumber chars = true ↔
    ∃ whole fraction exponent, AreDigits whole ∧ IsFractionPart fraction ∧
      IsExponentPart exponent ∧ chars = whole ++ (fraction ++ exponent) := by
  rw [isUnsignedNumber, Bool.and_eq_true, isFraction_iff]
  constructor
  · rintro ⟨hwhole, fraction, exponent, hfraction, hexponent, hrest⟩
    refine ⟨_, fraction, exponent, areDigits_takeWhile hwhole, hfraction, hexponent, ?_⟩
    rw [← hrest, List.takeWhile_append_dropWhile]
  · rintro ⟨whole, fraction, exponent, hwhole, hfraction, hexponent, rfl⟩
    have hends : ∀ c ∈ (fraction ++ exponent).head?, Unicode.isDigit c = false := by
      rcases hfraction with rfl | ⟨digits, -, rfl⟩
      · exact fun c hc => (hexponent.head?_eq c hc).1
      · rintro c ⟨⟩
        decide
    obtain ⟨htake, hdrop⟩ := hwhole.takeWhile_append hends
    rw [htake, hdrop, Bool.not_eq_true', ← Bool.not_eq_true, List.isEmpty_iff]
    exact ⟨hwhole.1, fraction, exponent, hfraction, hexponent, rfl⟩

/-- A word is a number exactly if it has the pattern of numbers. -/
theorem isNumber_iff : isNumber chars = true ↔ IsNumeral chars := by
  constructor
  · intro h
    unfold isNumber at h
    split at h
    next rest =>
      obtain ⟨whole, fraction, exponent, hwhole, hfraction, hexponent, rfl⟩ :=
        isUnsignedNumber_iff.1 h
      exact ⟨['-'], by simp, whole, fraction, exponent, hwhole, hfraction, hexponent, by simp⟩
    next =>
      obtain ⟨whole, fraction, exponent, hwhole, hfraction, hexponent, rfl⟩ :=
        isUnsignedNumber_iff.1 h
      exact ⟨[], by simp, whole, fraction, exponent, hwhole, hfraction, hexponent, by simp⟩
  · rintro ⟨sign, hsign, whole, fraction, exponent, hwhole, hfraction, hexponent, rfl⟩
    have hunsigned : isUnsignedNumber (whole ++ (fraction ++ exponent)) = true :=
      isUnsignedNumber_iff.2 ⟨whole, fraction, exponent, hwhole, hfraction, hexponent, rfl⟩
    rw [List.append_assoc, List.append_assoc]
    simp only [List.mem_cons, List.not_mem_nil, or_false] at hsign
    rcases hsign with rfl | rfl
    · have hminus : ∀ rest, whole ++ (fraction ++ exponent) ≠ '-' :: rest := by
        obtain ⟨c, word, rfl⟩ := List.exists_cons_of_ne_nil hwhole.1
        rintro rest ⟨⟩
        exact hwhole.ne_cons (by decide) rfl
      rw [List.nil_append, isNumber.eq_2 _ hminus]
      exact hunsigned
    · exact hunsigned

end EntityQuery.Condition
