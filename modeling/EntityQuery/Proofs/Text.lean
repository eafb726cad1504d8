import Mathlib.Data.List.DropRight
import EntityQuery.Proofs.Parameters.Minting
import EntityQuery.Text.Pieces
import EntityQuery.Text.Trim
import EntityQuery.Text.Unsigned

/-!
# Trimmed texts, pieces and digits

A text is trimmed where its ends are not blank (`Text.trimChars_eq_self`). Texts written with a
comma and a blank between them are found again by cutting at commas and trimming
(`Text.map_trimChars_pieces_intercalate`), and the digits of a number are read as the number
(`Text.unsignedChars?_toDigits`).
-/

namespace EntityQuery

namespace Text

variable {p : Char → Bool} {chars : List Char}

/-! ### The ends of a text -/

theorem rdropWhile_dropWhile_eq_self (first : ∀ c ∈ chars.head?, p c = false)
    (last : ∀ c ∈ chars.getLast?, p c = false) : (chars.dropWhile p).rdropWhile p = chars := by
  have hfirst : ([] ++ chars).dropWhile p = chars := dropWhile_run_append rfl first
  rw [List.nil_append] at hfirst
  rw [hfirst, List.rdropWhile_eq_self_iff]
  intro hne
  rw [last _ (List.getLast?_eq_some_getLast hne)]
  exact Bool.false_ne_true

theorem of_mem_head?_rdropWhile {c : Char} (h : c ∈ ((chars.dropWhile p).rdropWhile p).head?) :
    p c = false := by
  obtain ⟨tail, htail⟩ := List.rdropWhile_prefix p (chars.dropWhile p)
  refine ends_dropWhile p chars c ?_
  rw [← htail, List.head?_append, Option.mem_def.1 h]
  rfl

theorem of_mem_getLast?_rdropWhile {c : Char} (h : c ∈ (chars.rdropWhile p).getLast?) :
    p c = false := by
  rw [List.rdropWhile, List.getLast?_reverse] at h
  exact ends_dropWhile p chars.reverse c h

theorem trimChars_eq_self (first : ∀ c ∈ chars.head?, Unicode.isSpace c = false)
    (last : ∀ c ∈ chars.getLast?, Unicode.isSpace c = false) : trimChars chars = chars :=
  rdropWhile_dropWhile_eq_self first last

/-- A text is not trimmed between characters that are not blank. -/
theorem trimChars_between {first last : Char} (hfirst : Unicode.isSpace first = false)
    (hlast : Unicode.isSpace last = false) (inner : List Char) :
    trimChars (first :: inner ++ [last]) = first :: inner ++ [last] := by
  refine trimChars_eq_self (fun c hc => ?_) fun c hc => ?_
  · cases hc
    exact hfirst
  · rw [List.getLast?_concat] at hc
    cases hc
    exact hlast

theorem trimChars_space_cons (chars : List Char) : trimChars (' ' :: chars) = trimChars chars := by
  rw [trimChars, List.dropWhile_cons_of_pos (by decide +kernel), trimChars]

/-! ### Pieces between commas -/

theorem pieces_eq_splitOn (separator : Char) (chars : List Char) :
    pieces separator chars = chars.splitOn separator := by
  induction chars with
  | nil => rfl
  | cons c rest ih =>
      rw [pieces, List.splitOn_cons_eq_if_modifyHead, ih]
      simp only [beq_iff_eq]
      congr 1
      cases hpieces : rest.splitOn separator with
      | nil => exact absurd hpieces (List.splitOn_ne_nil separator rest)
      | cons piece others => rfl

theorem map_trimChars_splitOn_space_cons (chars : List Char) :
    ((' ' :: chars).splitOn ',').map trimChars = (chars.splitOn ',').map trimChars := by
  rw [List.splitOn_cons_eq_if_modifyHead, if_neg (by decide)]
  cases hpieces : chars.splitOn ',' with
  | nil => exact absurd hpieces (List.splitOn_ne_nil ',' chars)
  | cons piece others => exact congrArg (· :: others.map trimChars) (trimChars_space_cons piece)

/-- Texts that are written with a comma and a blank between them are found again. -/
theorem map_trimChars_pieces_intercalate {items : List (List Char)} (nonempty : items ≠ [])
    (h : ∀ item ∈ items, ',' ∉ item ∧ trimChars item = item) :
    (pieces ',' (", ".toList.intercalate items)).map trimChars = items := by
  rw [pieces_eq_splitOn]
  induction items with
  | nil => exact absurd rfl nonempty
  | cons first rest ih =>
      obtain ⟨⟨hcomma, htrim⟩, hrest⟩ := List.forall_mem_cons.1 h
      cases rest with
      | nil =>
          rw [List.intercalate_singleton, List.splitOn_eq_singleton hcomma, List.map_singleton,
            htrim]
      | cons second rest =>
          have hwhole : ", ".toList.intercalate (first :: second :: rest) =
              first ++ ',' :: ' ' :: ", ".toList.intercalate (second :: rest) := by
            rw [List.intercalate_cons_cons, List.append_assoc]
            rfl
          rw [hwhole, List.splitOn_append_cons_self, List.splitOn_eq_singleton hcomma,
            List.map_append, map_trimChars_splitOn_space_cons, ih (List.cons_ne_nil _ _) hrest,
            List.map_singleton, htrim, List.singleton_append]

theorem notMem_of_mem_pieces {separator : Char} {piece : List Char}
    (h : piece ∈ pieces separator chars) : separator ∉ piece := by
  rw [pieces_eq_splitOn] at h
  induction chars generalizing piece with
  | nil =>
      obtain rfl := List.mem_singleton.1 h
      exact List.not_mem_nil
  | cons c rest ih =>
      rw [List.splitOn_cons_eq_if_modifyHead] at h
      split at h
      next =>
        rcases List.mem_cons.1 h with rfl | hrest
        · exact List.not_mem_nil
        · exact ih hrest
      next hc =>
        cases hpieces : rest.splitOn separator with
        | nil => exact absurd hpieces (List.splitOn_ne_nil separator rest)
        | cons first others =>
            rw [hpieces] at h ih
            rcases List.mem_cons.1 h with rfl | hothers
            · exact List.not_mem_cons_of_ne_of_not_mem (fun heq => hc (heq ▸ beq_self_eq_true _))
                (ih List.mem_cons_self)
            · exact ih (List.mem_cons_of_mem first hothers)

/-! ### Digits -/

theorem isSpace_of_isDigit {c : Char} (h : c.isDigit = true) : Unicode.isSpace c = false := by
  have hrange := toNat_of_isDigit h
  rw [Unicode.isSpace, Unicode.CodePoints.contains, List.any_eq_false]
  intro range hmem
  have hother : ∀ range ∈ Unicode.whiteSpace.ranges, range.2 < 0x30 ∨ 0x39 < range.1 := by
    decide +kernel
  have hrange' := hother range hmem
  simp only [Bool.and_eq_true, decide_eq_true_eq]
  omega

theorem lowerChar_of_isDigit {c : Char} (h : c.isDigit = true) : lowerChar c = c := by
  have hrange := toNat_of_isDigit h
  have hkelvin : c ≠ '\u212a' := by
    rintro rfl
    exact absurd h (by decide)
  have hcapital : ¬(c.val ≥ 'A'.val ∧ c.val ≤ 'Z'.val) := fun hbounds => by
    have hlow : 'A'.toNat ≤ c.toNat := hbounds.1
    have hA : 'A'.toNat = 65 := rfl
    omega
  rw [lowerChar, if_neg hkelvin]
  exact dif_neg hcapital

theorem trimChars_toDigits (n : Nat) : trimChars (Nat.toDigits 10 n) = Nat.toDigits 10 n := by
  have hdigits := List.all_eq_true.1 (Parameters.all_isDigit_toDigits n)
  exact trimChars_eq_self (fun c hc => isSpace_of_isDigit (hdigits c (List.mem_of_mem_head? hc)))
    fun c hc => isSpace_of_isDigit (hdigits c (List.mem_of_mem_getLast? hc))

theorem map_lowerChar_toDigits (n : Nat) :
    (Nat.toDigits 10 n).map lowerChar = Nat.toDigits 10 n := by
  have hdigits := List.all_eq_true.1 (Parameters.all_isDigit_toDigits n)
  rw [List.map_congr_left fun c hc => lowerChar_of_isDigit (hdigits c hc), List.map_id']

theorem comma_notMem_toDigits (n : Nat) : ',' ∉ Nat.toDigits 10 n := fun h =>
  absurd (List.all_eq_true.1 (Parameters.all_isDigit_toDigits n) _ h) (by decide)

theorem unsignedChars?_toDigits {n bound : Nat} (h : n < bound) :
    unsignedChars? bound (Nat.toDigits 10 n) = some n := by
  have hdigits := Parameters.all_isDigit_toDigits n
  have hvalue : digitsValue (Nat.toDigits 10 n) = n := Nat.ofDigitChars_ten_toDigits
  have hunsigned : ∀ rest, Nat.toDigits 10 n = '+' :: rest → False := by
    intro rest heq
    rw [heq, List.all_cons] at hdigits
    cases hdigits
  rw [unsignedChars?.eq_2 bound _ hunsigned, if_pos ⟨Nat.toDigits_ne_nil, hdigits, hvalue.symm ▸ h⟩,
    hvalue]

theorem uint8?_toDigits (n : UInt8) :
    uint8? (String.ofList (Nat.toDigits 10 n.toNat)) = some n := by
  rw [uint8?, String.toList_ofList, unsignedChars?_toDigits n.toNat_lt_size, Option.map_some,
    UInt8.ofNat_toNat]

theorem uint32?_toDigits (n : UInt32) :
    uint32? (String.ofList (Nat.toDigits 10 n.toNat)) = some n := by
  rw [uint32?, String.toList_ofList, unsignedChars?_toDigits n.toNat_lt_size, Option.map_some,
    UInt32.ofNat_toNat]

end Text

end EntityQuery
