import EntityQuery.Proofs.Json.Injectivity

/-!
# Escaped text

What stands between the quotes of a JSON string is the text with its escapes.
Different texts have different escapes (`Json.escapedText_inj`), and the texts
that stand for themselves are those without quotes, backslashes and controls
(`Json.escapedText_eq_self_iff`). Likewise a value stands for itself if each of its
texts does (`Json.escaped_eq_self_iff`).
-/

namespace EntityQuery.Json

/-- A text as it stands between the quotes of a JSON string. -/
def escapedText (text : String) : String := String.ofList (text.toList.flatMap escapedChar)

/-- Whether a character stands for itself in JSON strings. -/
def isPlainChar (c : Char) : Bool := c != '"' && c != '\\' && 0x20 ≤ c.toNat

/-- Whether a text stands for itself in JSON strings. -/
def isPlain (text : String) : Bool := text.toList.all isPlainChar

theorem isPlain_append {text more : String} :
    isPlain (text ++ more) = (isPlain text && isPlain more) := by
  rw [isPlain, String.toList_append, List.all_append, isPlain, isPlain]

theorem escapedChar_of_isPlainChar {c : Char} (h : isPlainChar c = true) :
    escapedChar c = [c] := by
  simp only [isPlainChar, Bool.and_eq_true, bne_iff_ne, decide_eq_true_eq] at h
  obtain ⟨⟨hquote, hslash⟩, hcontrol⟩ := h
  have hne : ∀ d : Char, d.toNat < 0x20 → c ≠ d := by
    rintro d hd rfl
    omega
  rw [escapedChar, if_neg hquote, if_neg hslash, if_neg (hne _ (by decide)),
    if_neg (hne _ (by decide)), if_neg (hne _ (by decide)), if_neg (hne _ (by decide)),
    if_neg (hne _ (by decide)), if_neg (by omega)]

/-- An escape is a backslash, some character and plain characters. -/
theorem escapedChar_of_not_isPlainChar {c : Char} (h : ¬isPlainChar c = true) :
    ∃ d more, escapedChar c = '\\' :: d :: more ∧ more.all isPlainChar = true := by
  unfold escapedChar
  split
  · exact ⟨'"', [], rfl, rfl⟩
  iterate 6
    split
    · exact ⟨_, [], rfl, rfl⟩
  split
  next hcontrol =>
    refine ⟨'u', _, rfl, ?_⟩
    have hdigit : ∀ n < 16, isPlainChar (Nat.digitChar n) = true := by decide
    have hhigh := hdigit (c.toNat / 16) (by omega)
    have hlow := hdigit (c.toNat % 16) (by omega)
    rw [List.all_cons, List.all_cons, List.all_cons, List.all_cons, hhigh, hlow]
    rfl
  next hquote hslash _ _ _ _ _ hcontrol =>
    have hplain : isPlainChar c = true := by
      simp [isPlainChar, hquote, hslash, Nat.le_of_not_lt hcontrol]
    exact absurd hplain h

theorem length_le_flatMap_escapedChar (chars : List Char) :
    chars.length ≤ (chars.flatMap escapedChar).length := by
  induction chars with
  | nil => exact Nat.le_refl 0
  | cons c chars ih =>
      have hpos : 1 ≤ (escapedChar c).length := by
        by_cases hc : isPlainChar c = true
        · simp [escapedChar_of_isPlainChar hc]
        · obtain ⟨d, more, hescape, -⟩ := escapedChar_of_not_isPlainChar hc
          simp [hescape]
      rw [List.flatMap_cons, List.length_append, List.length_cons]
      omega

theorem all_isPlainChar_of_flatMap {chars : List Char} (h : chars.flatMap escapedChar = chars) :
    chars.all isPlainChar = true := by
  induction chars with
  | nil => rfl
  | cons c chars ih =>
      rw [List.flatMap_cons] at h
      by_cases hc : isPlainChar c = true
      · rw [escapedChar_of_isPlainChar hc, List.singleton_append] at h
        rw [List.all_cons, hc, ih (List.cons.inj h).2, Bool.true_and]
      · -- an escape makes the text longer
        obtain ⟨d, more, hescape, -⟩ := escapedChar_of_not_isPlainChar hc
        have hlength := congrArg List.length h
        rw [hescape, List.length_append, List.length_cons, List.length_cons,
          List.length_cons] at hlength
        have hle := length_le_flatMap_escapedChar chars
        omega

theorem flatMap_escapedChar_of_all {chars : List Char} (h : chars.all isPlainChar = true) :
    chars.flatMap escapedChar = chars := by
  induction chars with
  | nil => rfl
  | cons c chars ih =>
      rw [List.all_cons, Bool.and_eq_true] at h
      rw [List.flatMap_cons, escapedChar_of_isPlainChar h.1, ih h.2, List.singleton_append]

/-- A text is its own escaped form exactly if it is plain. -/
theorem escapedText_eq_self_iff {text : String} :
    escapedText text = text ↔ isPlain text = true := by
  constructor
  · intro h
    have hchars := congrArg String.toList h
    rw [escapedText, String.toList_ofList] at hchars
    exact all_isPlainChar_of_flatMap hchars
  · intro h
    rw [escapedText, flatMap_escapedChar_of_all h, String.ofList_toList]

theorem escapedText_inj {a b : String} (h : escapedText a = escapedText b) : a = b := by
  have hchars := String.ofList_injective h
  have hquoted := congrArg (· ++ ['"']) hchars
  exact String.toList_inj.1 (escaped_append_inj hquoted).1

theorem escapedText_append (text more : String) :
    escapedText (text ++ more) = escapedText text ++ escapedText more := by
  apply String.toList_inj.1
  rw [escapedText, escapedText, escapedText, String.toList_append, String.toList_append,
    String.toList_ofList, String.toList_ofList, String.toList_ofList, List.flatMap_append]

/-- A colon in front of a text stays one. -/
theorem escapedText_colon_append (text : String) :
    escapedText (":" ++ text) = ":" ++ escapedText text := by
  rw [escapedText_append, escapedText_eq_self_iff.2 (by decide)]

/-- No escape begins with a colon. -/
theorem head?_of_escapedText {text : String} (h : (escapedText text).toList.head? = some ':') :
    text.toList.head? = some ':' := by
  rw [escapedText, String.toList_ofList] at h
  cases hchars : text.toList with
  | nil =>
      rw [hchars] at h
      exact h
  | cons c chars =>
      rw [hchars, List.flatMap_cons] at h
      by_cases hc : isPlainChar c = true
      · rw [escapedChar_of_isPlainChar hc] at h
        exact h
      · obtain ⟨d, more, hescape, -⟩ := escapedChar_of_not_isPlainChar hc
        rw [hescape] at h
        exact absurd h (by simp)

theorem stringChars_eq (text : String) :
    stringChars text = '"' :: (escapedText text).toList ++ ['"'] := by
  rw [stringChars, escapedText, String.toList_ofList]

/-! ### Values -/

mutual

/-- A value with every text in it escaped, names of members included. -/
def escaped : Json → Json
  | str text => str (escapedText text)
  | arr items => arr (escapedItems items)
  | obj members => obj (escapedMembers members)
  | value => value

/-- Items with every text in them escaped. -/
def escapedItems : List Json → List Json
  | [] => []
  | item :: rest => escaped item :: escapedItems rest

/-- Members with every text in them escaped. -/
def escapedMembers : List (String × Json) → List (String × Json)
  | [] => []
  | (key, value) :: rest => (escapedText key, escaped value) :: escapedMembers rest

end

mutual

/-- Whether every text in a value stands for itself in JSON strings. -/
def hasPlainTexts : Json → Bool
  | str text => isPlain text
  | arr items => havePlainTexts items
  | obj members => membersHavePlainTexts members
  | _ => true

/-- Whether every text in some items stands for itself. -/
def havePlainTexts : List Json → Bool
  | [] => true
  | item :: rest => hasPlainTexts item && havePlainTexts rest

/-- Whether every text in some members stands for itself. -/
def membersHavePlainTexts : List (String × Json) → Bool
  | [] => true
  | (key, value) :: rest => isPlain key && hasPlainTexts value && membersHavePlainTexts rest

end

mutual

/-- A value is its own escaped form exactly if its texts are plain. -/
theorem escaped_eq_self_iff : (value : Json) →
    (value.escaped = value ↔ value.hasPlainTexts = true)
  | null | bool _ | num _ => iff_of_true rfl rfl
  | str text => by rw [escaped, str.injEq, escapedText_eq_self_iff, hasPlainTexts]
  | arr items => by rw [escaped, arr.injEq, escapedItems_eq_self_iff items, hasPlainTexts]
  | obj members => by rw [escaped, obj.injEq, escapedMembers_eq_self_iff members, hasPlainTexts]

theorem escapedItems_eq_self_iff : (items : List Json) →
    (escapedItems items = items ↔ havePlainTexts items = true)
  | [] => iff_of_true rfl rfl
  | item :: rest => by
      rw [escapedItems, List.cons.injEq, escaped_eq_self_iff item, escapedItems_eq_self_iff rest,
        havePlainTexts, Bool.and_eq_true]

theorem escapedMembers_eq_self_iff : (members : List (String × Json)) →
    (escapedMembers members = members ↔ membersHavePlainTexts members = true)
  | [] => iff_of_true rfl rfl
  | (key, value) :: rest => by
      rw [escapedMembers, List.cons.injEq, Prod.mk.injEq, escapedText_eq_self_iff,
        escaped_eq_self_iff value, escapedMembers_eq_self_iff rest, membersHavePlainTexts,
        Bool.and_eq_true, Bool.and_eq_true]

end

theorem escapedItems_eq_map (items : List Json) : escapedItems items = items.map escaped := by
  induction items with
  | nil => rfl
  | cons item rest ih => rw [escapedItems, ih, List.map_cons]

end EntityQuery.Json
