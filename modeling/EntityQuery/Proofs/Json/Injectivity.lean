import EntityQuery.Json.Printer
import EntityQuery.Model
import EntityQuery.Proofs.Runs

/-!
# Compact text determines its value

Two values whose numbers are spelled as JSON numbers have the same compact text
only if they are equal (`text_inj`). The induction needs more: the text of a
value can be cut off the front of a longer text in one way, as long as what
follows it does not go on with a numeral.

## Implementation notes

Without the condition on numbers the statement fails: a number with the
spelling `1,2` has the text of two items.
-/

namespace EntityQuery.Json

mutual

/-- Whether every number in a value is spelled as JSON allows. -/
def isWellSpelled : Json → Bool
  | num spelling => isJsonNumber spelling
  | arr items => areItemsWellSpelled items
  | obj members => areMembersWellSpelled members
  | _ => true

/-- Whether every number in some items is spelled as JSON allows. -/
def areItemsWellSpelled : List Json → Bool
  | [] => true
  | item :: rest => isWellSpelled item && areItemsWellSpelled rest

/-- Whether every number in some members is spelled as JSON allows. -/
def areMembersWellSpelled : List (String × Json) → Bool
  | [] => true
  | (_, value) :: rest => isWellSpelled value && areMembersWellSpelled rest

end

theorem areItemsWellSpelled_iff {items : List Json} :
    areItemsWellSpelled items = true ↔ ∀ item ∈ items, item.isWellSpelled = true := by
  induction items with
  | nil => simp [areItemsWellSpelled]
  | cons item rest ih => simp [areItemsWellSpelled, ih]

theorem areMembersWellSpelled_iff {members : List (String × Json)} :
    areMembersWellSpelled members = true ↔ ∀ e ∈ members, e.2.isWellSpelled = true := by
  induction members with
  | nil => simp [areMembersWellSpelled]
  | cons e rest ih => simp [areMembersWellSpelled, ih]

/-! ### Strings -/

/-- The value of a hexadecimal digit in lower case. -/
def hexValue (c : Char) : Nat :=
  if c.isDigit then c.toNat - '0'.toNat else c.toNat - 'a'.toNat + 10

/-- The character that a letter after a backslash stands for. -/
def unescaped (c : Char) : Char :=
  if c = 'b' then '\x08'
  else if c = 't' then '\t'
  else if c = 'n' then '\n'
  else if c = 'f' then '\x0c'
  else if c = 'r' then '\r'
  else c

/-- The character that an escape stands for, after its backslash, and the content after it. -/
def escaped? : List Char → Option (Char × List Char)
  | [] => none
  | 'u' :: _ :: _ :: high :: low :: rest =>
      some (Char.ofNat (16 * hexValue high + hexValue low), rest)
  | c :: rest => some (unescaped c, rest)

/-- The first character of the content of a string, and the content after it.
There is none at the closing quote. -/
def unescape? : List Char → Option (Char × List Char)
  | [] => none
  | c :: rest =>
      if c = '"' then none else if c = '\\' then escaped? rest else some (c, rest)

theorem hexValue_digits :
    ∀ n < 32, 16 * hexValue (Nat.digitChar (n / 16)) + hexValue (Nat.digitChar (n % 16)) = n := by
  decide

theorem unescape?_escapedChar (c : Char) (rest : List Char) :
    unescape? (escapedChar c ++ rest) = some (c, rest) := by
  by_cases hquote : c = '"'
  · subst c; rfl
  by_cases hslash : c = '\\'
  · subst c; rfl
  by_cases hback : c = '\x08'
  · subst c; rfl
  by_cases htab : c = '\t'
  · subst c; rfl
  by_cases hline : c = '\n'
  · subst c; rfl
  by_cases hform : c = '\x0c'
  · subst c; rfl
  by_cases hreturn : c = '\r'
  · subst c; rfl
  by_cases hlow : c.toNat < 0x20
  · have hvalue := hexValue_digits c.toNat hlow
    simp [escapedChar, hquote, hslash, hback, htab, hline, hform, hreturn, hlow, unescape?,
      escaped?, hvalue]
  · simp [escapedChar, hquote, hslash, hback, htab, hline, hform, hreturn, hlow, unescape?]

/-- The content of a string ends at its closing quote, and its escapes can be undone. -/
theorem escaped_append_inj {a b r s : List Char}
    (h : a.flatMap escapedChar ++ '"' :: r = b.flatMap escapedChar ++ '"' :: s) :
    a = b ∧ r = s := by
  induction a generalizing b with
  | nil =>
      cases b with
      | nil => simpa using h
      | cons d b =>
          have hd := unescape?_escapedChar d (b.flatMap escapedChar ++ '"' :: s)
          rw [List.flatMap_cons, List.append_assoc] at h
          rw [← h] at hd
          simp [unescape?] at hd
  | cons c a ih =>
      have hc := unescape?_escapedChar c (a.flatMap escapedChar ++ '"' :: r)
      rw [List.flatMap_cons, List.append_assoc] at h
      rw [h] at hc
      cases b with
      | nil => simp [unescape?] at hc
      | cons d b =>
          rw [List.flatMap_cons, List.append_assoc, unescape?_escapedChar] at hc
          obtain ⟨rfl, hrest⟩ := Prod.mk.inj (Option.some.inj hc)
          obtain ⟨rfl, rfl⟩ := ih hrest.symm
          exact ⟨rfl, rfl⟩

theorem stringChars_append_inj {a b : String} {r s : List Char}
    (h : stringChars a ++ r = stringChars b ++ s) : a = b ∧ r = s := by
  simp only [stringChars, List.cons_append, List.append_assoc, List.nil_append,
    List.cons.injEq, true_and] at h
  obtain ⟨hchars, hrest⟩ := escaped_append_inj h
  exact ⟨String.toList_inj.1 hchars, hrest⟩

/-! ### Numbers -/

/-- A character that a JSON number may have. -/
def isNumeral (c : Char) : Bool :=
  c.isDigit || c == '-' || c == '+' || c == '.' || c == 'e' || c == 'E'

theorem isNumeral_of_isDigit {c : Char} (h : c.isDigit = true) : isNumeral c = true := by
  simp [isNumeral, h]

theorem isNumeral_of_all_isDigit {chars : List Char} (h : chars.all Char.isDigit = true) :
    chars.all isNumeral = true := by
  rw [List.all_eq_true] at h ⊢
  exact fun c hc => isNumeral_of_isDigit (h c hc)

theorem isNumeral_of_isJsonExponent {chars : List Char} (h : isJsonExponent chars = true) :
    chars.all isNumeral = true := by
  unfold isJsonExponent at h
  split at h <;> rw [Bool.and_eq_true] at h
  · rw [List.all_cons, isNumeral_of_all_isDigit h.2]; rfl
  · rw [List.all_cons, isNumeral_of_all_isDigit h.2]; rfl
  · exact isNumeral_of_all_isDigit h.2

theorem isNumeral_of_isJsonScale {chars : List Char} (h : isJsonScale chars = true) :
    chars.all isNumeral = true := by
  unfold isJsonScale at h
  split at h
  · rfl
  · rw [List.all_cons, isNumeral_of_isJsonExponent h]; rfl
  · rw [List.all_cons, isNumeral_of_isJsonExponent h]; rfl
  · cases h

/-- A run of digits and numerals after it are numerals. -/
theorem isNumeral_of_dropWhile {chars : List Char}
    (h : (chars.dropWhile Char.isDigit).all isNumeral = true) : chars.all isNumeral = true := by
  rw [← List.takeWhile_append_dropWhile (p := Char.isDigit) (l := chars), List.all_append, h,
    isNumeral_of_all_isDigit List.all_takeWhile]
  rfl

theorem isNumeral_of_isJsonFraction {chars : List Char} (h : isJsonFraction chars = true) :
    chars.all isNumeral = true := by
  unfold isJsonFraction at h
  split at h
  · rw [Bool.and_eq_true] at h
    rw [List.all_cons, isNumeral_of_dropWhile (isNumeral_of_isJsonScale h.2)]; rfl
  · exact isNumeral_of_isJsonScale h

theorem isNumeral_of_isJsonUnsigned {chars : List Char} (h : isJsonUnsigned chars = true) :
    chars ≠ [] ∧ chars.all isNumeral = true := by
  unfold isJsonUnsigned at h
  split at h
  · refine ⟨List.cons_ne_nil _ _, ?_⟩
    rw [List.all_cons, isNumeral_of_isJsonFraction h]; rfl
  · rw [Bool.and_eq_true] at h
    refine ⟨?_, isNumeral_of_dropWhile (isNumeral_of_isJsonFraction h.2)⟩
    rintro rfl
    simp at h

theorem isNumeral_of_isJsonNumber {spelling : String} (h : isJsonNumber spelling = true) :
    spelling.toList ≠ [] ∧ spelling.toList.all isNumeral = true := by
  unfold isJsonNumber at h
  split at h
  next rest heq =>
    rw [heq, List.all_cons, (isNumeral_of_isJsonUnsigned h).2]
    exact ⟨List.cons_ne_nil _ _, rfl⟩
  · exact isNumeral_of_isJsonUnsigned h

/-- A text that does not go on with a numeral. -/
def EndsNumber (rest : List Char) : Prop := ∀ c ∈ rest.head?, isNumeral c = false

theorem endsNumber_nil : EndsNumber [] := by
  intro c hc
  cases hc

theorem endsNumber_cons {c : Char} {rest : List Char} (h : isNumeral c = false) :
    EndsNumber (c :: rest) := by
  intro d hd
  obtain rfl : c = d := by simpa using hd
  exact h

theorem numeral_append_inj {a b : String} {r s : List Char}
    (ha : isJsonNumber a = true) (hb : isJsonNumber b = true)
    (hr : EndsNumber r) (hs : EndsNumber s) (h : a.toList ++ r = b.toList ++ s) :
    a = b ∧ r = s := by
  obtain ⟨hchars, hrest⟩ := run_append_inj (isNumeral_of_isJsonNumber ha).2
    (isNumeral_of_isJsonNumber hb).2 hr hs h
  exact ⟨String.toList_inj.1 hchars, hrest⟩

/-! ### Values -/

/-- The kinds of values, as the first character of their text tells them apart. -/
def kindOfLead (c : Char) : Nat :=
  if c = 'n' then 0
  else if c = 't' then 1
  else if c = 'f' then 2
  else if isNumeral c then 3
  else if c = '"' then 4
  else if c = '[' then 5
  else if c = '{' then 6
  else 7

/-- The kind of a value. -/
def kind : Json → Nat
  | null => 0
  | bool true => 1
  | bool false => 2
  | num _ => 3
  | str _ => 4
  | arr _ => 5
  | obj _ => 6

theorem kindOfLead_of_isNumeral {c : Char} (h : isNumeral c = true) : kindOfLead c = 3 := by
  have hn : c ≠ 'n' := by rintro rfl; exact absurd h (by decide)
  have ht : c ≠ 't' := by rintro rfl; exact absurd h (by decide)
  have hf : c ≠ 'f' := by rintro rfl; exact absurd h (by decide)
  simp [kindOfLead, hn, ht, hf, h]

theorem exists_lead (v : Json) (h : v.isWellSpelled = true) :
    ∃ c rest, chars v = c :: rest ∧ kindOfLead c = v.kind := by
  cases v with
  | null => exact ⟨_, _, rfl, rfl⟩
  | bool value => cases value <;> exact ⟨_, _, rfl, rfl⟩
  | num spelling =>
      obtain ⟨hne, hall⟩ := isNumeral_of_isJsonNumber h
      obtain ⟨c, rest, hcons⟩ := List.exists_cons_of_ne_nil hne
      rw [hcons, List.all_cons, Bool.and_eq_true] at hall
      exact ⟨c, rest, hcons, kindOfLead_of_isNumeral hall.1⟩
  | str text => exact ⟨_, _, rfl, rfl⟩
  | arr items => exact ⟨_, _, rfl, rfl⟩
  | obj members => exact ⟨_, _, rfl, rfl⟩

theorem kind_eq_of_append {v w : Json} {r s : List Char} (hv : v.isWellSpelled = true)
    (hw : w.isWellSpelled = true) (h : chars v ++ r = chars w ++ s) : v.kind = w.kind := by
  obtain ⟨c, x, hc, hkind⟩ := exists_lead v hv
  obtain ⟨d, y, hd, hkind'⟩ := exists_lead w hw
  rw [hc, hd] at h
  rw [← hkind, ← hkind', (List.cons.inj h).1]

/-- The text of a value does not start with a mark that closes a list or an object. -/
theorem append_ne_cons {v : Json} {r s : List Char} {c : Char} (hv : v.isWellSpelled = true)
    (hc : kindOfLead c = 7) : chars v ++ r ≠ c :: s := by
  intro h
  obtain ⟨d, x, hd, hkind⟩ := exists_lead v hv
  rw [hd] at h
  have hcd : d = c := (List.cons.inj h).1
  rw [hcd, hc] at hkind
  cases v with
  | bool value => cases value <;> simp [kind] at hkind
  | _ => simp [kind] at hkind

/-- Items of an array, each after a comma. -/
def itemTail : List Json → List Char
  | [] => []
  | item :: rest => ',' :: chars item ++ itemTail rest

/-- Members of an object, each after a comma. -/
def memberTail : List (String × Json) → List Char
  | [] => []
  | (key, value) :: rest => ',' :: stringChars key ++ ':' :: chars value ++ memberTail rest

theorem itemChars_cons (item : Json) (rest : List Json) :
    itemChars (item :: rest) = chars item ++ itemTail rest := by
  induction rest generalizing item with
  | nil => simp [itemChars, itemTail]
  | cons next rest ih => simp [itemChars, itemTail, ih]

theorem memberChars_cons (key : String) (value : Json) (rest : List (String × Json)) :
    memberChars ((key, value) :: rest) =
      stringChars key ++ ':' :: chars value ++ memberTail rest := by
  induction rest generalizing key value with
  | nil => simp [memberChars, memberTail]
  | cons next rest ih => simp [memberChars, memberTail, ih]

theorem endsNumber_itemTail (items : List Json) (r : List Char) :
    EndsNumber (itemTail items ++ ']' :: r) := by
  cases items with
  | nil => exact endsNumber_cons (by decide)
  | cons => exact endsNumber_cons (by decide)

theorem endsNumber_memberTail (members : List (String × Json)) (r : List Char) :
    EndsNumber (memberTail members ++ '}' :: r) := by
  cases members with
  | nil => exact endsNumber_cons (by decide)
  | cons => exact endsNumber_cons (by decide)

theorem itemTail_eq_of_itemChars_eq {a b : List Json} {r s : List Char}
    (ha : areItemsWellSpelled a = true) (hb : areItemsWellSpelled b = true)
    (h : itemChars a ++ ']' :: r = itemChars b ++ ']' :: s) :
    itemTail a ++ ']' :: r = itemTail b ++ ']' :: s := by
  rw [areItemsWellSpelled_iff] at ha hb
  match a, b with
  | [], [] => exact h
  | [], y :: ys =>
      rw [itemChars_cons, List.append_assoc] at h
      exact absurd h.symm (append_ne_cons (hb y List.mem_cons_self) (by decide))
  | x :: xs, [] =>
      rw [itemChars_cons, List.append_assoc] at h
      exact absurd h (append_ne_cons (ha x List.mem_cons_self) (by decide))
  | x :: xs, y :: ys =>
      rw [itemChars_cons, itemChars_cons] at h
      exact congrArg (',' :: ·) h

theorem memberTail_eq_of_memberChars_eq {a b : List (String × Json)} {r s : List Char}
    (h : memberChars a ++ '}' :: r = memberChars b ++ '}' :: s) :
    memberTail a ++ '}' :: r = memberTail b ++ '}' :: s := by
  match a, b with
  | [], [] => exact h
  | [], (k, v) :: ys =>
      rw [memberChars_cons] at h
      simp [memberChars, stringChars] at h
  | (k, v) :: xs, [] =>
      rw [memberChars_cons] at h
      simp [memberChars, stringChars] at h
  | (k, v) :: xs, (l, w) :: ys =>
      rw [memberChars_cons, memberChars_cons] at h
      exact congrArg (',' :: ·) h

mutual

/-- The text of a value can be cut off the front of a text in one way. -/
theorem chars_append_inj : ∀ (v w : Json) {r s : List Char}, v.isWellSpelled = true →
    w.isWellSpelled = true → EndsNumber r → EndsNumber s → chars v ++ r = chars w ++ s →
      v = w ∧ r = s := by
  intro v w r s hv hw hr hs h
  have hkind := kind_eq_of_append hv hw h
  match v, w with
  | null, null => simpa [chars] using h
  | bool true, bool true => simpa [chars] using h
  | bool false, bool false => simpa [chars] using h
  | num a, num b =>
      obtain ⟨rfl, hrest⟩ := numeral_append_inj hv hw hr hs h
      exact ⟨rfl, hrest⟩
  | str a, str b =>
      obtain ⟨rfl, hrest⟩ := stringChars_append_inj h
      exact ⟨rfl, hrest⟩
  | arr a, arr b =>
      simp only [chars, List.cons_append, List.append_assoc, List.nil_append, List.cons.injEq,
        true_and] at h
      obtain ⟨rfl, hrest⟩ := itemTail_append_inj a b hv hw (itemTail_eq_of_itemChars_eq hv hw h)
      exact ⟨rfl, hrest⟩
  | obj a, obj b =>
      simp only [chars, List.cons_append, List.append_assoc, List.nil_append, List.cons.injEq,
        true_and] at h
      obtain ⟨rfl, hrest⟩ := memberTail_append_inj a b hv hw (memberTail_eq_of_memberChars_eq h)
      exact ⟨rfl, hrest⟩

theorem itemTail_append_inj : ∀ (a b : List Json) {r s : List Char},
    areItemsWellSpelled a = true → areItemsWellSpelled b = true →
      itemTail a ++ ']' :: r = itemTail b ++ ']' :: s → a = b ∧ r = s := by
  intro a b r s ha hb h
  match a, b with
  | [], [] => simpa [itemTail] using h
  | [], _ :: _ => simp [itemTail] at h
  | _ :: _, [] => simp [itemTail] at h
  | x :: xs, y :: ys =>
      simp only [areItemsWellSpelled, Bool.and_eq_true] at ha hb
      simp only [itemTail, List.cons_append, List.append_assoc, List.cons.injEq, true_and] at h
      obtain ⟨rfl, hrest⟩ := chars_append_inj x y ha.1 hb.1 (endsNumber_itemTail xs r)
        (endsNumber_itemTail ys s) h
      obtain ⟨rfl, htail⟩ := itemTail_append_inj xs ys ha.2 hb.2 hrest
      exact ⟨rfl, htail⟩

theorem memberTail_append_inj : ∀ (a b : List (String × Json)) {r s : List Char},
    areMembersWellSpelled a = true → areMembersWellSpelled b = true →
      memberTail a ++ '}' :: r = memberTail b ++ '}' :: s → a = b ∧ r = s := by
  intro a b r s ha hb h
  match a, b with
  | [], [] => simpa [memberTail] using h
  | [], (_, _) :: _ => simp [memberTail] at h
  | (_, _) :: _, [] => simp [memberTail] at h
  | (k, v) :: xs, (l, w) :: ys =>
      simp only [areMembersWellSpelled, Bool.and_eq_true] at ha hb
      simp only [memberTail, List.cons_append, List.append_assoc, List.cons.injEq, true_and] at h
      obtain ⟨rfl, hvalue⟩ := stringChars_append_inj h
      obtain ⟨rfl, hrest⟩ := chars_append_inj v w ha.1 hb.1 (endsNumber_memberTail xs r)
        (endsNumber_memberTail ys s) (List.cons.inj hvalue).2
      obtain ⟨rfl, htail⟩ := memberTail_append_inj xs ys ha.2 hb.2 hrest
      exact ⟨rfl, htail⟩

end

/-- Values with the same compact text are equal, if their numbers are spelled as JSON numbers. -/
theorem text_inj {v w : Json} (hv : v.isWellSpelled = true) (hw : w.isWellSpelled = true) :
    v.text = w.text ↔ v = w := by
  refine ⟨fun h => ?_, congrArg text⟩
  have hchars : chars v ++ [] = chars w ++ [] := by
    rw [List.append_nil, List.append_nil]
    exact String.ofList_inj.1 h
  exact (chars_append_inj v w hv hw endsNumber_nil endsNumber_nil hchars).1

end EntityQuery.Json
