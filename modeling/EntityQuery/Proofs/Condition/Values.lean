import EntityQuery.Proofs.Condition.Rereading

/-!
# What a value is read as

A JSON value is read as a condition by way of its text, in which every string
stands between quotes with its escapes. The escapes are not undone. So what is
read from a value is the condition that the value is the JSON form of, with every
column and placeholder escaped (`ofJson_eq_ok_iff`), and it is written as the same
value only if no text in the value needs an escape (`toJson_of_ofJson`).

The text of a value is cut into marks, escaped texts and the words of JSON, and
nothing is lost between them (`isJsonSource_chars`). Classification keeps the
characters of each, so the tokens of the condition make up the text of the value,
and a text determines its value.
-/

namespace EntityQuery

open Condition

namespace Condition

/-! ### Cutting the text of a value -/

/-- What the text of a value is cut into: marks, escaped texts, numbers and three words. -/
def Lexeme.IsOfJson : Lexeme → Prop
  | mark _ => True
  | quoted raw => ∃ text, raw = (Json.escapedText text).toList
  | unterminated _ => False
  | word chars => Json.isJsonNumber (String.ofList chars) = true ∨
      chars ∈ [Json.null.chars, (Json.bool true).chars, (Json.bool false).chars]

/-- Wherever it begins, a source is cut into lexemes of JSON that make up all of it. -/
def IsJsonSource (source : List Char) : Prop :=
  ∀ position, (scan position source).flatMap (fun lexeme => lexeme.value.chars) = source ∧
    ∀ lexeme ∈ scan position source, lexeme.value.IsOfJson

variable {source rest : List Char}

theorem isJsonSource_nil : IsJsonSource [] := by
  intro position
  rw [scan]
  exact ⟨rfl, List.forall_mem_nil _⟩

theorem isJsonSource_of_cut {c : Char} {lexeme : Lexeme} (space : Unicode.isSpace c = false)
    (hcut : cut c source = (lexeme, rest)) (hlexeme : lexeme.IsOfJson) (h : IsJsonSource rest) :
    IsJsonSource (c :: source) := by
  intro position
  obtain ⟨hchars, hrest⟩ := h (position + byteSize lexeme.chars)
  rw [scan, if_neg (by rw [space]; exact Bool.false_ne_true)]
  simp only [hcut]
  constructor
  · calc
      lexeme.chars ++ (scan (position + byteSize lexeme.chars) rest).flatMap
            (fun lexeme => lexeme.value.chars)
          = (cut c source).1.chars ++ (cut c source).2 := by rw [hchars, hcut]
      _ = c :: source := chars_cut c source
  · exact List.forall_mem_cons.2 ⟨hlexeme, hrest⟩

theorem isJsonSource_mark (mark : Mark) (h : IsJsonSource rest) :
    IsJsonSource (mark.char :: rest) :=
  isJsonSource_of_cut (isSpace_mark mark) (cut_mark mark rest) trivial h

theorem isJsonSource_stringChars (text : String) (h : IsJsonSource rest) :
    IsJsonSource (Json.stringChars text ++ rest) := by
  rw [Json.stringChars_eq, List.append_assoc]
  exact isJsonSource_of_cut (by decide) (cut_quoted (isDelimited_escapedText text) rest)
    ⟨text, rfl⟩ h

/-- Whether a character belongs to a word wherever it stands. -/
def isWordChar (c : Char) : Bool := !Unicode.isSpace c && !endsWord c

theorem isJsonSource_word {word : List Char} (ne : word ≠ []) (hword : word.all isWordChar = true)
    (hjson : (Lexeme.word word).IsOfJson) (ends : EndsWord rest) (h : IsJsonSource rest) :
    IsJsonSource (word ++ rest) := by
  have hchars : ∀ c ∈ word, Unicode.isSpace c = false ∧ (!endsWord c) = true := by
    intro c hc
    have hchar := List.all_eq_true.1 hword c hc
    rwa [isWordChar, Bool.and_eq_true, Bool.not_eq_true'] at hchar
  obtain ⟨c, word, rfl⟩ := List.exists_cons_of_ne_nil ne
  have hall : (c :: word).all (!endsWord ·) = true :=
    List.all_eq_true.2 fun d hd => (hchars d hd).2
  exact isJsonSource_of_cut (hchars c List.mem_cons_self).1 (cut_word hall ends) hjson h

theorem isWordChar_of_isNumeral {c : Char} (h : Json.isNumeral c = true) :
    isWordChar c = true := by
  have hsmall : c.toNat < 128 := by
    simp only [Json.isNumeral, Bool.or_eq_true, beq_iff_eq, Char.isDigit, Bool.and_eq_true,
      decide_eq_true_eq] at h
    rcases h with ((((hdigit | rfl) | rfl) | rfl) | rfl) | rfl
    · have hle : c.toNat ≤ 57 := hdigit.2
      omega
    all_goals decide
  have hall : ∀ n < 128, Json.isNumeral (Char.ofNat n) = true →
      isWordChar (Char.ofNat n) = true := by
    decide +kernel
  have hc := hall c.toNat hsmall
  rw [Char.ofNat_toNat] at hc
  exact hc h

theorem isJsonSource_number {spelling : String} (h : Json.isJsonNumber spelling = true)
    (ends : EndsWord rest) (hrest : IsJsonSource rest) :
    IsJsonSource (spelling.toList ++ rest) := by
  obtain ⟨hne, hall⟩ := Json.isNumeral_of_isJsonNumber h
  have hword : spelling.toList.all isWordChar = true :=
    List.all_eq_true.2 fun c hc => isWordChar_of_isNumeral (List.all_eq_true.1 hall c hc)
  refine isJsonSource_word hne hword (.inl ?_) ends hrest
  rwa [String.ofList_toList]

theorem endsWord_mark (mark : Mark) (rest : List Char) : EndsWord (mark.char :: rest) := by
  rintro c ⟨⟩
  cases mark <;> rfl

theorem endsWord_itemTail (items : List Json) (rest : List Char) :
    EndsWord (Json.itemTail items ++ ']' :: rest) := by
  cases items with
  | nil => exact endsWord_mark .closeBracket rest
  | cons => exact endsWord_mark .comma _

theorem endsWord_memberTail (members : List (String × Json)) (rest : List Char) :
    EndsWord (Json.memberTail members ++ '}' :: rest) := by
  cases members with
  | nil => exact endsWord_mark .closeBrace rest
  | cons => exact endsWord_mark .comma _

mutual

/-- The text of a value is cut into lexemes of JSON, wherever it stands. -/
theorem isJsonSource_chars : (v : Json) → {rest : List Char} → v.isWellSpelled = true →
    EndsWord rest → IsJsonSource rest → IsJsonSource (v.chars ++ rest)
  | .null, _, _, ends, h =>
      isJsonSource_word (by decide) (by decide +kernel) (.inr (by decide)) ends h
  | .bool true, _, _, ends, h =>
      isJsonSource_word (by decide) (by decide +kernel) (.inr (by decide)) ends h
  | .bool false, _, _, ends, h =>
      isJsonSource_word (by decide) (by decide +kernel) (.inr (by decide)) ends h
  | .num _, _, spelled, ends, h => isJsonSource_number spelled ends h
  | .str text, _, _, _, h => isJsonSource_stringChars text h
  | .arr [], _, _, _, h => isJsonSource_mark .openBracket (isJsonSource_mark .closeBracket h)
  | .arr (item :: items), rest, spelled, _, h => by
      rw [Json.isWellSpelled, Json.areItemsWellSpelled, Bool.and_eq_true] at spelled
      rw [Json.chars, Json.itemChars_cons]
      simp only [List.cons_append, List.append_assoc, List.nil_append]
      exact isJsonSource_mark .openBracket (isJsonSource_chars item spelled.1
        (endsWord_itemTail items rest) (isJsonSource_itemTail items spelled.2 h))
  | .obj [], _, _, _, h => isJsonSource_mark .openBrace (isJsonSource_mark .closeBrace h)
  | .obj ((key, value) :: members), rest, spelled, _, h => by
      rw [Json.isWellSpelled, Json.areMembersWellSpelled, Bool.and_eq_true] at spelled
      rw [Json.chars, Json.memberChars_cons]
      simp only [List.cons_append, List.append_assoc, List.nil_append]
      exact isJsonSource_mark .openBrace (isJsonSource_stringChars key (isJsonSource_mark .colon
        (isJsonSource_chars value spelled.1 (endsWord_memberTail members rest)
          (isJsonSource_memberTail members spelled.2 h))))

theorem isJsonSource_itemTail : (items : List Json) → {rest : List Char} →
    Json.areItemsWellSpelled items = true → IsJsonSource rest →
      IsJsonSource (Json.itemTail items ++ ']' :: rest)
  | [], _, _, h => isJsonSource_mark .closeBracket h
  | item :: items, rest, spelled, h => by
      rw [Json.areItemsWellSpelled, Bool.and_eq_true] at spelled
      rw [Json.itemTail, List.cons_append, List.cons_append, List.append_assoc]
      exact isJsonSource_mark .comma (isJsonSource_chars item spelled.1
        (endsWord_itemTail items rest) (isJsonSource_itemTail items spelled.2 h))

theorem isJsonSource_memberTail : (members : List (String × Json)) → {rest : List Char} →
    Json.areMembersWellSpelled members = true → IsJsonSource rest →
      IsJsonSource (Json.memberTail members ++ '}' :: rest)
  | [], _, _, h => isJsonSource_mark .closeBrace h
  | (key, value) :: members, rest, spelled, h => by
      rw [Json.areMembersWellSpelled, Bool.and_eq_true] at spelled
      rw [Json.memberTail]
      simp only [List.cons_append, List.append_assoc]
      exact isJsonSource_mark .comma (isJsonSource_stringChars key (isJsonSource_mark .colon
        (isJsonSource_chars value spelled.1 (endsWord_memberTail members rest)
          (isJsonSource_memberTail members spelled.2 h))))

end

/-! ### Tokens of the text of a value -/

/-- A lexeme has the characters of its token. -/
theorem Lexeme.Spells.chars_eq {lexeme : Lexeme} {token : Token} (h : lexeme.Spells token) :
    token.chars = lexeme.chars := by
  cases h with
  | mark m => rfl
  | operator op => rfl
  | parameter ne => simp [Token.chars, Lexeme.chars]
  | column colon keyword => simp [Token.chars, Lexeme.chars]
  | null => rfl
  | number number => simp [Token.chars, Lexeme.chars]

theorem charsOf_of_lex {source : String} {placed : List (Placed Token)}
    (hsource : IsJsonSource source.toList) (h : lex source = .ok placed) :
    charsOf (placed.map Placed.value) = source.toList := by
  have hchars := map_eq_map_of_mapM h (g := fun token => token.value.chars)
    (k := fun lexeme => lexeme.value.chars) fun _ _ h => (spells_of_classify h).chars_eq
  calc
    charsOf (placed.map Placed.value) = (placed.map fun token => token.value.chars).flatten := by
          rw [charsOf, List.flatMap_map, List.flatMap_def]
    _ = ((scan 0 source.toList).map fun lexeme => lexeme.value.chars).flatten := by rw [hchars]
    _ = source.toList := by rw [← List.flatMap_def, (hsource 0).1]

end Condition

namespace Operand

/-- A text that begins with a colon when escaped is a placeholder escaped. -/
theorem escapedText_eq_cons_colon {text : String} {name : List Char}
    (h : (Json.escapedText text).toList = ':' :: name) :
    ∃ meant, Json.escapedText meant = String.ofList name := by
  have hhead : text.toList.head? = some ':' := by
    apply Json.head?_of_escapedText
    rw [h, List.head?_cons]
  obtain ⟨meant, hmeant⟩ := List.head?_eq_some_iff.1 hhead
  rw [Json.escapedText, String.toList_ofList, hmeant, List.flatMap_cons] at h
  refine ⟨String.ofList meant, ?_⟩
  rw [Json.escapedText, String.toList_ofList]
  exact congrArg String.ofList (List.cons.inj h).2

/-- An operand that is read from a lexeme of JSON is an operand escaped, and its number is
a JSON number. -/
theorem exists_escaped_of_spells {lexeme : Lexeme} {value : Operand}
    (h : lexeme.Spells value.token) (hjson : lexeme.IsOfJson) :
    ∃ meant : Operand, meant.escaped = value ∧ meant.toJson.isWellSpelled = true := by
  cases value with
  | column name =>
      cases h with
      | column colon keyword =>
          obtain ⟨text, rfl⟩ := hjson
          exact ⟨.column text, by rw [escaped, String.ofList_toList], rfl⟩
  | parameter name =>
      cases h with
      | parameter ne =>
          obtain ⟨text, htext⟩ := hjson
          obtain ⟨meant, hmeant⟩ := escapedText_eq_cons_colon htext.symm
          exact ⟨.parameter meant, congrArg parameter hmeant, rfl⟩
  | number spelling =>
      cases h with
      | @number chars hnumber =>
          refine ⟨.number (String.ofList chars), rfl, ?_⟩
          rcases hjson with hspelled | hword
          · exact hspelled
          · -- the words of JSON are no numbers
            simp only [List.mem_cons, List.not_mem_nil, or_false] at hword
            rcases hword with rfl | rfl | rfl <;> exact absurd hnumber (by decide)

/-- What is genuine when escaped is genuine as it is meant. -/
theorem isGenuine_of_escaped {value : Operand} (h : value.escaped.isGenuine = true) :
    value.isGenuine = true := by
  cases value with
  | column name =>
      rw [escaped, isGenuine, Bool.and_eq_true, bne_iff_ne, Option.isNone_iff_eq_none] at h
      rw [isGenuine, Bool.and_eq_true, bne_iff_ne, Option.isNone_iff_eq_none]
      constructor
      · intro hhead
        obtain ⟨rest, hrest⟩ := List.head?_eq_some_iff.1 hhead
        apply h.1
        rw [Json.escapedText, String.toList_ofList, hrest, List.flatMap_cons]
        rfl
      · rw [Option.eq_none_iff_forall_ne_some]
        intro op hop
        have hkeyword : op.keyword = name := by simpa using List.find?_some hop
        rw [← hkeyword, op.escapedText_keyword, hkeyword, hop] at h
        exact absurd h.2 (Option.some_ne_none op)
  | parameter name =>
      rw [escaped, isGenuine_parameter] at h
      rw [isGenuine_parameter]
      rintro rfl
      exact h (by decide)
  | number spelling => exact h

end Operand

namespace Condition

/-! ### Escaped conditions as values -/

theorem toJson_escaped_operand (value : Operand) :
    value.escaped.toJson = value.toJson.escaped := by
  cases value with
  | column name => rfl
  | number spelling => rfl
  | parameter name =>
      rw [Operand.escaped, Operand.toJson, Operand.toJson, Json.escaped,
        Json.escapedText_colon_append]

/-- The JSON form of an escaped condition is the JSON form with its texts escaped. -/
theorem toJson_escaped (condition : Condition) :
    condition.escaped.toJson = condition.toJson.escaped := by
  induction condition using inductionOn with
  | comparison op column value =>
      simp only [escaped, toJson, Json.escaped, Json.escapedMembers, op.escapedText_keyword,
        toJson_escaped_operand]
  | nullTest op column =>
      simp only [escaped, toJson, Json.escaped, Json.escapedMembers, op.escapedText_keyword]
  | membership op column values =>
      have hvalues : (values.map Operand.escaped).map Operand.toJson =
          Json.escapedItems (values.map Operand.toJson) := by
        rw [Json.escapedItems_eq_map, List.map_map, List.map_map]
        exact List.map_congr_left fun value _ => toJson_escaped_operand value
      simp only [escaped, toJson, Json.escaped, Json.escapedMembers, op.escapedText_keyword,
        hvalues]
  | boolean op conditions ih =>
      have hconditions : (conditions.map escaped).map toJson =
          Json.escapedItems (conditions.map toJson) := by
        rw [Json.escapedItems_eq_map, List.map_map, List.map_map]
        exact List.map_congr_left ih
      simp only [escaped, toJson, Json.escaped, Json.escapedMembers, op.escapedText_keyword,
        escapedList_eq_map, toJsonList_eq_map, hconditions]

theorem exists_map_eq {α β : Type} {f : α → β} {P : α → Prop} {ys : List β}
    (h : ∀ y ∈ ys, ∃ x, f x = y ∧ P x) : ∃ xs : List α, xs.map f = ys ∧ ∀ x ∈ xs, P x := by
  induction ys with
  | nil => exact ⟨[], rfl, fun _ hx => nomatch hx⟩
  | cons y ys ih =>
      obtain ⟨hy, hys⟩ := List.forall_mem_cons.1 h
      obtain ⟨x, rfl, hx⟩ := hy
      obtain ⟨xs, rfl, hxs⟩ := ih hys
      exact ⟨x :: xs, rfl, List.forall_mem_cons.2 ⟨hx, hxs⟩⟩

/-- A condition is escaped as a whole where each of its columns and operands is. -/
theorem exists_escaped {condition : Condition}
    (h : ∀ value ∈ condition.leaves,
      ∃ meant : Operand, meant.escaped = value ∧ meant.toJson.isWellSpelled = true) :
    ∃ meant : Condition, meant.escaped = condition ∧ meant.toJson.isWellSpelled = true := by
  have hcolumn : ∀ column, Operand.column column ∈ condition.leaves →
      ∃ meant, Json.escapedText meant = column := by
    intro column hmem
    obtain ⟨meant, hmeant, -⟩ := h _ hmem
    cases meant <;> cases hmeant
    exact ⟨_, rfl⟩
  induction condition using inductionOn with
  | comparison op column value =>
      obtain ⟨column, rfl⟩ := hcolumn column List.mem_cons_self
      obtain ⟨value, rfl, hspelled⟩ := h value (List.mem_cons_of_mem _ List.mem_cons_self)
      refine ⟨.comparison op column value, rfl, ?_⟩
      simp [toJson, Json.isWellSpelled, Json.areMembersWellSpelled, hspelled]
  | nullTest op column =>
      obtain ⟨column, rfl⟩ := hcolumn column List.mem_cons_self
      exact ⟨.nullTest op column, rfl, rfl⟩
  | membership op column values =>
      obtain ⟨column, rfl⟩ := hcolumn column List.mem_cons_self
      obtain ⟨values, rfl, hspelled⟩ :=
        exists_map_eq fun value hvalue => h value (List.mem_cons_of_mem _ hvalue)
      refine ⟨.membership op column values, rfl, ?_⟩
      simpa [toJson, Json.isWellSpelled, Json.areMembersWellSpelled,
        Json.areItemsWellSpelled_iff] using hspelled
  | boolean op conditions ih =>
      have hin : ∀ c ∈ conditions, ∀ value ∈ c.leaves,
          value ∈ (boolean op conditions).leaves := by
        intro c hc value hvalue
        rw [leaves, leavesIn_eq_flatMap]
        exact List.mem_flatMap_of_mem hc hvalue
      obtain ⟨conditions, rfl, hspelled⟩ := exists_map_eq fun c hc =>
        ih c hc (fun value hvalue => h value (hin c hc value hvalue))
          fun column hmem => hcolumn column (hin c hc _ hmem)
      refine ⟨.boolean op conditions, by rw [escaped, escapedList_eq_map], ?_⟩
      simpa [toJson, toJsonList_eq_map, Json.isWellSpelled, Json.areMembersWellSpelled,
        Json.areItemsWellSpelled_iff] using hspelled

/-! ### Reading a value -/

/-- What is read from a value is a condition in its escaped form, and the value is the
JSON form of that condition. -/
theorem exists_meant_of_ofJson {v : Json} {condition : Condition} (spelled : v.isWellSpelled = true)
    (h : ofJson v = .ok condition) :
    ∃ meant : Condition, meant.toJson = v ∧ condition = meant.escaped := by
  have hsource : IsJsonSource v.text.toList := by
    have hends : EndsWord [] := fun _ hc => nomatch hc
    have hchars := isJsonSource_chars v spelled hends isJsonSource_nil
    rwa [List.append_nil, ← String.toList_ofList (l := v.chars)] at hchars
  obtain ⟨placed, hlex, hread⟩ := parse_eq_ok_iff_lex.1 h
  obtain ⟨htokens, -⟩ := Reader.read_eq_ok_iff.1 hread
  have hleaves : ∀ value ∈ condition.leaves,
      ∃ meant : Operand, meant.escaped = value ∧ meant.toJson.isWellSpelled = true := by
    intro value hvalue
    have hmem := token_mem_tokens hvalue
    rw [← htokens] at hmem
    obtain ⟨lexeme, hlexeme, hspells⟩ := exists_spells_of_lex hlex hmem
    exact Operand.exists_escaped_of_spells hspells ((hsource 0).2 lexeme hlexeme)
  obtain ⟨meant, rfl, hmeant⟩ := exists_escaped hleaves
  -- the tokens of the escaped condition make up the text of the value it was read from
  refine ⟨meant, (Json.text_inj hmeant spelled).1 ?_, rfl⟩
  calc
    meant.toJson.text = String.ofList (charsOf meant.escaped.tokens) := by
          rw [Json.text, chars_toJson]
    _ = String.ofList v.text.toList := by rw [← htokens, charsOf_of_lex hsource hlex]
    _ = v.text := String.ofList_toList

/-- The values that are read are the JSON forms of conditions with genuine columns and
operands, and what is read from them are those conditions escaped. -/
theorem ofJson_eq_ok_iff {v : Json} {condition : Condition} (spelled : v.isWellSpelled = true) :
    ofJson v = .ok condition ↔ ∃ meant : Condition, meant.isWellKinded = true ∧
      (∀ value ∈ meant.leaves, value.isGenuine = true) ∧ meant.toJson = v ∧
        condition = meant.escaped := by
  constructor
  · intro h
    obtain ⟨hkinded, hgenuine⟩ := isGenuine_of_parse h
    obtain ⟨meant, hmeant, rfl⟩ := exists_meant_of_ofJson spelled h
    rw [isWellKinded_escaped] at hkinded
    rw [leaves_escaped, List.forall_mem_map] at hgenuine
    exact ⟨meant, hkinded, fun value hvalue => Operand.isGenuine_of_escaped (hgenuine value hvalue),
      hmeant, rfl⟩
  · rintro ⟨meant, hkinded, hgenuine, rfl, rfl⟩
    exact ofJson_toJson hkinded hgenuine

/-- What is read from a value is written as the value with its texts escaped. So it is
written as the same value exactly if all texts of the value are plain. -/
theorem toJson_of_ofJson {v : Json} {condition : Condition} (spelled : v.isWellSpelled = true)
    (h : ofJson v = .ok condition) :
    (∃ meant : Condition, meant.toJson = v ∧ condition = meant.escaped) ∧
      condition.toJson = v.escaped ∧
      (condition.toJson = v ↔ v.hasPlainTexts = true) := by
  obtain ⟨meant, -, -, rfl, rfl⟩ := (ofJson_eq_ok_iff spelled).1 h
  refine ⟨⟨meant, rfl, rfl⟩, toJson_escaped meant, ?_⟩
  rw [toJson_escaped, Json.escaped_eq_self_iff]

/-- A name in quotes or a placeholder, among others that stand for themselves. -/
def nicknames : Condition :=
  .boolean .or [.comparison .eq "u.first \"name\"" (.parameter "name"),
    .membership .isIn "u.nick" [.column "u.last", .parameter "a\\b", .number "1e5"]]

theorem toJson_of_ofJson_nicknames :
    ∃ condition, ofJson nicknames.toJson = .ok condition ∧
      nicknames.toJson.isWellSpelled = true ∧ nicknames.toJson.hasPlainTexts = false ∧
      condition.toJson = nicknames.toJson.escaped ∧ condition.toJson ≠ nicknames.toJson := by
  have hread : ofJson nicknames.toJson = .ok nicknames.escaped :=
    ofJson_toJson (by decide) (by decide +kernel)
  have hspelled : nicknames.toJson.isWellSpelled = true := by decide
  have hplain : nicknames.toJson.hasPlainTexts = false := by decide
  obtain ⟨-, hescaped, hsame⟩ := toJson_of_ofJson hspelled hread
  refine ⟨_, hread, hspelled, hplain, hescaped, fun heq => ?_⟩
  exact Bool.false_ne_true (hplain.symm.trans (hsame.1 heq))

/-- The column that is read has the backslashes of the text in its name. -/
theorem toJson_ne_of_quotes :
    ∃ condition, ofJson (.obj [("$eq", .obj [("u.first \"name\"", .num "1")])]) = .ok condition ∧
      condition.columns = ["u.first \\\"name\\\""] ∧
      condition.toJson ≠ .obj [("$eq", .obj [("u.first \"name\"", .num "1")])] := by
  let meant : Condition := .comparison .eq "u.first \"name\"" (.number "1")
  have hread : ofJson meant.toJson = .ok meant.escaped :=
    ofJson_toJson (by decide) (by decide +kernel)
  exact ⟨meant.escaped, hread, by decide, by decide⟩

end Condition

end EntityQuery
