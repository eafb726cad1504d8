import EntityQuery.Catalog.DataType
import EntityQuery.Proofs.Text

/-!
# A declared type survives being written

A type is written in one spelling, and reading that spelling gives the type back. Only the
values of an enumeration are written as they are, so they must be such as a reading gives:
not empty, without a comma, and without a quote at either end (`DataType.IsPlainValue`).
Whatever was read is of that kind, so that a declaration keeps its type, and with it its largest
length, when it is replaced by the spelling of its type.
-/

namespace EntityQuery.DataType

open Text (trimChars lowerChar)

variable {chars inner : List Char}

/-- A value of an enumeration that is found again between quotes and commas. -/
structure IsPlainValue (value : String) : Prop where
  nonempty : value ≠ ""
  undivided : ',' ∉ value.toList
  first : value.toList.head? ≠ some '\''
  last : value.toList.getLast? ≠ some '\''

/-- A value between quotes. -/
def quoted (value : String) : List Char := '\'' :: value.toList ++ ['\'']

/-- What stands in the parentheses of an enumeration. -/
def listed (values : List String) : List Char := ", ".toList.intercalate (values.map quoted)

/-- What stands in the parentheses of a decimal. -/
def digitPair (precision scale : UInt8) : List Char :=
  ", ".toList.intercalate [Nat.toDigits 10 precision.toNat, Nat.toDigits 10 scale.toNat]

/-! ### Declarations with parentheses -/

theorem isSpace_opening : Unicode.isSpace '(' = false := by decide +kernel

theorem isSpace_closing : Unicode.isSpace ')' = false := by decide +kernel

theorem isSpace_quote : Unicode.isSpace '\'' = false := by decide +kernel

theorem parenthesized?_closed (inner : List Char) :
    parenthesized? (trimChars ('(' :: inner ++ [')'])) = some inner := by
  rw [Text.trimChars_between isSpace_opening isSpace_closing]
  exact List.isSuffixOf?_eq_some_iff_append_eq.2 rfl

theorem argumentOf?_word (word : String) (words : List String) (inner : List Char) :
    argumentOf? (word :: words) (word.toList ++ '(' :: inner ++ [')']) = some inner := by
  have hargument : argument? word (word.toList ++ '(' :: inner ++ [')']) = some inner := by
    rw [argument?, List.isPrefixOf?_eq_some_iff_append_eq.2 (List.append_assoc _ _ _).symm]
    exact parenthesized?_closed inner
  rw [argumentOf?, List.findSome?_cons, hargument]

theorem dropUnsigned_closed (chars : List Char) :
    dropUnsigned (chars ++ [')']) = chars ++ [')'] := by
  rw [dropUnsigned, List.isSuffixOf?, List.reverse_append]
  rfl

/-- A declaration that is not of an enumeration is read in lower case. -/
theorem ofSql?_closed {sql word lower : String} (first : Char)
    (h : sql.toList = word.toList ++ '(' :: inner ++ [')'])
    (starts : word.toList.head? = some first) (blank : Unicode.isSpace first = false)
    (blank' : Unicode.isSpace (lowerChar first) = false) (other : first.toLower ≠ 'e')
    (lowered : word.toList.map lowerChar = lower.toList) (kept : inner.map lowerChar = inner) :
    ofSql? sql = ofLower? (lower.toList ++ '(' :: inner ++ [')']) := by
  obtain ⟨rest, hword⟩ := List.head?_eq_some_iff.1 starts
  have htrim : trimChars (word.toList ++ '(' :: inner ++ [')']) =
      word.toList ++ '(' :: inner ++ [')'] := by
    rw [hword]
    exact Text.trimChars_between blank isSpace_closing (rest ++ '(' :: inner)
  have henum : ((word.toList ++ '(' :: inner ++ [')']).take 4).map Char.toLower ≠
      ['e', 'n', 'u', 'm'] := by
    rw [hword]
    exact fun heq => other (List.cons.inj heq).1
  have hlower : (word.toList ++ '(' :: inner ++ [')']).map lowerChar =
      lower.toList ++ '(' :: inner ++ [')'] := by
    rw [List.map_append, List.map_append, List.map_cons (l := inner), kept, lowered]
    rfl
  have htrim' : trimChars (lower.toList ++ '(' :: inner ++ [')']) =
      lower.toList ++ '(' :: inner ++ [')'] := by
    rw [← lowered, hword]
    exact Text.trimChars_between blank' isSpace_closing (rest.map lowerChar ++ '(' :: inner)
  rw [ofSql?, h, htrim, if_neg henum, hlower, dropUnsigned_closed, htrim']

/-! ### Lengths and precisions -/

theorem lengthOf?_toDigits (length : UInt32) :
    lengthOf? (Nat.toDigits 10 length.toNat) = some length := by
  rw [lengthOf?, Text.trimChars_toDigits, Text.uint32?_toDigits]

theorem ofSql?_toSql_varchar (length : UInt32) :
    ofSql? (varchar length).toSql = some (varchar length) := by
  have hchars : (varchar length).toSql.toList =
      "VARCHAR".toList ++ '(' :: Nat.toDigits 10 length.toNat ++ [')'] := by
    simp [toSql]
  calc
    ofSql? (varchar length).toSql =
        ofLower? ("varchar".toList ++ '(' :: Nat.toDigits 10 length.toNat ++ [')']) :=
      ofSql?_closed 'V' hchars (by decide +kernel) (by decide +kernel) (by decide +kernel)
        (by decide) (by decide +kernel) (Text.map_lowerChar_toDigits _)
    _ = (lengthOf? (Nat.toDigits 10 length.toNat)).map varchar := by
      -- the words that are tried before differ from this one in a letter
      rw [ofLower?, argumentOf?_word]
      rfl
    _ = some (varchar length) := by rw [lengthOf?_toDigits, Option.map_some]

theorem ofSql?_toSql_char (length : UInt32) : ofSql? (char length).toSql = some (char length) := by
  have hchars : (char length).toSql.toList =
      "CHAR".toList ++ '(' :: Nat.toDigits 10 length.toNat ++ [')'] := by
    simp [toSql]
  calc
    ofSql? (char length).toSql =
        ofLower? ("char".toList ++ '(' :: Nat.toDigits 10 length.toNat ++ [')']) :=
      ofSql?_closed 'C' hchars (by decide +kernel) (by decide +kernel) (by decide +kernel)
        (by decide) (by decide +kernel) (Text.map_lowerChar_toDigits _)
    _ = (lengthOf? (Nat.toDigits 10 length.toNat)).map char := by
      rw [ofLower?, argumentOf?_word]
      rfl
    _ = some (char length) := by rw [lengthOf?_toDigits, Option.map_some]

theorem decimalOf?_digitPair (precision scale : UInt8) :
    decimalOf? (digitPair precision scale) = some (decimal precision scale) := by
  have hpieces := Text.map_trimChars_pieces_intercalate
    (List.cons_ne_nil (Nat.toDigits 10 precision.toNat) [Nat.toDigits 10 scale.toNat])
    (List.forall_mem_cons.2 ⟨⟨Text.comma_notMem_toDigits _, Text.trimChars_toDigits _⟩,
      List.forall_mem_singleton.2 ⟨Text.comma_notMem_toDigits _, Text.trimChars_toDigits _⟩⟩)
  have hitems : (Text.pieces ',' (digitPair precision scale)).map
      (fun piece => String.ofList (trimChars piece)) =
      [String.ofList (Nat.toDigits 10 precision.toNat),
        String.ofList (Nat.toDigits 10 scale.toNat)] :=
    List.map_map.symm.trans (congrArg (List.map String.ofList) hpieces)
  rw [decimalOf?, hitems]
  exact Option.bind_eq_some_iff.2 ⟨precision, Text.uint8?_toDigits precision,
    Option.bind_eq_some_iff.2 ⟨scale, Text.uint8?_toDigits scale, rfl⟩⟩

theorem ofSql?_toSql_decimal (precision scale : UInt8) :
    ofSql? (decimal precision scale).toSql = some (decimal precision scale) := by
  have hchars : (decimal precision scale).toSql.toList =
      "DECIMAL".toList ++ '(' :: digitPair precision scale ++ [')'] := by
    simp [toSql, digitPair]
  have hkept : (digitPair precision scale).map lowerChar = digitPair precision scale := by
    rw [digitPair, List.intercalate_cons_cons, List.intercalate_singleton, List.map_append,
      List.map_append, Text.map_lowerChar_toDigits, Text.map_lowerChar_toDigits]
    rfl
  calc
    ofSql? (decimal precision scale).toSql =
        ofLower? ("decimal".toList ++ '(' :: digitPair precision scale ++ [')']) :=
      ofSql?_closed 'D' hchars (by decide +kernel) (by decide +kernel) (by decide +kernel)
        (by decide) (by decide +kernel) hkept
    _ = decimalOf? (digitPair precision scale) := by rw [ofLower?, argumentOf?_word]
    _ = some (decimal precision scale) := decimalOf?_digitPair precision scale

/-! ### Enumerations -/

theorem strip_eq (c : Char) (chars : List Char) :
    strip c chars = (chars.dropWhile (· == c)).rdropWhile (· == c) := rfl

theorem isPlainValue_of_mem_valuesOf {value : String} (h : value ∈ valuesOf chars) :
    IsPlainValue value := by
  obtain ⟨stripped, hstripped, hvalue⟩ := List.mem_filterMap.1 h
  obtain ⟨piece, hpiece, rfl⟩ := List.mem_map.1 hstripped
  rw [strip_eq] at hvalue
  split at hvalue
  next => cases hvalue
  next hnonempty =>
    obtain rfl := Option.some.inj hvalue
    have hsub : List.Sublist (((trimChars piece).dropWhile (· == '\'')).rdropWhile (· == '\''))
        piece :=
      (List.rdropWhile_prefix _ _).sublist.trans <| (List.dropWhile_sublist _).trans <|
        (List.rdropWhile_prefix _ _).sublist.trans (List.dropWhile_sublist _)
    refine ⟨fun hempty => ?_, fun hcomma => ?_, fun hfirst => ?_, fun hlast => ?_⟩
    · rw [String.ofList_eq_empty_iff] at hempty
      exact hnonempty (List.isEmpty_iff.2 hempty)
    · rw [String.toList_ofList] at hcomma
      exact Text.notMem_of_mem_pieces hpiece (hsub.subset hcomma)
    · rw [String.toList_ofList] at hfirst
      exact absurd (Text.of_mem_head?_rdropWhile hfirst) (by decide)
    · rw [String.toList_ofList] at hlast
      exact absurd (Text.of_mem_getLast?_rdropWhile hlast) (by decide)

theorem IsPlainValue.strip_quoted {value : String} (h : IsPlainValue value) :
    strip '\'' (quoted value) = value.toList := by
  have hfirst : ∀ c ∈ (value.toList ++ ['\'']).head?, (c == '\'') = false := by
    intro c hc
    cases hvalue : value.toList with
    | nil => exact absurd (String.toList_eq_nil_iff.1 hvalue) h.nonempty
    | cons first rest =>
        rw [hvalue] at hc
        cases hc
        rw [beq_eq_false_iff_ne]
        rintro rfl
        exact h.first (by rw [hvalue, List.head?_cons])
  have hlast : ∀ hne : value.toList ≠ [], ¬(value.toList.getLast hne == '\'') = true := by
    intro hne heq
    exact h.last (by rw [List.getLast?_eq_some_getLast hne, eq_of_beq heq])
  have hdrop : (quoted value).dropWhile (· == '\'') = value.toList ++ ['\''] := by
    rw [quoted, List.cons_append, ← List.singleton_append]
    exact dropWhile_run_append rfl hfirst
  rw [strip_eq, hdrop, List.rdropWhile_concat_pos _ _ _ rfl, List.rdropWhile_eq_self_iff]
  exact hlast

theorem IsPlainValue.quoted {value : String} (h : IsPlainValue value) :
    ',' ∉ quoted value ∧ trimChars (quoted value) = quoted value := by
  constructor
  · rw [DataType.quoted]
    simp [h.undivided]
  · exact Text.trimChars_between isSpace_quote isSpace_quote value.toList

theorem valuesOf_listed {values : List String} (h : ∀ value ∈ values, IsPlainValue value) :
    valuesOf (listed values) = values := by
  by_cases hempty : values = []
  · rw [hempty]
    rfl
  have hpieces := Text.map_trimChars_pieces_intercalate (mt List.map_eq_nil_iff.1 hempty)
    (List.forall_mem_map.2 fun value hvalue => (h value hvalue).quoted)
  have hstrip : (values.map quoted).map (strip '\'') = values.map String.toList := by
    rw [List.map_map]
    exact List.map_congr_left fun value hvalue => (h value hvalue).strip_quoted
  have hread : (Text.pieces ',' (listed values)).map
      (fun piece => strip '\'' (trimChars piece)) = values.map String.toList :=
    (List.map_map.symm.trans (congrArg (List.map (strip '\'')) hpieces)).trans hstrip
  have hkept : ∀ value ∈ values,
      (if value.toList.isEmpty then none else some (String.ofList value.toList)) = some value := by
    intro value hvalue
    have hnonempty := mt String.toList_eq_nil_iff.1 (h value hvalue).nonempty
    rw [if_neg (mt List.isEmpty_iff.1 hnonempty), String.ofList_toList]
  rw [valuesOf, hread, List.filterMap_map]
  exact (List.filterMap_congr hkept).trans List.filterMap_some

theorem ofSql?_toSql_enumeration {values : List String}
    (h : ∀ value ∈ values, IsPlainValue value) :
    ofSql? (enumeration values).toSql = some (enumeration values) := by
  have hquoted : quoted = String.toList ∘ fun value : String => "'" ++ value ++ "'" := by
    funext value
    simp [quoted]
  have hchars : (enumeration values).toSql.toList =
      "ENUM".toList ++ '(' :: listed values ++ [')'] := by
    rw [listed, hquoted, ← List.map_map]
    simp [toSql]
  have htrim : trimChars ("ENUM".toList ++ '(' :: listed values ++ [')']) =
      "ENUM".toList ++ '(' :: listed values ++ [')'] :=
    Text.trimChars_between (by decide +kernel) isSpace_closing ("NUM".toList ++ '(' :: listed values)
  rw [ofSql?, hchars, htrim, if_pos (by rfl)]
  change (parenthesized? (trimChars ('(' :: listed values ++ [')']))).map _ = _
  rw [parenthesized?_closed, Option.map_some, valuesOf_listed h]

theorem ofName?_ne_enumeration (name : String) (values : List String) :
    ofName? name ≠ some (.enumeration values) := by
  have hite {P : Prop} [Decidable P] {first second : Option DataType}
      (hfirst : first ≠ some (.enumeration values))
      (hsecond : second ≠ some (.enumeration values)) :
      (if P then first else second) ≠ some (.enumeration values) := by
    split
    · exact hfirst
    · exact hsecond
  rw [ofName?]
  iterate 14 refine hite nofun ?_
  exact nofun

theorem decimalOf?_ne_enumeration (chars : List Char) (values : List String) :
    decimalOf? chars ≠ some (.enumeration values) := by
  intro h
  rw [decimalOf?] at h
  split at h
  next =>
    obtain ⟨precision, -, hvalue⟩ := Option.bind_eq_some_iff.1 h
    cases hvalue
  next =>
    obtain ⟨precision, -, hrest⟩ := Option.bind_eq_some_iff.1 h
    obtain ⟨scale, -, hvalue⟩ := Option.bind_eq_some_iff.1 hrest
    cases hvalue
  next => cases h

theorem ofLower?_ne_enumeration (chars : List Char) (values : List String) :
    ofLower? chars ≠ some (.enumeration values) := by
  have hmap (f : UInt32 → DataType) (hf : ∀ length, f length ≠ .enumeration values)
      (length? : Option UInt32) : length?.map f ≠ some (.enumeration values) := by
    intro h
    obtain ⟨length, -, hlength⟩ := Option.map_eq_some_iff.1 h
    exact hf length hlength
  rw [ofLower?]
  split
  next inner _ => exact decimalOf?_ne_enumeration inner values
  next =>
    split
    next => exact hmap varchar (fun _ => nofun) _
    next =>
      split
      next => exact hmap char (fun _ => nofun) _
      next => exact ofName?_ne_enumeration _ values

theorem isPlainValue_of_ofSql? {sql : String} {values : List String}
    (h : ofSql? sql = some (.enumeration values)) : ∀ value ∈ values, IsPlainValue value := by
  rw [ofSql?] at h
  split at h
  next =>
    obtain ⟨inner, -, hvalues⟩ := Option.map_eq_some_iff.1 h
    obtain rfl := enumeration.inj hvalues
    exact fun value => isPlainValue_of_mem_valuesOf
  next => exact absurd h (ofLower?_ne_enumeration _ _)

/-! ### The spelling of a type -/

theorem ofSql?_toSql {d : DataType}
    (h : ∀ values, d = .enumeration values → ∀ value ∈ values, IsPlainValue value) :
    ofSql? d.toSql = some d := by
  cases d with
  | enumeration values => exact ofSql?_toSql_enumeration (h values rfl)
  | decimal precision scale => exact ofSql?_toSql_decimal precision scale
  | char length => exact ofSql?_toSql_char length
  | varchar length => exact ofSql?_toSql_varchar length
  | _ => decide +kernel

theorem ofSql?_toSql_iff {d : DataType} : ofSql? d.toSql = some d ↔
    ∀ values, d = .enumeration values → ∀ value ∈ values, IsPlainValue value := by
  refine ⟨?_, ofSql?_toSql⟩
  rintro h values rfl
  exact isPlainValue_of_ofSql? h

/-- A type is read back from its spelling, unless it is an enumeration with a value that a
reading cannot give. Every type that was read is read back, with the same largest length. -/
theorem spelling_reads_back :
    (∀ d : DataType, ofSql? d.toSql = some d ↔
      ∀ values, d = .enumeration values → ∀ value ∈ values, IsPlainValue value) ∧
    ∀ sql d, ofSql? sql = some d →
      ofSql? d.toSql = some d ∧
        (ofSql? d.toSql).bind maxLength? = (ofSql? sql).bind maxLength? := by
  refine ⟨fun _ => ofSql?_toSql_iff, fun sql d h => ?_⟩
  have hback : ofSql? d.toSql = some d := by
    refine ofSql?_toSql ?_
    rintro values rfl
    exact isPlainValue_of_ofSql? h
  exact ⟨hback, by rw [hback, h]⟩

/-- Blanks and quotes inside of values are read back, and a comma is not. -/
theorem spelling_reads_back_enumerations :
    ofSql? " enum ( 'a b' ,, ''c'd'') " = some (.enumeration ["a b", "c'd"]) ∧
      (enumeration ["a b", "c'd"]).toSql = "ENUM('a b', 'c'd')" ∧
      ofSql? "ENUM('a b', 'c'd')" = some (.enumeration ["a b", "c'd"]) ∧
      ofSql? (enumeration ["a, b"]).toSql ≠ some (.enumeration ["a, b"]) := by
  have hread : ofSql? " enum ( 'a b' ,, ''c'd'') " = some (.enumeration ["a b", "c'd"]) := by
    decide +kernel
  have hback := spelling_reads_back.2 _ _ hread
  have hlost := mt (spelling_reads_back.1 (.enumeration ["a, b"])).1 fun h =>
    (h _ rfl "a, b" List.mem_cons_self).undivided (by decide +kernel)
  exact ⟨hread, by decide +kernel, hback.1, hlost⟩

end EntityQuery.DataType
