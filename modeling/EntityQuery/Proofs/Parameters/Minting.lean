import EntityQuery.Parameters
import EntityQuery.Proofs.Json.Escapes
import EntityQuery.Proofs.Runs

/-!
# Made-up names

A made-up name ends in the number that it was made up with, so names made up
with different numbers are different (`mintedName_inj`), whatever texts they
were made from. It consists of word characters, which are plain.
-/

namespace EntityQuery

namespace Text

theorem lt_of_contains {set : Unicode.CodePoints} {low : Nat}
    (h : ∀ range ∈ set.ranges, low < range.1) {c : Char} (hc : set.contains c = true) :
    low < c.toNat := by
  obtain ⟨range, hrange, hbounds⟩ := List.any_eq_true.1 hc
  rw [Bool.and_eq_true, decide_eq_true_eq] at hbounds
  exact Nat.lt_of_lt_of_le (h range hrange) hbounds.1

theorem isWord_underscore : Unicode.isWord '_' = true := by decide +kernel

theorem toNat_of_isDigit {c : Char} (h : c.isDigit = true) : 0x30 ≤ c.toNat ∧ c.toNat ≤ 0x39 := by
  simp only [Char.isDigit, Bool.and_eq_true, decide_eq_true_eq] at h
  exact h

theorem isWord_of_isDigit {c : Char} (h : c.isDigit = true) : Unicode.isWord c = true := by
  have hrange := toNat_of_isDigit h
  have hdecimal : Unicode.decimalDigit.contains c = true :=
    List.any_eq_true.2 ⟨(0x30, 0x39), by decide +kernel, by simpa using hrange⟩
  have hold : Unicode.recent.contains c = false := by
    have hlate : ∀ range ∈ Unicode.recent.ranges, 0x39 < range.1 := by decide +kernel
    rw [← Bool.not_eq_true]
    intro hrecent
    have hlow := lt_of_contains hlate hrecent
    omega
  rw [Unicode.isWord, hdecimal, hold]
  simp

/-- Word characters stand for themselves in JSON strings. -/
theorem isPlainChar_of_isWord {c : Char} (h : Unicode.isWord c = true) :
    Json.isPlainChar c = true := by
  have hcontrol : 0x1f < c.toNat := by
    simp only [Unicode.isWord, Unicode.isConnector, Unicode.isJoiner, Bool.and_eq_true,
      Bool.or_eq_true, beq_iff_eq] at h
    rcases h.1 with (((h | h) | h) | h) | rfl | rfl
    · exact lt_of_contains (by decide +kernel) h
    · exact lt_of_contains (by decide +kernel) h
    · exact lt_of_contains (by decide +kernel) h
    · exact lt_of_contains (by decide +kernel) h
    · decide
    · decide
  rw [Json.isPlainChar, Bool.and_eq_true, Bool.and_eq_true, bne_iff_ne, bne_iff_ne,
    decide_eq_true_eq]
  refine ⟨⟨?_, ?_⟩, hcontrol⟩
  · rintro rfl
    exact absurd h (by decide +kernel)
  · rintro rfl
    exact absurd h (by decide +kernel)

theorem all_isWord_toName (text : String) : (toName text).toList.all Unicode.isWord = true := by
  rw [toName, String.toList_ofList, List.all_map, List.all_eq_true]
  intro c _
  rw [Function.comp_apply]
  split
  next hword => exact hword
  next => exact isWord_underscore

theorem isName_iff {text : String} :
    isName text = true ↔ text ≠ "" ∧ text.toList.all Unicode.isWord = true := by
  rw [isName, Bool.and_eq_true, Bool.not_eq_true', ← Bool.not_eq_true, String.isEmpty_iff]

theorem isName_toName {text : String} (h : text ≠ "") : isName (toName text) = true := by
  refine isName_iff.2 ⟨fun hempty => ?_, all_isWord_toName text⟩
  have hlist := congrArg String.toList hempty
  rw [toName, String.toList_ofList, String.toList_empty, List.map_eq_nil_iff] at hlist
  exact h (String.toList_inj.1 hlist)

theorem isPlain_of_all_isWord {text : String} (h : text.toList.all Unicode.isWord = true) :
    Json.isPlain text = true :=
  List.all_eq_true.2 fun c hc => isPlainChar_of_isWord (List.all_eq_true.1 h c hc)

end Text

namespace Parameters

/-- The name made up from a text with a number. -/
def mintedName (base : String) (n : Nat) : String := Text.toName base ++ "_" ++ toString n

theorem mint_eq (parameters : Parameters) (base : String) :
    parameters.mint base =
      (mintedName base parameters.next, { parameters with next := parameters.next + 1 }) := rfl

theorem toList_mintedName (base : String) (n : Nat) :
    (mintedName base n).toList = (Text.toName base).toList ++ '_' :: Nat.toDigits 10 n := by
  simp [mintedName]

theorem all_isDigit_toDigits (n : Nat) : (Nat.toDigits 10 n).all Char.isDigit = true :=
  List.all_eq_true.2 fun _ hc => Nat.isDigit_of_mem_toDigits (by decide) (by decide) hc

/-- The number of a made-up name is read off its end. -/
theorem mintedName_inj {base base' : String} {n n' : Nat}
    (h : mintedName base n = mintedName base' n') : n = n' := by
  have hlists := congrArg (fun name => name.toList.reverse) h
  simp only [toList_mintedName, List.reverse_append, List.reverse_cons, List.append_assoc,
    List.singleton_append] at hlists
  have hdigits : ∀ n, (Nat.toDigits 10 n).reverse.all Char.isDigit = true := fun n => by
    rw [List.all_reverse, all_isDigit_toDigits]
  have ends : ∀ rest : List Char, ∀ c ∈ ('_' :: rest).head?, c.isDigit = false := by
    rintro rest c hc
    cases hc
    decide
  have hrun := (run_append_inj (hdigits n) (hdigits n') (ends _) (ends _) hlists).1
  calc
    n = Nat.ofDigitChars 10 (Nat.toDigits 10 n) 0 := Nat.ofDigitChars_ten_toDigits.symm
    _ = Nat.ofDigitChars 10 (Nat.toDigits 10 n') 0 := by rw [List.reverse_inj.1 hrun]
    _ = n' := Nat.ofDigitChars_ten_toDigits

theorem isName_mintedName (base : String) (n : Nat) : Text.isName (mintedName base n) = true := by
  have hword : (mintedName base n).toList.all Unicode.isWord = true := by
    rw [toList_mintedName, List.all_append, List.all_cons, Text.all_isWord_toName,
      Text.isWord_underscore, Bool.true_and, Bool.true_and, List.all_eq_true]
    intro c hc
    exact Text.isWord_of_isDigit (List.all_eq_true.1 (all_isDigit_toDigits n) c hc)
  refine Text.isName_iff.2 ⟨fun hempty => ?_, hword⟩
  have hlist := congrArg String.toList hempty
  rw [toList_mintedName] at hlist
  simp at hlist

/-- The names made up from texts in turn. -/
def mintedNames (bases : List String) (next : Nat) : List String :=
  (bases.zipIdx next).map fun (base, n) => mintedName base n

@[simp] theorem mintedNames_cons (base : String) (bases : List String) (next : Nat) :
    mintedNames (base :: bases) next = mintedName base next :: mintedNames bases (next + 1) := rfl

theorem exists_of_mem_mintedNames {name : String} {bases : List String} {next : Nat}
    (h : name ∈ mintedNames bases next) :
    ∃ base n, next ≤ n ∧ n < next + bases.length ∧ name = mintedName base n := by
  obtain ⟨⟨base, n⟩, hpair, rfl⟩ := List.mem_map.1 h
  obtain ⟨hlow, hhigh, -⟩ := List.mem_zipIdx hpair
  exact ⟨base, n, hlow, hhigh, rfl⟩

/-- A number that is used up is not used again. -/
theorem mintedName_notMem_mintedNames (base : String) (bases : List String) {n next : Nat}
    (h : n < next) : mintedName base n ∉ mintedNames bases next := by
  intro hmem
  obtain ⟨base', n', hlow, -, heq⟩ := exists_of_mem_mintedNames hmem
  have hn := mintedName_inj heq
  omega

theorem nodup_mintedNames (bases : List String) (next : Nat) : (mintedNames bases next).Nodup := by
  induction bases generalizing next with
  | nil => exact List.nodup_nil
  | cons base bases ih =>
      rw [mintedNames_cons]
      exact List.nodup_cons.2
        ⟨mintedName_notMem_mintedNames base bases (Nat.lt_succ_self next), ih (next + 1)⟩

theorem mintedNames_append (bases more : List String) (next : Nat) :
    mintedNames (bases ++ more) next =
      mintedNames bases next ++ mintedNames more (next + bases.length) := by
  rw [mintedNames, List.zipIdx_append, List.map_append, mintedNames, mintedNames]

/-- The name of each entry is made up with the number of its place. -/
theorem mintedName_mem_mintedNames {α : Type} (before : List (String × α)) (entry : String × α)
    (later : List (String × α)) (next : Nat) :
    mintedName entry.1 (next + before.length) ∈
      mintedNames ((before ++ entry :: later).map Prod.fst) next := by
  rw [List.map_append, mintedNames_append, List.map_cons, mintedNames_cons, List.length_map]
  exact List.mem_append_right _ List.mem_cons_self

/-- No name that would be made up next is bound yet. -/
def IsFresh (parameters : Parameters) : Prop :=
  ∀ base n, parameters.next ≤ n → parameters.get? (mintedName base n) = none

end Parameters

end EntityQuery
