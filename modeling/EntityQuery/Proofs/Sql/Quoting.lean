import EntityQuery.Sql.Dialect

/-!
# Quoted names end where they seem to

A name in quotes is told apart from whatever follows it, as long as no further
closing quote does (`quoteChars_append_inj`), and so is a column reference, as
long as no dot follows either (`columnChars_append_inj`). The name itself may
hold any characters, quotes and dots among them.
-/

namespace EntityQuery.Sql

theorem append_of_splitAtDot {reference before after : List Char}
    (h : splitAtDot reference = some (before, after)) : reference = before ++ '.' :: after := by
  induction reference generalizing before with
  | nil => cases h
  | cons c reference ih =>
      rw [splitAtDot] at h
      split at h
      next hdot => cases h; rw [hdot]; rfl
      next =>
        obtain ⟨⟨start, rest⟩, hsplit, hpair⟩ := Option.map_eq_some_iff.1 h
        cases hpair
        rw [ih hsplit]
        rfl

namespace Dialect

variable {d : Dialect}

/-- A name with its closing quotes written twice, up to the quote that ends it. -/
theorem doubled_append_inj {name other rest more : List Char}
    (ends : rest.head? ≠ some d.closeQuote) (ends' : more.head? ≠ some d.closeQuote)
    (h : name.flatMap (fun c => if c = d.closeQuote then [c, c] else [c]) ++ d.closeQuote :: rest =
      other.flatMap (fun c => if c = d.closeQuote then [c, c] else [c]) ++ d.closeQuote :: more) :
    name = other ∧ rest = more := by
  induction name generalizing other with
  | nil =>
      cases other with
      | nil => exact ⟨rfl, (List.cons.inj h).2⟩
      | cons c other =>
          -- a quote of the other name is written twice, and none follows here
          rw [List.flatMap_nil, List.flatMap_cons] at h
          split at h
          next hc =>
            subst hc
            exact absurd (congrArg List.head? (List.cons.inj h).2) ends
          next hc => exact absurd (List.cons.inj h).1.symm hc
  | cons c name ih =>
      cases other with
      | nil =>
          rw [List.flatMap_nil, List.flatMap_cons] at h
          split at h
          next hc =>
            subst hc
            exact absurd (congrArg List.head? (List.cons.inj h).2).symm ends'
          next hc => exact absurd (List.cons.inj h).1 hc
      | cons c' other =>
          rw [List.flatMap_cons, List.flatMap_cons] at h
          have hhead : c = c' := by
            split at h <;> split at h <;> exact (List.cons.inj h).1
          subst hhead
          rw [List.append_assoc, List.append_assoc, List.append_cancel_left_eq] at h
          obtain ⟨rfl, hrest⟩ := ih h
          exact ⟨rfl, hrest⟩

/-- A quoted name ends at its last quote. -/
theorem quoteChars_append_inj {name other rest more : List Char}
    (ends : rest.head? ≠ some d.closeQuote) (ends' : more.head? ≠ some d.closeQuote)
    (h : d.quoteChars name ++ rest = d.quoteChars other ++ more) : name = other ∧ rest = more := by
  refine doubled_append_inj ends ends' ?_
  simpa [quoteChars] using h

/-- What may follow a column reference: neither a closing quote nor a dot. -/
def EndsReference (d : Dialect) (rest : List Char) : Prop :=
  rest.head? ≠ some d.closeQuote ∧ rest.head? ≠ some '.'

theorem dot_ne_closeQuote (d : Dialect) : '.' ≠ d.closeQuote := by
  cases d <;> decide

/-- A column reference ends at its last quote, and its parts are those on both
sides of its first dot. -/
theorem columnChars_append_inj {reference other rest more : List Char}
    (ends : d.EndsReference rest) (ends' : d.EndsReference more)
    (h : d.columnChars reference ++ rest = d.columnChars other ++ more) :
    reference = other ∧ rest = more := by
  have hdot : ∀ chars : List Char, ('.' :: chars).head? ≠ some d.closeQuote :=
    fun _ heq => dot_ne_closeQuote d (Option.some.inj heq)
  rw [columnChars, columnChars] at h
  split at h
  next table column hsplit =>
    rw [List.append_assoc, List.cons_append] at h
    split at h
    next table' column' hsplit' =>
      rw [List.append_assoc, List.cons_append] at h
      obtain ⟨rfl, hcolumns⟩ := quoteChars_append_inj (hdot _) (hdot _) h
      obtain ⟨rfl, hrest⟩ := quoteChars_append_inj ends.1 ends'.1 (List.cons.inj hcolumns).2
      exact ⟨(append_of_splitAtDot hsplit).trans (append_of_splitAtDot hsplit').symm, hrest⟩
    next =>
      obtain ⟨-, rfl⟩ := quoteChars_append_inj (hdot _) ends'.1 h
      exact absurd rfl ends'.2
  next =>
    split at h
    next =>
      rw [List.append_assoc, List.cons_append] at h
      obtain ⟨-, rfl⟩ := quoteChars_append_inj ends.1 (hdot _) h
      exact absurd rfl ends.2
    next => exact quoteChars_append_inj ends.1 ends'.1 h

theorem exists_columnChars_eq_cons (d : Dialect) (reference : List Char) :
    ∃ chars, d.columnChars reference = d.openQuote :: chars := by
  rw [columnChars]
  split
  next => exact ⟨_, rfl⟩
  next => exact ⟨_, rfl⟩

end Dialect

end EntityQuery.Sql
