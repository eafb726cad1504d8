import EntityQuery.Proofs.JoinGraph.Closure
import EntityQuery.Statement.Count
import EntityQuery.Statement.Delete
import EntityQuery.Statement.Insert
import EntityQuery.Statement.Select
import EntityQuery.Statement.Update

/-!
# Placeholders of statements

A statement mentions what the conditions of its graph mention, and the
placeholders of the values that it writes itself. Everything else in it is
fixed words, names in quotes and numbers of rows.
-/

namespace EntityQuery

variable {d : Sql.Dialect} {P : String → Prop}

/-! ### Selections and counts -/

theorem Sql.mentionsOnly_paging (dialect : Sql.Dialect) (limit offset : Option UInt64) :
    Sql.MentionsOnly d P (dialect.paging limit offset) := by
  unfold Dialect.paging
  split
  next => exact Sql.mentionsOnly_nil
  next => exact Sql.mentionsOnly_fixedWords rfl
  next offset =>
    have hoffset : Sql.MentionsOnly d P (Sql.words [.keyword .limit, .rowCount offset]) :=
      Sql.mentionsOnly_fixedWords rfl
    have hcount : Sql.MentionsOnly d P [.rowCount (limit.getD Dialect.largestRowCount)] :=
      Sql.mentionsOnly_rowCount _
    rw [List.append_assoc]
    exact Sql.mentionsOnly_append_break rfl hoffset (Sql.mentionsOnly_keyword .space hcount)
  next => cases limit <;> exact Sql.mentionsOnly_fixedWords rfl
  next => cases limit <;> cases offset <;> exact Sql.mentionsOnly_fixedWords rfl
  next => cases limit <;> cases offset <;> exact Sql.mentionsOnly_fixedWords rfl

theorem Order.mentionsOnly_line (order : Order) :
    ∀ line ∈ order.line?.toList, Sql.MentionsOnly d P line := by
  intro line hline
  have hline : order.line? = some line := Option.mem_toList.1 hline
  rw [Order.line?] at hline
  split at hline
  next => cases hline
  next =>
    cases hline
    refine Sql.mentionsOnly_clause .orderBy
      (Sql.mentionsOnly_commaSeparated (List.forall_mem_map.2 fun item _ => ?_))
    cases item.direction <;> exact Sql.mentionsOnly_fixedWords rfl

namespace Select

variable {s : Select}

theorem mentionsOnly_pageLines (s : Select) :
    ∀ line ∈ s.pageLines, Sql.MentionsOnly d P line := by
  rw [pageLines]
  split
  next => exact fun _ hline => nomatch hline
  next count offset _ =>
    refine List.forall_mem_append.2 ⟨?_, List.forall_mem_singleton.2
      (Sql.mentionsOnly_paging _ (some count) offset)⟩
    split
    next =>
      exact List.forall_mem_singleton.2 (Sql.mentionsOnly_clause .orderBy
        (Sql.mentionsOnly_parenthesized (Sql.mentionsOnly_fixedWords rfl)))
    next => exact fun _ hline => nomatch hline

theorem mentionsOnly_sqlTokens
    (h : ∀ t ∈ s.graph.tables, ∀ sql ∈ t.sql, Sql.MentionsOnly d P [.written sql]) :
    Sql.MentionsOnly d P s.sqlTokens := by
  refine Sql.mentionsOnly_stack (List.forall_mem_append.2 ⟨List.forall_mem_append.2
    ⟨List.forall_mem_append.2 ⟨List.forall_mem_singleton.2 ?_,
      JoinGraph.mentionsOnly_lines h⟩, s.order.mentionsOnly_line⟩, s.mentionsOnly_pageLines⟩)
  exact Sql.mentionsOnly_clause .select (Sql.mentionsOnly_commaSeparated
    (List.forall_mem_map.2 fun _ _ => Sql.mentionsOnly_fixedWords rfl))

end Select

namespace Count

theorem mentionsOnly_sqlTokens {c : Count}
    (h : ∀ t ∈ c.graph.tables, ∀ sql ∈ t.sql, Sql.MentionsOnly d P [.written sql]) :
    Sql.MentionsOnly d P c.sqlTokens := by
  have hcounted : Sql.MentionsOnly d P [c.countedToken] := by
    rw [countedToken]
    split
    next column _ => exact Sql.mentionsOnly_column column.reference
    next => exact Sql.mentionsOnly_keyword .star Sql.mentionsOnly_nil
  have hfirst : Sql.MentionsOnly d P
      (.keyword .select :: .space :: (.keyword .count :: Sql.parenthesized [c.countedToken]) ++
        .space :: Sql.words [.keyword .as, .ident "count"]) :=
    Sql.mentionsOnly_append_break rfl
      (Sql.mentionsOnly_clause .select
        (Sql.mentionsOnly_keyword .count (Sql.mentionsOnly_parenthesized hcounted)))
      (Sql.mentionsOnly_fixedWords rfl)
  exact Sql.mentionsOnly_stack (List.forall_mem_append.2 ⟨List.forall_mem_append.2
    ⟨List.forall_mem_singleton.2 hfirst, JoinGraph.mentionsOnly_lines h⟩,
      c.order.mentionsOnly_line⟩)

end Count

/-! ### Updates and deletions -/

namespace Update

theorem mentionsOnly_setLine {u : Update}
    (assigned : ∀ a ∈ u.assignments, Sql.MentionsOnly d P [.placeholder a.placeholder]) :
    Sql.MentionsOnly d P u.setLine := by
  refine Sql.mentionsOnly_clause .set
    (Sql.mentionsOnly_commaSeparated (List.forall_mem_map.2 fun a ha => ?_))
  have hplaceholder := assigned a ha
  refine Sql.mentionsOnly_words (List.forall_mem_cons.2 ⟨?_, List.forall_mem_cons.2
    ⟨?_, List.forall_mem_singleton.2 hplaceholder⟩⟩)
  · cases u.graph.dialect.mutationStyle with
    | keySubquery => exact Sql.mentionsOnly_ident _
    | multiTable => exact Sql.mentionsOnly_column _
    | targetAlias => exact Sql.mentionsOnly_column _
  · exact Sql.mentionsOnly_keyword .eq Sql.mentionsOnly_nil

theorem mentionsOnly_sqlTokens {u : Update}
    (h : ∀ t ∈ u.graph.tables, ∀ sql ∈ t.sql, Sql.MentionsOnly d P [.written sql])
    (assigned : ∀ a ∈ u.assignments, Sql.MentionsOnly d P [.placeholder a.placeholder]) :
    Sql.MentionsOnly d P u.sqlTokens := by
  have hset := mentionsOnly_setLine assigned
  have hbase : Sql.MentionsOnly d P (.keyword .update :: .space :: u.graph.base.sqlTokens) :=
    Sql.mentionsOnly_clause .update (JoinGraph.mentionsOnly_tableTokens _)
  rw [sqlTokens]
  split
  next => exact Sql.mentionsOnly_nil
  next =>
    refine Sql.mentionsOnly_stack ?_
    rw [linesAround]
    split
    next =>
      exact List.forall_mem_append.2 ⟨List.forall_mem_cons.2
        ⟨hbase, JoinGraph.mentionsOnly_joinLines h⟩,
        List.forall_mem_cons.2 ⟨hset, JoinGraph.mentionsOnly_whereLine h⟩⟩
    next =>
      exact List.forall_mem_cons.2 ⟨Sql.mentionsOnly_fixedWords rfl,
        List.forall_mem_cons.2 ⟨hset, JoinGraph.mentionsOnly_lines h⟩⟩
    next =>
      refine List.forall_mem_cons.2 ⟨hbase, List.forall_mem_cons.2 ⟨hset, ?_⟩⟩
      split
      next => exact List.forall_mem_singleton.2 (JoinGraph.mentionsOnly_keySubquery h _)
      next => exact JoinGraph.mentionsOnly_whereLine h

end Update

namespace Delete

theorem mentionsOnly_sqlTokens {deletion : Delete}
    (h : ∀ t ∈ deletion.graph.tables, ∀ sql ∈ t.sql, Sql.MentionsOnly d P [.written sql]) :
    Sql.MentionsOnly d P deletion.sqlTokens := by
  refine Sql.mentionsOnly_clause .delete (Sql.mentionsOnly_stack ?_)
  have htarget : Sql.MentionsOnly d P [.ident deletion.target.alias] := Sql.mentionsOnly_ident _
  rw [linesAfter]
  split
  next => exact List.forall_mem_cons.2 ⟨htarget, JoinGraph.mentionsOnly_lines h⟩
  next => exact List.forall_mem_cons.2 ⟨htarget, JoinGraph.mentionsOnly_lines h⟩
  next =>
    split
    next =>
      refine List.forall_mem_cons.2 ⟨?_,
        List.forall_mem_singleton.2 (JoinGraph.mentionsOnly_keySubquery h _)⟩
      exact Sql.mentionsOnly_clause .from_ (JoinGraph.mentionsOnly_tableTokens _)
    next => exact JoinGraph.mentionsOnly_lines h

end Delete

namespace Insert

theorem mentionsOnly_sqlTokens {i : Insert}
    (written : ∀ c ∈ i.columns, Sql.MentionsOnly d P [.placeholder c.property]) :
    Sql.MentionsOnly d P i.sqlTokens := by
  rw [sqlTokens]
  split
  next => exact Sql.mentionsOnly_nil
  next =>
    refine Sql.mentionsOnly_stack (List.forall_mem_cons.2 ⟨?_, List.forall_mem_singleton.2 ?_⟩)
    · refine Sql.mentionsOnly_append_break rfl (Sql.mentionsOnly_fixedWords rfl)
        (Sql.mentionsOnly_parenthesized (Sql.mentionsOnly_commaSeparated ?_))
      exact List.forall_mem_map.2 fun c _ => Sql.mentionsOnly_ident c.name
    · exact Sql.mentionsOnly_clause .values (Sql.mentionsOnly_parenthesized
        (Sql.mentionsOnly_commaSeparated (List.forall_mem_map.2 written)))

end Insert

end EntityQuery
