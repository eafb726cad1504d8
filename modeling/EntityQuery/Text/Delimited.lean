/-!
# Text between quotes

A quoted text ends at the first quote that is not escaped.
-/

namespace EntityQuery.Text

/-- Split after an opening quote into the content and what follows the closing
quote. A backslash takes the next character with it. -/
def splitQuoted : List Char → Option (List Char × List Char)
  | [] => none
  | '"' :: rest => some ([], rest)
  | ['\\'] => none
  | '\\' :: c :: rest => (splitQuoted rest).map fun (raw, after) => ('\\' :: c :: raw, after)
  | c :: rest => (splitQuoted rest).map fun (raw, after) => (c :: raw, after)

theorem append_of_splitQuoted {source raw after : List Char}
    (h : splitQuoted source = some (raw, after)) : raw ++ '"' :: after = source := by
  fun_induction splitQuoted source generalizing raw after with
  | case1 => simp at h
  | case2 rest => simp_all
  | case3 => simp at h
  | case4 c rest ih =>
      obtain ⟨⟨raw', after'⟩, h', heq⟩ := Option.map_eq_some_iff.1 h
      cases heq
      simp [ih h']
  | case5 c rest _ _ _ ih =>
      obtain ⟨⟨raw', after'⟩, h', heq⟩ := Option.map_eq_some_iff.1 h
      cases heq
      simp [ih h']

end EntityQuery.Text
