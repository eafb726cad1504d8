/-!
# Pieces of a text

A separator cuts a text into pieces, one more than there are separators.
-/

namespace EntityQuery.Text

/-- The pieces of a text between separators. -/
def pieces (separator : Char) : List Char → List (List Char)
  | [] => [[]]
  | c :: rest =>
      if c = separator then [] :: pieces separator rest
      else
        match pieces separator rest with
        | [] => [[c]]
        | piece :: others => (c :: piece) :: others

end EntityQuery.Text
