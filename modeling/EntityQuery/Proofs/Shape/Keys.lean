import EntityQuery.Proofs.Shape.Grouping

/-!
# Keys do not collide

Folding tells models apart by the text of their keys alone, so two keys with one text would be one
model. There are none: rows with a key have the same text exactly if they have the same value in
every key column (`Shape.keys_never_collide`).

The text is that of the array of the values, and the text of an array determines its items
(`Row.text_keyValues_inj`). It remains to say keys by look-ups. A look-up tells an absent column
from a null one, which `Dict.valueOf` does not; where a row has a key, neither occurs.
-/

namespace EntityQuery

theorem Dict.valueOf_eq_null_iff {d : Dict Json} {key : String} :
    d.valueOf key = .null ↔ d.get? key = none ∨ d.get? key = some .null := by
  rw [valueOf]
  cases d.get? key <;> simp

theorem Dict.valueOf_ne_null_iff {d : Dict Json} {key : String} :
    d.valueOf key ≠ .null ↔ ∃ value ≠ Json.null, d.get? key = some value := by
  rw [valueOf]
  cases d.get? key <;> simp

namespace Row

variable {row other : Row} {keys : List String}

theorem isKeyed_iff :
    row.isKeyed keys = true ↔
      ∀ column ∈ keys, ∃ value ≠ Json.null, row.get? column = some value := by
  rw [isKeyed, List.all_eq_true]
  exact forall₂_congr fun column _ => bne_iff_ne.trans Dict.valueOf_ne_null_iff

theorem keyText?_eq_none_iff :
    row.keyText? keys = none ↔
      ∃ column ∈ keys, row.get? column = none ∨ row.get? column = some .null := by
  calc
    row.keyText? keys = none ↔ ¬row.isKeyed keys = true := by simp [keyText?_eq]
    _ ↔ ∃ column ∈ keys, row.valueOf column = .null := by simp [isKeyed]
    _ ↔ ∃ column ∈ keys, row.get? column = none ∨ row.get? column = some .null := by
      simp only [Dict.valueOf_eq_null_iff]

/-- Rows with a key have the same text if the arrays of their values have. -/
theorem exists_keyText?_iff (keyed : row.isKeyed keys = true) (keyed' : other.isKeyed keys = true) :
    (∃ text, row.keyText? keys = some text ∧ other.keyText? keys = some text) ↔
      (Json.arr (row.keyValues keys)).text = (Json.arr (other.keyValues keys)).text := by
  rw [keyText?_eq, keyText?_eq, if_pos keyed, if_pos keyed']
  constructor
  · rintro ⟨text, hrow, hother⟩
    exact Option.some_inj.1 (hrow.trans hother.symm)
  · intro h
    exact ⟨_, rfl, congrArg some h.symm⟩

theorem keyValues_eq_iff (keyed : row.isKeyed keys = true) (keyed' : other.isKeyed keys = true) :
    row.keyValues keys = other.keyValues keys ↔
      ∀ column ∈ keys, row.get? column = other.get? column := by
  rw [keyValues, keyValues, List.map_inj_left]
  refine forall₂_congr fun column hcolumn => ?_
  obtain ⟨value, -, hvalue⟩ := isKeyed_iff.1 keyed column hcolumn
  obtain ⟨value', -, hvalue'⟩ := isKeyed_iff.1 keyed' column hcolumn
  rw [Dict.valueOf, Dict.valueOf, hvalue, hvalue', Option.getD_some, Option.getD_some,
    Option.some_inj]

end Row

namespace Shape

/-- A row has no key exactly if some key column is absent or null. Two rows that have every key
column have the same text of their key exactly if they have equal values in every key column. -/
theorem keys_never_collide (shape : Shape) :
    (∀ row : Row, row.keyText? shape.keys = none ↔
      ∃ column ∈ shape.keys, row.get? column = none ∨ row.get? column = some .null) ∧
    ∀ row other : Row, row.isWellSpelled = true → other.isWellSpelled = true →
      (∀ column ∈ shape.keys, ∃ value ≠ Json.null, row.get? column = some value) →
      (∀ column ∈ shape.keys, ∃ value ≠ Json.null, other.get? column = some value) →
        ((∃ text, row.keyText? shape.keys = some text ∧ other.keyText? shape.keys = some text) ↔
          ∀ column ∈ shape.keys, row.get? column = other.get? column) := by
  refine ⟨fun row => Row.keyText?_eq_none_iff, ?_⟩
  intro row other spelled spelled' keyed keyed'
  have hkeyed := Row.isKeyed_iff.2 keyed
  have hkeyed' := Row.isKeyed_iff.2 keyed'
  rw [Row.exists_keyText?_iff hkeyed hkeyed', Row.text_keyValues_inj shape.keys spelled spelled',
    Row.keyValues_eq_iff hkeyed hkeyed']

/-- Notes that a text, a list and an object identify together. -/
def noteShape : Shape :=
  ofTable { entity := "Note", name := "notes" } ["n.box", "n.tags", "n.data"]

/-- A row of a note, with brackets, a quote, a backslash and a line break in its key. -/
def noteRow (tags : List String) (title : String) : Row :=
  Dict.ofList [("n.box", .str "[\"a\\"), ("n.tags", .arr (tags.map .str)),
    ("n.data", .obj [("b\n", .num "1.0")]), ("n.title", .str title)]

/-- Rows of one note under two titles, and of another note whose tags have the same text but for
escapes. -/
def noteRows : List Row :=
  [noteRow ["c\",\"d"] "old", noteRow ["c\",\"d"] "new", noteRow ["c", "d"] "old"]

theorem keys_never_collide_noteRows :
    (∀ row ∈ noteRows, row.isWellSpelled = true) ∧
      (∀ row ∈ noteRows, ∀ column ∈ noteShape.keys,
        ∃ value ≠ Json.null, row.get? column = some value) ∧
      (∃ text, (noteRow ["c\",\"d"] "old").keyText? noteShape.keys = some text ∧
        (noteRow ["c\",\"d"] "new").keyText? noteShape.keys = some text) ∧
      (¬∃ text, (noteRow ["c\",\"d"] "old").keyText? noteShape.keys = some text ∧
        (noteRow ["c", "d"] "old").keyText? noteShape.keys = some text) ∧
      Row.keyText? ∅ noteShape.keys = none := by
  have spelled : ∀ row ∈ noteRows, row.isWellSpelled = true := by decide
  have hkeyed : ∀ row ∈ noteRows, row.isKeyed noteShape.keys = true := by decide
  have keyed : ∀ row ∈ noteRows, ∀ column ∈ noteShape.keys,
      ∃ value ≠ Json.null, row.get? column = some value :=
    fun row hrow => Row.isKeyed_iff.1 (hkeyed row hrow)
  obtain ⟨hnone, hsome⟩ := keys_never_collide noteShape
  have hpair : ∀ row ∈ noteRows, ∀ other ∈ noteRows,
      (∃ text, row.keyText? noteShape.keys = some text ∧
        other.keyText? noteShape.keys = some text) ↔
          ∀ column ∈ noteShape.keys, row.get? column = other.get? column :=
    fun row hrow other hother => hsome row other (spelled row hrow) (spelled other hother)
      (keyed row hrow) (keyed other hother)
  refine ⟨spelled, keyed, ?same, ?different, ?absent⟩
  case same => exact (hpair _ (by simp [noteRows]) _ (by simp [noteRows])).2 (by decide)
  case different =>
    intro h
    have hvalues := (hpair _ (by simp [noteRows]) _ (by simp [noteRows])).1 h
    exact absurd hvalues (by decide)
  case absent => exact (hnone ∅).2 ⟨"n.box", by decide, .inl rfl⟩

end Shape

end EntityQuery
