import EntityQuery.Settings.Basic
import EntityQuery.Toml.Document

/-!
# Settings in TOML

Settings are written as two sections: `sql` with the key `dialect`, and
`query` with the key `require_affected_rows`. What is not said keeps its
default, and unknown keys are ignored. A section may also be an array, whose
first item is then the section's one setting. A moment counts as a section that
says nothing.
-/

namespace EntityQuery.Settings

open Toml (Value)

/-- Whether every number that is looked at has a value. A document is looked at
as a whole, except that an array in place of a section counts by its first item
alone. -/
def isReadable (document : List (String × Value)) : Bool :=
  document.all fun (name, value) =>
    match value with
    | .array items =>
        if name = "sql" ∨ name = "query" then items.head?.all Value.isRepresentable
        else value.isRepresentable
    | value => value.isRepresentable

/-- The value that a section gives to its setting, if it gives one. -/
def settingOf? (key : String) : Value → Except SettingsError (Option Value)
  | .table members => .ok (members.lookup key)
  | .array items => .ok items.head?
  | .moment _ => .ok none
  | _ => .error .malformed

/-- The value that a document gives to a setting of a section, if it gives one. -/
def setting? (document : List (String × Value)) (name key : String) :
    Except SettingsError (Option Value) :=
  match document.lookup name with
  | some value => settingOf? key value
  | none => .ok none

/-- The settings that a document asks for. -/
def ofDocument (document : List (String × Value)) : Except SettingsError Settings := do
  let settings : Settings := {}
  let dialectText ← match ← setting? document "sql" "dialect" with
    | none => pure settings.dialectText
    | some (.string text) => pure text
    | some _ => throw .malformed
  let requireAffected ← match ← setting? document "query" "require_affected_rows" with
    | none => pure settings.requireAffected
    | some (.boolean value) => pure value
    | some _ => throw .malformed
  return { dialectText, requireAffected }

/-- Read settings from their text. -/
def ofToml (source : String) : Except SettingsError Settings :=
  match Toml.parse? source with
  | some document => if isReadable document then ofDocument document else .error .malformed
  | none => .error .malformed

end EntityQuery.Settings
