import EntityQuery.Settings.Reference
import EntityQuery.Sql.Dialect

/-!
# Settings

Settings say which dialect queries are written in and whether a change of no
row is an error. The dialect's name may refer to the environment, so it is
looked up in one.
-/

namespace EntityQuery

/-- The settings of a session. -/
structure Settings where
  /-- The name of the dialect, in which references stand for variables. -/
  dialectText : String := "mysql"
  /-- Whether it is an error for an update or a deletion to affect no row. -/
  requireAffected : Bool := true
  deriving DecidableEq

/-- The dialect that the settings name in an environment. -/
def Settings.dialect (settings : Settings) (environment : Environment) :
    Except SettingsError Sql.Dialect := do
  let name ← Reference.expand environment settings.dialectText
  match Sql.Dialect.ofName? name with
  | some dialect => return dialect
  | none => throw (.unsupportedDialect name)

end EntityQuery
