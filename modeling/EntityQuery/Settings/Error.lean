/-!
# What can be wrong with settings
-/

namespace EntityQuery

/-- What can be wrong with the text of settings or with what they ask for. -/
inductive SettingsError where
  /-- A text that cannot be read, or that gives a setting a value of another type. -/
  | malformed
  /-- A variable that a setting refers to and the environment does not have. -/
  | missingVariable (name : String)
  | unsupportedDialect (name : String)
  deriving DecidableEq

/-- An error in words, where there is more to say than that the text cannot be read. -/
def SettingsError.message? : SettingsError → Option String
  | malformed => none
  | missingVariable name => some ("Missing environment variable: " ++ name)
  | unsupportedDialect name => some ("Unsupported dialect: " ++ name)

end EntityQuery
