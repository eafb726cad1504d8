import EntityQuery.Sql.Token
import EntityQuery.Text.Trim

/-!
# SQL dialects

The dialects differ in the quotes around names, in how a page of rows is
asked for, and in how an update or a delete reaches joined tables. Everything
else is common to them.
-/

namespace EntityQuery.Sql

/-- How updates and deletes reach the joined tables of a query. -/
inductive MutationStyle where
  /-- The joins follow the updated table, and joined columns may be assigned. -/
  | multiTable
  /-- The statement names the target's alias and repeats the whole query after it. -/
  | targetAlias
  /-- The statement has one table, narrowed by its keys in the joined query. -/
  | keySubquery
  deriving DecidableEq

/-- Whether an update may assign columns of joined tables. -/
def MutationStyle.assignsJoined : MutationStyle → Bool
  | multiTable => true
  | _ => false

/-- The supported dialects. -/
inductive Dialect where
  | mysql
  | postgres
  | duckdb
  | tsql
  deriving DecidableEq

namespace Dialect

/-- MySQL, where nothing else is asked for. -/
instance : Inhabited Dialect := ⟨mysql⟩

/-- The name of a dialect. -/
def name : Dialect → String
  | mysql => "mysql"
  | postgres => "postgres"
  | duckdb => "duckdb"
  | tsql => "tsql"

/-- The names by which a dialect is known, in lower case. -/
def names : Dialect → List String
  | mysql => ["mysql", "mariadb"]
  | postgres => ["postgres", "postgresql"]
  | duckdb => ["duckdb"]
  | tsql => ["tsql", "mssql", "sqlserver"]

/-- The dialect of a name, without regard to case and blanks around it. -/
def ofName? (name : String) : Option Dialect :=
  [mysql, postgres, duckdb, tsql].find? fun d => (Text.lower (Text.trim name)) ∈ d.names

/-- The quote before a name. -/
def openQuote : Dialect → Char
  | mysql => '`'
  | postgres | duckdb => '"'
  | tsql => '['

/-- The quote after a name. -/
def closeQuote : Dialect → Char
  | mysql => '`'
  | postgres | duckdb => '"'
  | tsql => ']'

/-- A name in quotes. Only the closing quote needs care: it is written twice. -/
def quoteChars (d : Dialect) (name : List Char) : List Char :=
  d.openQuote :: name.flatMap (fun c => if c = d.closeQuote then [c, c] else [c]) ++ [d.closeQuote]

/-- A name in quotes. -/
def quote (d : Dialect) (name : String) : String := String.ofList (d.quoteChars name.toList)

/-- How updates and deletes reach joined tables. -/
def mutationStyle : Dialect → MutationStyle
  | mysql => .multiTable
  | tsql => .targetAlias
  | postgres | duckdb => .keySubquery

/-- Whether a page of rows can be asked for only of an ordered query. -/
def pagesNeedOrder : Dialect → Bool
  | tsql => true
  | _ => false

/-- The largest number of rows that can be asked for. -/
def largestRowCount : UInt64 := 18446744073709551615

/-- The clause for at most `limit` rows after the first `offset`; there is
none if neither is given. MySQL has no offset without a limit, so the largest
row count stands for no limit. -/
def paging : Dialect → Option UInt64 → Option UInt64 → List Token
  | _, none, none => []
  | mysql, some limit, none => words [.keyword .limit, .rowCount limit]
  | mysql, limit, some offset =>
      words [.keyword .limit, .rowCount offset] ++ commaTokens ++ [.rowCount (limit.getD largestRowCount)]
  | tsql, limit, offset =>
      words ([.keyword .offset, .rowCount (offset.getD 0), .keyword .rows] ++
        match limit with
        | some limit => [.keyword .fetch, .keyword .next, .rowCount limit, .keyword .rows,
            .keyword .only]
        | none => [])
  | postgres, limit, offset | duckdb, limit, offset =>
      words ((match limit with
          | some limit => [.keyword .limit, .rowCount limit]
          | none => []) ++
        match offset with
        | some offset => [.keyword .offset, .rowCount offset]
        | none => [])

end Dialect

/-- The parts of a name before and after its first dot. -/
def splitAtDot : List Char → Option (List Char × List Char)
  | [] => none
  | c :: rest =>
      if c = '.' then some ([], rest)
      else (splitAtDot rest).map fun (before, after) => (c :: before, after)

/-- The parts of a name before and after its first dot. -/
def splitQualified (name : String) : Option (String × String) :=
  (splitAtDot name.toList).map fun (before, after) => (String.ofList before, String.ofList after)

/-- A column reference: its parts on both sides of the first dot are quoted by
themselves, and a reference without a dot is one name. -/
def Dialect.columnChars (d : Dialect) (reference : List Char) : List Char :=
  match splitAtDot reference with
  | some (table, column) => d.quoteChars table ++ '.' :: d.quoteChars column
  | none => d.quoteChars reference

/-- A column reference in quotes. -/
def Dialect.quoteColumn (d : Dialect) (reference : String) : String :=
  String.ofList (d.columnChars reference.toList)

/-- The text of a token. -/
def Token.chars (d : Dialect) : Token → List Char
  | keyword word => word.text.toList
  | ident name => d.quoteChars name.toList
  | table (some schema) name => d.quoteChars schema.toList ++ '.' :: d.quoteChars name.toList
  | table none name => d.quoteChars name.toList
  | column reference => d.columnChars reference.toList
  | placeholder name => ':' :: name.toList
  | number spelling => spelling.toList
  | rowCount count => (toString count.toNat).toList
  | written text => text.toList

/-- The text of tokens, one after the other. -/
def render (d : Dialect) (tokens : List Token) : String :=
  String.ofList (tokens.flatMap (Token.chars d))

end EntityQuery.Sql
