/-!
# Tokens of SQL text

Statements are put together from tokens that say nothing about quoting; a
dialect writes them out. Fixed words carry no blanks of their own, so blanks
and line breaks are tokens too.
-/

namespace EntityQuery.Sql

/-- The fixed words, marks and blanks of SQL text. -/
inductive Keyword where
  | select
  | from_
  | where_
  | and
  | or
  | not
  | as
  | on
  | join
  | inner
  | left
  | right
  | outer
  | orderBy
  | asc
  | desc
  | limit
  | offset
  | fetch
  | next
  | rows
  | only
  | in_
  | like
  | is
  | null
  | count
  | insert
  | into
  | values
  | update
  | set
  | delete
  | comma
  | star
  | leftParen
  | rightParen
  | eq
  | ne
  | lt
  | gt
  | lte
  | gte
  | space
  | newline
  deriving DecidableEq

/-- The text of a fixed word, the same in every dialect. -/
def Keyword.text : Keyword → String
  | select => "SELECT"
  | from_ => "FROM"
  | where_ => "WHERE"
  | and => "AND"
  | or => "OR"
  | not => "NOT"
  | as => "AS"
  | on => "ON"
  | join => "JOIN"
  | inner => "INNER"
  | left => "LEFT"
  | right => "RIGHT"
  | outer => "OUTER"
  | orderBy => "ORDER BY"
  | asc => "ASC"
  | desc => "DESC"
  | limit => "LIMIT"
  | offset => "OFFSET"
  | fetch => "FETCH"
  | next => "NEXT"
  | rows => "ROWS"
  | only => "ONLY"
  | in_ => "IN"
  | like => "LIKE"
  | is => "IS"
  | null => "NULL"
  | count => "COUNT"
  | insert => "INSERT"
  | into => "INTO"
  | values => "VALUES"
  | update => "UPDATE"
  | set => "SET"
  | delete => "DELETE"
  | comma => ","
  | star => "*"
  | leftParen => "("
  | rightParen => ")"
  | eq => "="
  | ne => "<>"
  | lt => "<"
  | gt => ">"
  | lte => "<="
  | gte => ">="
  | space => " "
  | newline => "\n"

/-- A piece of SQL text. -/
inductive Token where
  | keyword (word : Keyword)
  /-- A name that is quoted whole, dots included. -/
  | ident (name : String)
  /-- A table with the schema it is in. -/
  | table (schema : Option String) (name : String)
  /-- A column reference `alias.column`, quoted in two parts. -/
  | column (reference : String)
  /-- A placeholder for a value. -/
  | placeholder (name : String)
  /-- A number in the spelling of its source. -/
  | number (spelling : String)
  /-- A number of rows. -/
  | rowCount (count : UInt64)
  /-- Text that has been written out before. -/
  | written (text : String)
  deriving DecidableEq

/-- One blank. -/
def Token.space : Token := .keyword .space

/-- A comma and a blank. -/
def commaTokens : List Token := [.keyword .comma, .space]

/-- Lists with a comma and a blank between them. -/
def commaSeparated : List (List Token) → List Token
  | [] => []
  | [item] => item
  | item :: rest => item ++ commaTokens ++ commaSeparated rest

/-- Tokens in parentheses. -/
def parenthesized (tokens : List Token) : List Token :=
  .keyword .leftParen :: tokens ++ [.keyword .rightParen]

/-- Words with a blank between them. -/
def words : List Token → List Token
  | [] => []
  | [token] => [token]
  | token :: rest => token :: .space :: words rest

/-- Fixed words with a blank between them. -/
def phrase (keywords : List Keyword) : List Token := words (keywords.map .keyword)

/-- Lines one below the other. -/
def stack : List (List Token) → List Token
  | [] => []
  | [line] => line
  | line :: rest => line ++ .keyword .newline :: stack rest

end EntityQuery.Sql
