import EntityQuery.Text.Pieces
import EntityQuery.Text.Trim
import EntityQuery.Text.Unsigned

/-!
# Column types

A column's type is declared in SQL. Reading it accepts the spellings of several
dialects and keeps what matters to values; writing it gives one spelling back.
-/

namespace EntityQuery

/-- The type of a column. -/
inductive DataType where
  | bool
  | int8
  | int16
  | int32
  | int64
  | float32
  | float64
  | decimal (precision scale : UInt8)
  /-- Text without a bound. -/
  | text
  | char (length : UInt32)
  | varchar (length : UInt32)
  | date
  | time
  | timestamp
  | binary
  | json
  /-- One of some values. -/
  | enumeration (values : List String)
  deriving DecidableEq

namespace DataType

/-- What stands between an opening and a closing parenthesis. -/
def parenthesized? : List Char → Option (List Char)
  | '(' :: rest => [')'].isSuffixOf? rest
  | _ => none

/-- What stands in the parentheses after a word. -/
def argument? (word : String) (chars : List Char) : Option (List Char) := do
  let rest ← word.toList.isPrefixOf? chars
  parenthesized? (Text.trimChars rest)

/-- What stands in the parentheses after the first of some words that has them. -/
def argumentOf? (words : List String) (chars : List Char) : Option (List Char) :=
  words.findSome? (argument? · chars)

/-- Drop a character at both ends. -/
def strip (c : Char) (chars : List Char) : List Char :=
  ((chars.dropWhile (· == c)).reverse.dropWhile (· == c)).reverse

/-- The values of an enumeration, between commas and with or without single
quotes. Empty values are dropped. -/
def valuesOf (chars : List Char) : List String :=
  ((Text.pieces ',' chars).map fun piece => strip '\'' (Text.trimChars piece)).filterMap fun value =>
    if value.isEmpty then none else some (String.ofList value)

/-- The precision of a decimal, and its scale if one is given. -/
def decimalOf? (chars : List Char) : Option DataType :=
  match (Text.pieces ',' chars).map fun piece => String.ofList (Text.trimChars piece) with
  | [precision] => do return .decimal (← Text.uint8? precision) 0
  | [precision, scale] => do return .decimal (← Text.uint8? precision) (← Text.uint8? scale)
  | _ => none

/-- A length in parentheses. -/
def lengthOf? (chars : List Char) : Option UInt32 :=
  Text.uint32? (String.ofList (Text.trimChars chars))

/-- The type of a name without arguments. -/
def ofName? (name : String) : Option DataType :=
  if name ∈ ["bool", "boolean", "bit"] then some .bool
  else if name ∈ ["tinyint"] then some .int8
  else if name ∈ ["smallint", "int2"] then some .int16
  else if name ∈ ["int", "integer", "mediumint", "int4"] then some .int32
  else if name ∈ ["bigint", "int8"] then some .int64
  else if name ∈ ["real", "float", "float4"] then some .float32
  else if name ∈ ["double", "float8", "double precision"] then some .float64
  else if name ∈ ["decimal", "numeric"] then some (.decimal 10 0)
  else if name ∈ ["text", "tinytext", "mediumtext", "longtext", "varchar"] then some .text
  else if name ∈ ["date"] then some .date
  else if name ∈ ["time"] then some .time
  else if name ∈ ["timestamp", "datetime"] then some .timestamp
  else if name ∈ ["binary", "varbinary", "blob", "mediumblob", "longblob"] then some .binary
  else if name ∈ ["json"] then some .json
  else none

/-- The name before the parentheses of a type, whose content then carries no
meaning: `int(11)` is `int`. -/
def baseName (chars : List Char) : List Char :=
  if chars.contains '(' && [')'].isSuffixOf chars then
    Text.trimChars (chars.takeWhile (· != '('))
  else chars

/-- The type of a declaration in lower case, without blanks around it. -/
def ofLower? (chars : List Char) : Option DataType :=
  match argumentOf? ["decimal", "numeric"] chars with
  | some inner => decimalOf? inner
  | none =>
      match argumentOf? ["varchar", "character varying", "nvarchar"] chars with
      | some inner => (lengthOf? inner).map .varchar
      | none =>
          match argumentOf? ["char", "nchar"] chars with
          | some inner => (lengthOf? inner).map .char
          | none => ofName? (String.ofList (baseName chars))

/-- Drop the word `unsigned` after a type. -/
def dropUnsigned (chars : List Char) : List Char :=
  (" unsigned".toList.isSuffixOf? chars).getD chars

/-- Read a declared type. Letter case does not matter, except in the values of
an enumeration. -/
def ofSql? (sql : String) : Option DataType :=
  let chars := Text.trimChars sql.toList
  if (chars.take 4).map Char.toLower = ['e', 'n', 'u', 'm'] then
    (parenthesized? (Text.trimChars (chars.drop 4))).map fun inner =>
      .enumeration (valuesOf inner)
  else
    ofLower? (Text.trimChars (dropUnsigned (chars.map Text.lowerChar)))

/-- Write a type in SQL. -/
def toSql : DataType → String
  | bool => "BIT"
  | int8 => "TINYINT"
  | int16 => "SMALLINT"
  | int32 => "INT"
  | int64 => "BIGINT"
  | float32 => "FLOAT"
  | float64 => "DOUBLE"
  | decimal precision scale =>
      "DECIMAL(" ++ toString precision.toNat ++ ", " ++ toString scale.toNat ++ ")"
  | text => "TEXT"
  | char length => "CHAR(" ++ toString length.toNat ++ ")"
  | varchar length => "VARCHAR(" ++ toString length.toNat ++ ")"
  | date => "DATE"
  | time => "TIME"
  | timestamp => "TIMESTAMP"
  | binary => "BLOB"
  | json => "JSON"
  | enumeration values =>
      "ENUM(" ++ ", ".intercalate (values.map fun value => "'" ++ value ++ "'") ++ ")"

/-- The largest number of characters, where the type bounds it. -/
def maxLength? : DataType → Option UInt32
  | char length => some length
  | varchar length => some length
  | enumeration values => (values.map String.length).max?.map UInt32.ofNat
  | _ => none

/-- Whether the type holds numbers. -/
def isNumeric : DataType → Bool
  | int8 | int16 | int32 | int64 | float32 | float64 | decimal _ _ => true
  | _ => false

/-- Whether the type holds text. -/
def isString : DataType → Bool
  | text | char _ | varchar _ | enumeration _ => true
  | _ => false

end DataType

end EntityQuery
