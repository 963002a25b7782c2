/-!
# Tokens — keywords

The reserved words.  The words for column types may also name tables, columns and aliases.
-/

namespace SqlEngine

inductive Keyword
  | select | fromWord | whereWord | insert | into | values | update | set | delete | create
  | table | join | inner | left | right | outer | full | onWord | and | or | asWord | order
  | group | byWord | asc | desc | distinct | null | trueWord | falseWord | limit | textWord | int
  | integer | number | date | datetime | bool | boolean
deriving DecidableEq, Repr

namespace Keyword

/-- The word in capitals. -/
def text : Keyword → String
  | .select    => "SELECT"
  | .fromWord  => "FROM"
  | .whereWord => "WHERE"
  | .insert    => "INSERT"
  | .into      => "INTO"
  | .values    => "VALUES"
  | .update    => "UPDATE"
  | .set       => "SET"
  | .delete    => "DELETE"
  | .create    => "CREATE"
  | .table     => "TABLE"
  | .join      => "JOIN"
  | .inner     => "INNER"
  | .left      => "LEFT"
  | .right     => "RIGHT"
  | .outer     => "OUTER"
  | .full      => "FULL"
  | .onWord    => "ON"
  | .and       => "AND"
  | .or        => "OR"
  | .asWord    => "AS"
  | .order     => "ORDER"
  | .group     => "GROUP"
  | .byWord    => "BY"
  | .asc       => "ASC"
  | .desc      => "DESC"
  | .distinct  => "DISTINCT"
  | .null      => "NULL"
  | .trueWord  => "TRUE"
  | .falseWord => "FALSE"
  | .limit     => "LIMIT"
  | .textWord  => "TEXT"
  | .int       => "INT"
  | .integer   => "INTEGER"
  | .number    => "NUMBER"
  | .date      => "DATE"
  | .datetime  => "DATETIME"
  | .bool      => "BOOL"
  | .boolean   => "BOOLEAN"

/-- Every keyword. -/
def all : List Keyword :=
  [.select, .fromWord, .whereWord, .insert, .into, .values, .update, .set, .delete, .create,
   .table, .join, .inner, .left, .right, .outer, .full, .onWord, .and, .or, .asWord, .order,
   .group, .byWord, .asc, .desc, .distinct, .null, .trueWord, .falseWord, .limit, .textWord,
   .int, .integer, .number, .date, .datetime, .bool, .boolean]

/-- The keyword a word is, in any case of letters. -/
def ofWord? (word : List Char) : Option Keyword :=
  let capitals := String.ofList (word.map Char.toUpper)
  all.find? fun k => k.text == capitals

/-- The word names a column type. -/
def isType : Keyword → Bool
  | .textWord | .int | .integer | .number | .date | .datetime | .bool | .boolean => true
  | _                                                                        => false

/-- A type word read as a name is in small letters. -/
def asName (k : Keyword) : String :=
  String.ofList (k.text.toList.map Char.toLower)

theorem mem_all (k : Keyword) : k ∈ all := by
  cases k <;> decide

end Keyword

end SqlEngine
