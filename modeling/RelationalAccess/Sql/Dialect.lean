import RelationalAccess.Schema.Database

/-!
The dialects of SQL: how names are quoted, how parameters are marked, how a
pattern's escape is stated, and how a page of rows is asked for.
-/

namespace RelationalAccess

/-- A dialect of SQL; those of MySQL and MariaDB differ in their column types alone. -/
inductive Dialect where
  | mySql
  | mariaDb
  | sqlite
  deriving DecidableEq

namespace Dialect

def engine : Dialect → Engine
  | mySql => .mySql
  | mariaDb => .mariaDb
  | sqlite => .sqlite

/-- The dialect of an engine that a database can run on. -/
def ofEngine : Engine → Except Error Dialect
  | .mySql => .ok mySql
  | .mariaDb => .ok mariaDb
  | .sqlite => .ok sqlite
  | .common => .error .noDialect

/-- The mark around quoted names. -/
def nameMark : Dialect → Char
  | sqlite => '\x22'
  | mySql | mariaDb => '\x60'

/-- A name as it stands in a statement. -/
def quote (dialect : Dialect) (name : String) : String := Quoted.encloseText dialect.nameMark name

/-- The character that marks a parameter. -/
def parameterMark : Dialect → Char
  | sqlite => '@'
  | mySql | mariaDb => '?'

/-- A parameter as it stands in a statement. -/
def parameter (dialect : Dialect) (name : String) : String :=
  String.ofList (dialect.parameterMark :: name.toList)

/-- The clause that makes the backslash the escape of a pattern. Within texts of
MySQL the backslash is an escape itself. -/
def likeEscape : Dialect → String
  | sqlite => "ESCAPE '\\'"
  | mySql | mariaDb => "ESCAPE '\\\\'"

/-- The limit that stands for none. -/
def noLimit : Dialect → String
  | sqlite => "-1"
  | mySql | mariaDb => "18446744073709551615"

/-- The clause for a page of rows. An offset needs a limit before it. -/
def page? (dialect : Dialect) (limit offset : Option Nat) : Option String :=
  match limit, offset with
  | none, none => none
  | some limit, none => some ("LIMIT " ++ Error.number limit)
  | some limit, some offset =>
    some ("LIMIT " ++ Error.number limit ++ " OFFSET " ++ Error.number offset)
  | none, some offset => some ("LIMIT " ++ dialect.noLimit ++ " OFFSET " ++ Error.number offset)

end Dialect

end RelationalAccess
