import RelationalAccess.Schema.ColumnType
import RelationalAccess.Schema.HostType

/-!
The type of a column for an engine: the one declared for it, else a common one
carried over, else one declared for another engine carried over, else one that
follows from the host type.
-/

namespace RelationalAccess

namespace ColumnType

def wholeNames : List String :=
  ["bit", "bool", "boolean", "tinyint", "smallint", "mediumint", "int", "integer", "bigint"]

def realNames : List String := ["float", "double", "real", "decimal", "numeric"]

def textNames : List String :=
  ["char", "varchar", "text", "tinytext", "mediumtext", "longtext", "enum", "set", "json", "uuid",
    "inet4", "inet6", "datetime", "timestamp", "date", "time"]

def octetNames : List String :=
  ["binary", "varbinary", "blob", "tinyblob", "mediumblob", "longblob"]

/-- The storage class of SQLite for a type of another engine. Arguments are dropped. -/
def toSqlite? (type : ColumnType) : Option ColumnType :=
  if type.name ∈ wholeNames then some (named .sqlite "integer")
  else if type.name ∈ realNames then some (named .sqlite "real")
  else if type.name ∈ textNames then some (named .sqlite "text")
  else if type.name ∈ octetNames then some (named .sqlite "blob")
  else none

/-- The types that MySQL and MariaDB share with their arguments. -/
def sharedNames : List String :=
  ["bit", "tinyint", "smallint", "mediumint", "int", "bigint", "float", "double", "real",
    "decimal", "numeric", "char", "varchar", "text", "tinytext", "mediumtext", "longtext", "enum",
    "set", "json", "binary", "varbinary", "blob", "tinyblob", "mediumblob", "longblob",
    "datetime", "timestamp", "date", "time", "year"]

/-- The type of MySQL or MariaDB for a type of another engine. Only MariaDB has
types of its own for identifiers and addresses. -/
def toMySqlFamily? (type : ColumnType) (target : Engine) : Option ColumnType :=
  let native := target = .mariaDb
  let fromSqlite := type.engine = .sqlite
  if type.name = "uuid" then
    some (if native then named target "uuid" else (named target "binary").withLength 16)
  else if type.name = "inet6" then
    some (if native then named target "inet6" else (named target "varchar").withLength 39)
  else if type.name = "inet4" then
    some (if native then named target "inet4" else (named target "varchar").withLength 15)
  else if type.name = "bool" ∨ type.name = "boolean" then
    some ((named target "bit").withLength 1)
  else if type.name = "integer" then
    some (if fromSqlite then named target "bigint"
      else { type.forEngine target with name := "int" })
  else if type.name = "real" ∧ fromSqlite then some (named target "double")
  else if type.name ∈ sharedNames then some (type.forEngine target)
  else none

/-- A type declared for one engine, carried over to another. -/
def carryOver? (type : ColumnType) (target : Engine) : Option ColumnType :=
  if type.engine = target then some type
  else
    match target with
    | .sqlite => type.toSqlite?
    | .mySql | .mariaDb => type.toMySqlFamily? target
    | .common => none

/-- The type that follows from a host type for SQLite. -/
def inferSqliteName? : HostType → Option String
  | .bool | .int16 | .int32 | .int64 => some "integer"
  | .float32 | .float64 => some "real"
  | .bytes => some "blob"
  | .string | .uuid | .dateTime | .date | .address | .labelled _ => some "text"
  | .other _ => none

/-- The type that follows from a host type for MySQL or MariaDB. -/
def inferMySqlFamily? (host : HostType) (target : Engine) : Option ColumnType :=
  let native := target = .mariaDb
  match host with
  | .bool => some ((named target "bit").withLength 1)
  | .int16 => some (named target "smallint")
  | .int32 => some (named target "int")
  | .int64 => some (named target "bigint")
  | .float32 => some (named target "float")
  | .float64 => some (named target "double")
  | .string => some ((named target "varchar").withLength 255)
  | .bytes => some (named target "blob")
  | .uuid => some (if native then named target "uuid" else (named target "binary").withLength 16)
  | .dateTime => some (named target "datetime")
  | .date => some (named target "date")
  | .address =>
    some (if native then named target "inet6" else (named target "varchar").withLength 39)
  | .labelled labels => some { named target "enum" with labels }
  | .other _ => none

/-- The type that follows from a host type. -/
def infer? (host : HostType) (target : Engine) : Option ColumnType :=
  match target with
  | .sqlite => (inferSqliteName? host).map (named .sqlite)
  | .mySql | .mariaDb => inferMySqlFamily? host target
  | .common => none

/-- The type declared for exactly this engine, the first of several. -/
def declaredFor? (declared : List ColumnType) (engine : Engine) : Option ColumnType :=
  declared.find? (·.engine == engine)

/-- The type of a column for an engine, if there is any. -/
def resolve? (declared : List ColumnType) (host : HostType) (target : Engine) : Option ColumnType :=
  declaredFor? declared target <|>
    ((declaredFor? declared .common).bind (·.carryOver? target)) <|>
    (Engine.concrete.findSome? fun source => (declaredFor? declared source).bind (·.carryOver? target)) <|>
    infer? host target

end ColumnType

end RelationalAccess
