/-!
The database engines that a schema is declared for.
-/

namespace RelationalAccess

/-- The engine that a type is declared for; `common` stands for a declaration
that is not for one engine. -/
inductive Engine where
  | common
  | mySql
  | mariaDb
  | sqlite
  deriving DecidableEq

namespace Engine

def name : Engine → String
  | common => "Default"
  | mySql => "MySQL"
  | mariaDb => "MariaDB"
  | sqlite => "SQLite"

/-- The engines a database can run on, in the order in which a type declared for
another of them is looked for. -/
def concrete : List Engine := [mariaDb, mySql, sqlite]

def isMySqlFamily : Engine → Bool
  | mySql | mariaDb => true
  | common | sqlite => false

end Engine

end RelationalAccess
