import RelationalAccess.Sql.Statement

/-!
Backends: what runs statements. A backend is known only by its answers; what it
does to the world is part of its actions.
-/

namespace RelationalAccess

/-- What a backend reports of a statement that changes rows. -/
structure Execution where
  /-- How many rows were changed. -/
  affected : Nat
  /-- The key that the engine gave to the row inserted last. -/
  insertedKey : Option Int64

/-- An action on the world that may fail, and acts on the world even then. -/
abbrev Action (World : Type) := ExceptT Error (StateM World)

/-- The actions of a backend. An open transaction is named by its handle, which
commit and rollback give back. -/
structure Backend (World : Type) where
  query : Statement → Action World (List (List Value))
  start : Action World Nat
  execute : Nat → Statement → Action World Execution
  commit : Nat → Action World Unit
  rollback : Nat → Action World Unit

end RelationalAccess
