import RelationalAccess.Schema.Database

/-!
A registry of databases by the host type that declares them. Each is defined at
most once; a definition that fails is tried again when it is asked for again.
-/

namespace RelationalAccess

/-- The databases defined so far, by declaring type. -/
structure Registry (Model : Type) where
  loaded : List (Model × Database) := []

namespace Registry

variable {Model World : Type} [BEq Model]

def get? (registry : Registry Model) (model : Model) : Option Database :=
  registry.loaded.lookup model

def size (registry : Registry Model) : Nat := registry.loaded.length

/-- The database of a type: the one defined before, or else the one that its
definition now yields. Defining may act on the world outside. -/
def load (define : Model → StateM World (Except Error Database)) (model : Model) :
    StateM (Registry Model × World) (Except Error Database) := fun (registry, world) =>
  match registry.get? model with
  | some database => (.ok database, registry, world)
  | none =>
    match define model world with
    | (.ok database, world) => (.ok database, ⟨(model, database) :: registry.loaded⟩, world)
    | (.error error, world) => (.error error, registry, world)

end Registry

end RelationalAccess
