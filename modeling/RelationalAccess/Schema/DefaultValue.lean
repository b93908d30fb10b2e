import RelationalAccess.Value

/-!
The values that an insert gives to columns left unset.
-/

namespace RelationalAccess

/-- What is put into a column that an insert leaves unset. -/
inductive DefaultValue where
  | static (value : Value)
  | currentTimestamp
  | randomUuid
  | timedUuid
  deriving DecidableEq

/-- What clock and chance give when a default is needed. -/
structure Ambient where
  now : Moment
  entropy : Nat

/-- What clock and chance give to the columns of a row, each by its position. Every default has
a draw of its own. -/
structure Supply where
  draw : Nat → Ambient

/-- The same draw for all columns. -/
def Supply.steady (ambient : Ambient) : Supply := { draw := fun _ => ambient }

instance : Coe Ambient Supply := ⟨.steady⟩

/-- The value of a default at the given time and chance. -/
def DefaultValue.resolve (ambient : Ambient) : DefaultValue → Value
  | static value => value
  | currentTimestamp => .dateTime ambient.now
  | randomUuid => .uuid (Uuid.random ambient.entropy)
  | timedUuid =>
    .uuid (Uuid.timed (ambient.now.seconds * 1000 + ambient.now.nanoseconds / 1000000).toNat
      ambient.entropy)

end RelationalAccess
