import RelationalAccess.Proofs.Cache.Rows
import RelationalAccess.Proofs.Cache.Upkeep

/-!
Reads through a cache only add rows to it, and only rows that a source has
returned. The source may fail, and the read with it.
-/

namespace RelationalAccess

namespace TableCache

/-- A cache comes from another by the addition of good rows. -/
structure Extends (good : Row → Prop) (origin cache : TableCache) : Prop where
  table : cache.table = origin.table
  enabled : cache.enabled = origin.enabled
  kept : ∀ keys row, origin.peek? keys = some row → cache.peek? keys = some row
  added : ∀ keys row, cache.peek? keys = some row → origin.peek? keys = some row ∨
    (origin.peek? keys = none ∧ cache.enabled = true ∧ row.keys = keys ∧ good row)

namespace Extends

variable {good : Row → Prop} {origin cache : TableCache}

theorem refl (good : Row → Prop) (origin : TableCache) : origin.Extends good origin :=
  ⟨rfl, rfl, fun _ _ cached => cached, fun _ _ cached => .inl cached⟩

theorem sameRows (holds : origin.Extends good cache) {other : TableCache}
    (table : other.table = cache.table) (enabled : other.enabled = cache.enabled)
    (rows : other.rows = cache.rows) : origin.Extends good other := by
  have same (keys : Keys) : other.peek? keys = cache.peek? keys := by rw [peek?, rows, peek?]
  refine ⟨table.trans holds.table, enabled.trans holds.enabled, fun keys row cached => ?_,
    fun keys row cached => ?_⟩
  · exact (same keys).trans (holds.kept keys row cached)
  · rw [enabled]
    exact holds.added keys row ((same keys).symm.trans cached)

theorem insertRows (holds : origin.Extends good cache) {rows : List Row} (areGood : ∀ row ∈ rows, good row) :
    origin.Extends good (cache.insertRows rows).2 := by
  have same := cache.insertRows_sameButRows rows
  cases enabled : cache.enabled with
  | false =>
    rw [insertRows_of_disabled enabled]
    exact holds
  | true =>
    have looked (keys : Keys) := peek?_insertRows enabled rows keys
    refine ⟨same.table.trans holds.table, same.enabled.trans holds.enabled, fun keys row cached => ?_,
      fun keys row cached => ?_⟩
    · rw [looked, holds.kept keys row cached]
      rfl
    · rw [same.enabled]
      rw [looked, Option.or_eq_some_iff] at cached
      rcases cached with before | ⟨absent, inserted⟩
      · exact holds.added keys row before
      · right
        refine ⟨?_, enabled, ?_, areGood row (List.mem_of_find?_eq_some inserted)⟩
        · refine Option.eq_none_iff_forall_ne_some.mpr fun other present => ?_
          rw [holds.kept keys other present] at absent
          cases absent
        · simpa using List.find?_some inserted

theorem storeRead (holds : origin.Extends good cache) (generation : Nat) {rows : List Row}
    (areGood : ∀ row ∈ rows, good row) : origin.Extends good (cache.storeRead generation rows).2 := by
  unfold TableCache.storeRead
  split
  · exact holds.insertRows areGood
  · exact holds

theorem storeReadKeys (holds : origin.Extends good cache) (generation column : Nat) (value : Value)
    (keys : List Keys) :
    origin.Extends good (cache.storeReadKeys generation column value keys).2 := by
  unfold TableCache.storeReadKeys
  split
  · exact holds
  · split
    · exact holds.sameRows rfl rfl rfl
    · exact holds

theorem replaceKeys (holds : origin.Extends good cache) (generation column : Nat) (value : Value)
    (keys : List Keys) : origin.Extends good (cache.replaceKeys generation column value keys) := by
  unfold TableCache.replaceKeys
  split
  · exact holds.sameRows rfl rfl rfl
  · exact holds

end Extends

/-- Reads extend a cache by good rows, whatever the keys that they find. -/
theorem extends_upheld (good : Row → Prop) (origin : TableCache) :
    Upheld (origin.Extends good) good fun _ _ _ => True where
  count _ _ _ extended := extended.sameRows rfl rfl rfl
  storeRead _ generation _ extended := extended.storeRead generation
  storeReadKeys _ _ _ _ _ extended _ _ := extended.storeReadKeys _ _ _ _
  replaceKeys _ _ _ _ _ extended _ _ := extended.replaceKeys _ _ _ _
  returned _ _ _ _ _ _ _ := trivial

/-- What reads through a cache preserve: it extends the one from before them. -/
abbrev Grown {World : Type} (origin : TableCache) (steady : World → Prop) (good : Row → Prop)
    (state : TableCache × World) : Prop :=
  Holding (origin.Extends good) steady state

end TableCache

/-- A source that may fail, and that leaves the cache alone and the world steady then too.
Where it does not fail it returns good rows. -/
abbrev RowSource.Steady {World : Type} (source : RowSource World) (steady : World → Prop)
    (good : Row → Prop) : Prop :=
  source.Supplies steady good (fun _ _ _ => True) fun condition => TableCache.Holding condition steady

end RelationalAccess
