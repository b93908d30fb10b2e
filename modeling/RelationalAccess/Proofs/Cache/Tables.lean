import RelationalAccess.Cache.Database

/-!
What is cached in the caches of a database's tables, by the position of a table and
the keys of a row.
-/

namespace RelationalAccess

namespace DatabaseCache

/-- The row cached under some keys of the table at a position. -/
def cached? (cache : DatabaseCache) (position : Nat) (keys : Keys) : Option Row :=
  (cache.table? position).bind (·.peek? keys)

/-- Whether rows of the table at a position are cached at all. -/
def caches (cache : DatabaseCache) (position : Nat) : Bool :=
  (cache.table? position).any TableCache.enabled

/-- Where rows are not cached at all, none is. -/
def Tidy (cache : DatabaseCache) : Prop :=
  ∀ position keys row, cache.cached? position keys = some row → cache.caches position = true

theorem table?_new {database : Database} {position : Nat} {table : Table}
    (found : database.tables[position]? = some table) :
    (DatabaseCache.new database).table? position = some (TableCache.new table database.settings) := by
  rw [table?, DatabaseCache.new, List.getElem?_map, found]
  rfl

section

variable {cache : DatabaseCache} {position : Nat} {table : TableCache}

theorem Tidy.cached?_eq_none (tidy : cache.Tidy) (off : cache.caches position ≠ true) (keys : Keys) :
    cache.cached? position keys = none :=
  Option.eq_none_iff_forall_ne_some.mpr fun row isThere => off (tidy position keys row isThere)

theorem table?_setTable (found : cache.table? position = some table) (replaced : TableCache)
    (other : Nat) :
    (cache.setTable position replaced).table? other =
      if other = position then some replaced
      else (cache.table? other).map fun table => { table with clock := replaced.clock } := by
  obtain ⟨stored, wasThere, _⟩ := Option.map_eq_some_iff.mp found
  have inside := (List.getElem?_eq_some_iff.mp wasThere).1
  by_cases same : other = position
  · subst same
    simp [setTable, table?, inside]
  · have apart : position ≠ other := Ne.symm same
    rw [if_neg same]
    show ((cache.tables.set position replaced)[other]?.map _) = _
    rw [List.getElem?_set_ne apart, table?, Option.map_map]
    rfl

theorem cached?_setTable (found : cache.table? position = some table) (replaced : TableCache)
    (other : Nat) (keys : Keys) :
    (cache.setTable position replaced).cached? other keys =
      if other = position then replaced.peek? keys else cache.cached? other keys := by
  rw [cached?, table?_setTable found]
  split
  · rfl
  · rw [cached?, Option.bind_map]
    rfl

theorem caches_setTable (found : cache.table? position = some table) {replaced : TableCache}
    (enabled : replaced.enabled = table.enabled) (other : Nat) :
    (cache.setTable position replaced).caches other = cache.caches other := by
  rw [caches, table?_setTable found]
  split
  · next same =>
    rw [caches, same, found]
    exact enabled
  · rw [caches]
    cases cache.table? other <;> rfl

end

end DatabaseCache

end RelationalAccess
