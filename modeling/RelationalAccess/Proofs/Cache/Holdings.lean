import RelationalAccess.Cache.Database
import RelationalAccess.Proofs.Cache.Accounts

/-!
The cached rows of all tables together: how many they are and how large, and what is left
of them when one row is evicted, or all that were stored before a time.
-/

namespace RelationalAccess

/-- A cached row, with the position of its table. -/
structure HeldRow where
  table : Nat
  keys : Keys
  entry : RowEntry

namespace HeldRow

def storedAt (row : HeldRow) : Nat := row.entry.storedAt

def size (row : HeldRow) : Nat := row.entry.row.size

def evictable (row : HeldRow) : Evictable :=
  { table := row.table, keys := row.keys, storedAt := row.storedAt, size := row.size }

end HeldRow

namespace TableCache

/-- The rows of the cache of a table at a position. -/
def heldAt (table : TableCache) (position : Nat) : List HeldRow :=
  table.rows.list.map fun (keys, entry) => ⟨position, keys, entry⟩

/-- The rows of the caches of tables that begin at a position. -/
def heldFrom (first : Nat) (tables : List TableCache) : List HeldRow :=
  (tables.zipIdx first).flatMap fun (table, position) => table.heldAt position

@[simp] theorem heldFrom_cons (first : Nat) (table : TableCache) (tables : List TableCache) :
    heldFrom first (table :: tables) = table.heldAt first ++ heldFrom (first + 1) tables := by
  simp [heldFrom, List.zipIdx_cons]

theorem heldFrom_split (first : Nat) (before : List TableCache) (table : TableCache)
    (after : List TableCache) :
    heldFrom first (before ++ table :: after) =
      heldFrom first before ++
        (table.heldAt (first + before.length) ++ heldFrom (first + before.length + 1) after) := by
  simp [heldFrom, List.zipIdx_append, List.zipIdx_cons]

/-- A held row is in the cache of the table at its position. -/
theorem exists_of_mem_heldFrom {first : Nat} {tables : List TableCache} {row : HeldRow}
    (membership : row ∈ heldFrom first tables) :
    ∃ before table after, tables = before ++ table :: after ∧ row.table = first + before.length ∧
      table.rows.get? row.keys = some row.entry := by
  induction tables generalizing first with
  | nil => cases membership
  | cons head tables inductionHypothesis =>
    rw [heldFrom_cons, List.mem_append] at membership
    rcases membership with here | later
    · obtain ⟨⟨keys, entry⟩, isThere, rfl⟩ := List.mem_map.mp here
      exact ⟨[], head, tables, rfl, rfl, head.rows.get?_eq_some_iff.mpr isThere⟩
    · obtain ⟨before, table, after, split, position, found⟩ := inductionHypothesis later
      refine ⟨head :: before, table, after, by rw [split]; rfl, ?_, found⟩
      rw [position, List.length_cons]
      omega

/-- Where a change keeps of each table only some entries, so it does of all tables. -/
theorem heldFrom_map (change : TableCache → TableCache) (stays : RowEntry → Bool)
    (filters : ∀ table : TableCache,
      (change table).rows.list = table.rows.list.filter fun entry => stays entry.2)
    (first : Nat) (tables : List TableCache) :
    heldFrom first (tables.map change) =
      (heldFrom first tables).filter fun row => stays row.entry := by
  induction tables generalizing first with
  | nil => rfl
  | cons table tables inductionHypothesis =>
    have here : (change table).heldAt first =
        (table.heldAt first).filter fun row => stays row.entry := by
      rw [heldAt, filters, heldAt, List.filter_map]
      rfl
    rw [List.map_cons, heldFrom_cons, heldFrom_cons, List.filter_append, here, inductionHypothesis]

/-- The rows that stay are those under none of the keys that are taken out. -/
theorem removeRows_list (cache : TableCache) (removed : List Keys) :
    (removed.foldl removeRow cache).rows.list =
      cache.rows.list.filter fun entry => decide (entry.1 ∉ removed) := by
  induction removed generalizing cache with
  | nil => simp
  | cons keys removed inductionHypothesis =>
    have first : (cache.removeRow keys).rows.list =
        cache.rows.list.filter fun entry => decide (entry.1 ≠ keys) := by
      cases found : cache.peek? keys with
      | none =>
        have absent : cache.rows.get? keys = none := Option.map_eq_none_iff.mp found
        rw [removeRow_of_absent found]
        exact (cache.rows.erase_of_absent absent).symm
      | some row =>
        rw [removeRow_of_found found]
        rfl
    rw [List.foldl_cons, inductionHypothesis, first, List.filter_filter]
    refine List.filter_congr fun entry _ => ?_
    by_cases same : entry.1 = keys <;> simp [same]

theorem mem_staleKeys_iff {cache : TableCache} (cutoff : Nat) {keys : Keys} {entry : RowEntry}
    (isThere : (keys, entry) ∈ cache.rows.list) :
    keys ∈ cache.staleKeys cutoff ↔ entry.storedAt < cutoff := by
  constructor
  · intro isStale
    obtain ⟨⟨_, other⟩, filtered, rfl⟩ := List.mem_map.mp isStale
    obtain ⟨isOther, older⟩ := List.mem_filter.mp filtered
    have same := (cache.rows.get?_eq_some_iff.mpr isThere).symm.trans
      (cache.rows.get?_eq_some_iff.mpr isOther)
    cases same
    exact of_decide_eq_true older
  · intro older
    exact List.mem_map.mpr ⟨_, List.mem_filter.mpr ⟨isThere, decide_eq_true older⟩, rfl⟩

/-- An eviction by age keeps what was stored at the time or later. -/
theorem evictBefore_list (cache : TableCache) (cutoff : Nat) :
    (cache.evictBefore cutoff).2.rows.list =
      cache.rows.list.filter fun entry => decide (cutoff ≤ entry.2.storedAt) := by
  have removed := cache.removeRows_list (cache.staleKeys cutoff)
  refine Eq.trans removed (List.filter_congr fun entry isThere => ?_)
  have isStale := mem_staleKeys_iff cutoff isThere
  apply decide_eq_decide.mpr
  rw [isStale, Nat.not_lt]

end TableCache

namespace DatabaseCache

/-- The cached rows of all tables. -/
def held (cache : DatabaseCache) : List HeldRow := TableCache.heldFrom 0 cache.tables

/-- The counters of every table are true. -/
def Counted (cache : DatabaseCache) : Prop := ∀ table ∈ cache.tables, table.Counted

theorem held_eq_nil {cache : DatabaseCache} (nothing : ∀ table ∈ cache.tables, table.rows.list = []) :
    cache.held = [] := by
  apply List.eq_nil_iff_forall_not_mem.mpr
  intro row isHeld
  obtain ⟨before, table, after, split, _, found⟩ := TableCache.exists_of_mem_heldFrom isHeld
  have none := nothing table (by simp [split])
  have isThere := table.rows.get?_eq_some_iff.mp found
  rw [none] at isThere
  cases isThere

theorem candidates_eq (cache : DatabaseCache) :
    cache.candidates = cache.held.map HeldRow.evictable := by
  simp only [candidates, held, TableCache.heldFrom, List.map_flatMap, TableCache.heldAt,
    List.map_map]
  rfl

theorem totalRows_eq (cache : DatabaseCache) : cache.totalRows = cache.held.length := by
  have each (first : Nat) (tables : List TableCache) :
      (tables.map TableCache.size).sum = (TableCache.heldFrom first tables).length := by
    induction tables generalizing first with
    | nil => rfl
    | cons table tables inductionHypothesis =>
      rw [List.map_cons, List.sum_cons, inductionHypothesis (first + 1), TableCache.heldFrom_cons,
        List.length_append, TableCache.heldAt, List.length_map]
      rfl
  rw [totalRows, ← List.sum_eq_foldl]
  exact each 0 cache.tables

theorem totalBytes_eq {cache : DatabaseCache} (counted : cache.Counted) :
    cache.totalBytes = (cache.held.map HeldRow.size).sum := by
  have each (first : Nat) (tables : List TableCache) (all : ∀ table ∈ tables, table.Counted) :
      (tables.map TableCache.bytes).sum =
        ((TableCache.heldFrom first tables).map HeldRow.size).sum := by
    induction tables generalizing first with
    | nil => rfl
    | cons table tables inductionHypothesis =>
      obtain ⟨here, later⟩ := List.forall_mem_cons.mp all
      rw [List.map_cons, List.sum_cons, inductionHypothesis (first + 1) later,
        TableCache.heldFrom_cons, List.map_append, List.sum_append, here.bytes, TableCache.heldAt,
        List.map_map]
      rfl
  rw [totalBytes, ← List.sum_eq_foldl]
  exact each 0 cache.tables counted

section

variable {cache : DatabaseCache} {row : HeldRow}

/-- Where a held row is, and what its eviction leaves there. -/
private theorem exists_table_of_held (isHeld : row ∈ cache.held) :
    ∃ before table after, cache.tables = before ++ table :: after ∧ row.table = before.length ∧
      table.rows.get? row.keys = some row.entry ∧
      (cache.evict row.evictable).tables = before ++ table.removeRow row.keys :: after := by
  obtain ⟨before, table, after, split, position, found⟩ := TableCache.exists_of_mem_heldFrom isHeld
  rw [Nat.zero_add] at position
  refine ⟨before, table, after, split, position, found, ?_⟩
  show cache.tables.modify row.table _ = _
  rw [split, position, List.modify_eq_take_cons_drop (by simp)]
  simp [HeldRow.evictable]

/-- An evicted row is all that goes. -/
theorem perm_evict (isHeld : row ∈ cache.held) :
    cache.held.Perm (row :: (cache.evict row.evictable).held) := by
  obtain ⟨before, table, after, split, position, found, left⟩ := exists_table_of_held isHeld
  have cached : table.peek? row.keys = some row.entry.row := by rw [TableCache.peek?, found]; rfl
  have here : (table.heldAt row.table).Perm
      (row :: (table.removeRow row.keys).heldAt row.table) := by
    rw [TableCache.removeRow_of_found cached]
    exact (table.rows.perm_cons_erase found).map _
  rw [held, split, held, left, TableCache.heldFrom_split, TableCache.heldFrom_split,
    Nat.zero_add, ← position]
  exact ((here.append_right _).append_left _).trans List.perm_middle

theorem Counted.evict (counted : cache.Counted) (isHeld : row ∈ cache.held) :
    (cache.evict row.evictable).Counted := by
  obtain ⟨before, table, after, split, _, _, left⟩ := exists_table_of_held isHeld
  rw [Counted, split] at counted
  rw [Counted, left]
  exact forall_mem_exchange counted fun here =>
    TableCache.Adjusted.counted (here.removeRow row.keys) here

end

end DatabaseCache

end RelationalAccess
