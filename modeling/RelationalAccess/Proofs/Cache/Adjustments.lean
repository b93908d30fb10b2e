import Mathlib.Logic.Relation
import RelationalAccess.Proofs.Cache.Buckets
import RelationalAccess.Proofs.Cache.Totals

/-!
The counters of a cache, and the single changes that everything done to a cache consists
of. A change takes off a counter only what was counted before, so that no count is ever
cut off at nothing, and where the counters are true they stay true.
-/

namespace RelationalAccess

namespace IndexCache

/-- The keys that the buckets have together. -/
def heldKeys (index : IndexCache) : Nat := index.buckets.total fun bucket => bucket.keys.length

/-- How many keys the bucket of a value has. -/
def keysAt (index : IndexCache) (value : Value) : Nat :=
  index.buckets.weightAt (fun bucket => bucket.keys.length) value

/-- The keys of a value put in place of those it had, before anything is trimmed. -/
def stored (index : IndexCache) (now : Nat) (value : Value) (keys : List Keys) : IndexCache :=
  { index with
    buckets := index.buckets.put value ⟨keys, now⟩
    keyCount := index.keyCount - index.keysAt value + keys.length }

/-- A single change of the buckets and the key count. The keys that are taken off the count
are no more than it has. -/
inductive Adjusts : IndexCache → IndexCache → Prop where
  | store {index : IndexCache} (now : Nat) {value : Value} (keys : List Keys)
      (covered : index.keysAt value ≤ index.keyCount) : Adjusts index (index.stored now value keys)
  | take {index : IndexCache} {value : Value} {bucket : Bucket}
      (found : index.buckets.get? value = some bucket)
      (covered : bucket.keys.length ≤ index.keyCount) : Adjusts index (index.remove value)

/-- An index cache comes from another by single changes, one after another. -/
abbrev Adjusted (origin index : IndexCache) : Prop := Relation.ReflTransGen Adjusts origin index

/-- The key count is the number of keys in the buckets. -/
def Counted (index : IndexCache) : Prop := index.keyCount = index.heldKeys

theorem remove_of_found {index : IndexCache} {value : Value} {bucket : Bucket}
    (found : index.buckets.get? value = some bucket) :
    index.remove value =
      { index with
        buckets := index.buckets.erase value
        keyCount := index.keyCount - bucket.keys.length } := by
  simp only [remove, found]

theorem remove_of_absent {index : IndexCache} {value : Value}
    (absent : index.buckets.get? value = none) : index.remove value = index := by
  simp only [remove, absent]

theorem replace_eq (index : IndexCache) (now : Nat) (value : Value) (keys : List Keys) :
    index.replace now value keys = (index.stored now value keys).trim := by
  unfold replace stored keysAt Entries.weightAt
  cases index.buckets.get? value with
  | none => rfl
  | some bucket => rfl

theorem Adjusts.counted {index other : IndexCache} (adjusts : index.Adjusts other)
    (counted : index.Counted) : other.Counted := by
  cases adjusts with
  | @store now value keys covered =>
    have total := index.buckets.total_put (fun bucket => bucket.keys.length) value ⟨keys, now⟩
    unfold Counted at counted ⊢
    unfold stored heldKeys keysAt at *
    dsimp only at total covered ⊢
    omega
  | @take value bucket found covered =>
    have total := index.buckets.total_erase (fun bucket => bucket.keys.length) value
    rw [Entries.weightAt_eq _ found] at total
    rw [remove_of_found found]
    unfold Counted heldKeys at *
    dsimp only
    omega

theorem Adjusted.counted {origin index : IndexCache} (adjusted : origin.Adjusted index)
    (counted : origin.Counted) : index.Counted := by
  induction adjusted with
  | refl => exact counted
  | tail _ adjusts inductionHypothesis => exact adjusts.counted inductionHypothesis

namespace Counted

variable {index : IndexCache}

theorem covers (counted : index.Counted) (value : Value) : index.keysAt value ≤ index.keyCount := by
  rw [counted]
  exact index.buckets.weightAt_le_total _ value

theorem remove (counted : index.Counted) (value : Value) : index.Adjusted (index.remove value) := by
  cases found : index.buckets.get? value with
  | none =>
    rw [remove_of_absent found]
  | some bucket =>
    have covered := counted.covers value
    rw [keysAt, Entries.weightAt_eq _ found] at covered
    exact .single (.take found covered)

theorem removeAll (counted : index.Counted) (values : List Value) :
    index.Adjusted (values.foldl IndexCache.remove index) := by
  induction values generalizing index with
  | nil => exact .refl
  | cons value values inductionHypothesis =>
    have first := counted.remove value
    exact first.trans (inductionHypothesis (first.counted counted))

theorem trimInOrder (counted : index.Counted) (most : Nat) (values : List Value) :
    index.Adjusted (index.trimInOrder most values) := by
  induction values generalizing index with
  | nil => exact .refl
  | cons oldest others inductionHypothesis =>
    unfold IndexCache.trimInOrder
    split
    · exact .refl
    · have first := counted.remove oldest
      exact first.trans (inductionHypothesis (first.counted counted))

theorem trim (counted : index.Counted) : index.Adjusted index.trim := by
  unfold IndexCache.trim
  split
  · exact .refl
  · exact counted.trimInOrder _ _

theorem replace (counted : index.Counted) (now : Nat) (value : Value) (keys : List Keys) :
    index.Adjusted (index.replace now value keys) := by
  have stores : index.Adjusts (index.stored now value keys) := .store now keys (counted.covers value)
  rw [replace_eq]
  exact (Counted.trim (stores.counted counted)).head stores

theorem insert (counted : index.Counted) (now : Nat) (value : Value) (keys : List Keys) :
    index.Adjusted (index.insert now value keys).2 := by
  unfold IndexCache.insert
  split
  · exact .refl
  · exact counted.replace now value keys

theorem evictBefore (counted : index.Counted) (cutoff : Nat) :
    index.Adjusted (index.evictBefore cutoff).2 :=
  counted.removeAll _

end Counted

end IndexCache

namespace TableCache

/-- The octets of the cached rows together. -/
def heldBytes (cache : TableCache) : Nat := cache.rows.total fun entry => entry.row.size

/-- The octets of the row under some keys. -/
def bytesAt (cache : TableCache) (keys : Keys) : Nat :=
  cache.rows.weightAt (fun entry => entry.row.size) keys

/-- A single change of a cache. The octets and the keys that are taken off a counter are no
more than it has. -/
inductive Adjusts : TableCache → TableCache → Prop where
  /-- Nothing that is counted changes. -/
  | aside {cache other : TableCache} (enabled : other.enabled = cache.enabled)
      (rows : other.rows = cache.rows) (bytes : other.bytes = cache.bytes)
      (indices : other.indices = cache.indices) (clock : cache.clock ≤ other.clock) :
    Adjusts cache other
  | storeRow {cache : TableCache} (row : Row) (enabled : cache.enabled = true)
      (covered : cache.bytesAt row.keys ≤ cache.bytes) : Adjusts cache (cache.replaceRow row)
  | takeRow {cache : TableCache} {keys : Keys} {row : Row} (found : cache.peek? keys = some row)
      (covered : row.size ≤ cache.bytes) : Adjusts cache (cache.removeRow keys)
  | index {cache : TableCache} {before after : List IndexCache} {index other : IndexCache}
      (split : cache.indices = before ++ index :: after) (adjusts : index.Adjusts other) :
    Adjusts cache { cache with indices := before ++ other :: after }
  /-- Everything goes, and nothing is counted any more. -/
  | clear (cache : TableCache) : Adjusts cache cache.clear

/-- A cache comes from another by single changes, one after another. -/
abbrev Adjusted (origin cache : TableCache) : Prop := Relation.ReflTransGen Adjusts origin cache

/-- The counters are true, every row is under its own keys, and a cache that is not enabled
has nothing. -/
structure Counted (cache : TableCache) : Prop where
  bytes : cache.bytes = cache.heldBytes
  keyed : cache.RowsKeyed
  keys : ∀ index ∈ cache.indices, index.Counted
  idle : cache.enabled = false → cache.rows.list = [] ∧ cache.indices = []

/-- Whether the counters are true depends on nothing but what they count. -/
theorem Counted.of_same {cache other : TableCache} (counted : cache.Counted)
    (enabled : other.enabled = cache.enabled) (rows : other.rows = cache.rows)
    (bytes : other.bytes = cache.bytes) (indices : other.indices = cache.indices) :
    other.Counted where
  bytes := by rw [bytes, counted.bytes, heldBytes, heldBytes, rows]
  keyed keys row found := by
    rw [peek?, rows] at found
    exact counted.keyed keys row found
  keys := by
    rw [indices]
    exact counted.keys
  idle := by
    rw [enabled, rows, indices]
    exact counted.idle

theorem Counted.of_index? {cache : TableCache} (counted : cache.Counted) {column : Nat}
    {index : IndexCache} (found : cache.index? column = some index) : index.Counted :=
  counted.keys index (List.mem_of_find?_eq_some found)

theorem replaceRow_of_enabled {cache : TableCache} (enabled : cache.enabled = true) (row : Row) :
    cache.replaceRow row =
      { cache with
        rows := cache.rows.put row.keys ⟨row, cache.clock⟩
        bytes := cache.bytes - cache.bytesAt row.keys + row.size
        clock := cache.clock + 1 } := by
  unfold replaceRow bytesAt Entries.weightAt peek?
  rw [if_pos enabled]
  cases cache.rows.get? row.keys with
  | none => rfl
  | some entry => rfl

theorem bytesAt_eq {cache : TableCache} {keys : Keys} {row : Row}
    (found : cache.peek? keys = some row) : cache.bytesAt keys = row.size := by
  obtain ⟨entry, isThere, rfl⟩ := Option.map_eq_some_iff.mp found
  exact cache.rows.weightAt_eq isThere

theorem removeRow_of_found {cache : TableCache} {keys : Keys} {row : Row}
    (found : cache.peek? keys = some row) :
    cache.removeRow keys =
      { cache with rows := cache.rows.erase keys, bytes := cache.bytes - row.size } := by
  simp only [removeRow, found]

theorem removeRow_of_absent {cache : TableCache} {keys : Keys} (absent : cache.peek? keys = none) :
    cache.removeRow keys = cache := by
  simp only [removeRow, absent]

section

variable {cache : TableCache} (counted : cache.Counted)

include counted

private theorem counted_storeRow {row : Row} (enabled : cache.enabled = true)
    (covered : cache.bytesAt row.keys ≤ cache.bytes) : (cache.replaceRow row).Counted where
  bytes := by
    have total := cache.rows.total_put (fun entry => entry.row.size) row.keys ⟨row, cache.clock⟩
    have bytes := counted.bytes
    rw [replaceRow_of_enabled enabled]
    unfold heldBytes bytesAt at *
    dsimp only at total ⊢
    omega
  keyed := counted.keyed.replaceRow row
  keys := by
    rw [(cache.replaceRow_sameButRows row).indices]
    exact counted.keys
  idle disabled := by
    rw [(cache.replaceRow_sameButRows row).enabled, enabled] at disabled
    cases disabled

private theorem counted_takeRow {keys : Keys} {row : Row} (found : cache.peek? keys = some row) :
    (cache.removeRow keys).Counted where
  bytes := by
    have total := cache.rows.total_erase (fun entry => entry.row.size) keys
    have isThere := bytesAt_eq found
    have bytes := counted.bytes
    rw [removeRow_of_found found]
    unfold heldBytes bytesAt at *
    dsimp only at total ⊢
    omega
  keyed := counted.keyed.removeRow keys
  keys := by
    rw [(cache.removeRow_sameButRows keys).indices]
    exact counted.keys
  idle disabled := by
    rw [(cache.removeRow_sameButRows keys).enabled] at disabled
    obtain ⟨noRows, noIndices⟩ := counted.idle disabled
    rw [removeRow_of_found found]
    exact ⟨by simp [Entries.erase, noRows], noIndices⟩

private theorem counted_clear : cache.clear.Counted where
  bytes := rfl
  keyed keys row found := by cases found
  keys index membership := by
    obtain ⟨whole, _, rfl⟩ := List.mem_map.mp membership
    rfl
  idle disabled := ⟨rfl, List.map_eq_nil_iff.mpr (counted.idle disabled).2⟩

end

/-- Where the counters are true, they are true after a change. -/
theorem Adjusts.counted {cache other : TableCache} (adjusts : cache.Adjusts other)
    (counted : cache.Counted) : other.Counted := by
  cases adjusts with
  | aside enabled rows bytes indices _ => exact counted.of_same enabled rows bytes indices
  | storeRow row enabled covered => exact counted_storeRow counted enabled covered
  | takeRow found _ => exact counted_takeRow counted found
  | @index before after index other split adjusts =>
    have whole := counted.keys
    rw [split] at whole
    refine ⟨counted.bytes, counted.keyed, forall_mem_exchange whole adjusts.counted, ?_⟩
    · intro disabled
      have none := (counted.idle disabled).2
      rw [split] at none
      simp at none
  | clear => exact counted_clear counted

theorem Adjusted.counted {origin cache : TableCache} (adjusted : origin.Adjusted cache)
    (counted : origin.Counted) : cache.Counted := by
  induction adjusted with
  | refl => exact counted
  | tail _ adjusts inductionHypothesis => exact adjusts.counted inductionHypothesis

end TableCache

end RelationalAccess
