import RelationalAccess.Proofs.Cache.Rows
import RelationalAccess.Proofs.Lists

/-!
Which buckets the index caches of a table have after each operation. Most
operations only take buckets out. Of several index caches of one column the
first is the only one that is ever used.
-/

namespace RelationalAccess

namespace IndexCache

/-- An index cache of the same column with some of the buckets. -/
structure Within (index other : IndexCache) : Prop where
  column : index.column = other.column
  buckets : ∀ value keys, index.get? value = some keys → other.get? value = some keys

namespace Within

theorem refl (index : IndexCache) : index.Within index := ⟨rfl, fun _ _ found => found⟩

theorem trans {first second third : IndexCache} (inner : first.Within second)
    (outer : second.Within third) : first.Within third where
  column := inner.column.trans outer.column
  buckets value keys found := outer.buckets value keys (inner.buckets value keys found)

theorem absent {index other : IndexCache} (within : index.Within other) {value : Value}
    (missing : other.get? value = none) : index.get? value = none := by
  cases found : index.get? value with
  | none => rfl
  | some keys =>
    rw [within.buckets value keys found] at missing
    cases missing

end Within

theorem within_trans {first second third : List IndexCache} (inner : List.Forall₂ Within first second)
    (outer : List.Forall₂ Within second third) : List.Forall₂ Within first third := by
  induction inner generalizing third with
  | nil => exact outer
  | cons head _ inductionHypothesis =>
    cases outer with
    | cons next rest => exact .cons (head.trans next) (inductionHypothesis rest)

theorem get?_remove (index : IndexCache) (removed value : Value) :
    (index.remove removed).get? value = if value = removed then none else index.get? value := by
  unfold remove
  by_cases same : value = removed
  · subst same
    split
    · next absent => simp [get?, absent]
    · simp [get?]
  · rw [if_neg same]
    split
    · rfl
    · simp [get?, Entries.get?_erase_of_ne _ same]

theorem remove_column (index : IndexCache) (value : Value) :
    (index.remove value).column = index.column := by
  unfold remove
  split <;> rfl

theorem remove_within (index : IndexCache) (removed : Value) :
    (index.remove removed).Within index where
  column := index.remove_column removed
  buckets value keys found := by
    rw [get?_remove] at found
    split at found
    · cases found
    · exact found

theorem removeAll_within (index : IndexCache) (removed : List Value) :
    (removed.foldl remove index).Within index := by
  induction removed generalizing index with
  | nil => exact .refl index
  | cons value rest inductionHypothesis =>
    exact (inductionHypothesis _).trans (index.remove_within value)

theorem trimInOrder_within (most : Nat) (index : IndexCache) (oldest : List Value) :
    (trimInOrder most index oldest).Within index := by
  induction oldest generalizing index with
  | nil => exact .refl index
  | cons value rest inductionHypothesis =>
    unfold trimInOrder
    split
    · exact .refl index
    · exact (inductionHypothesis _).trans (index.remove_within value)

theorem trim_within (index : IndexCache) : index.trim.Within index := by
  unfold trim
  split
  · exact .refl index
  · exact index.trimInOrder_within _ _

theorem clear_within (index : IndexCache) : index.clear.Within index where
  column := rfl
  buckets value keys found := by simp [clear, get?] at found

theorem evictBefore_within (index : IndexCache) (cutoff : Nat) :
    (index.evictBefore cutoff).2.Within index :=
  index.removeAll_within _

/-- An index cache that comes from another by storing keys for a value: its buckets
are some of those before, but for the one of the value. -/
structure Stores (value : Value) (keys : List Keys) (index other : IndexCache) : Prop where
  column : index.column = other.column
  buckets : ∀ found kept, index.get? found = some kept →
    found = value ∧ kept = keys ∨ other.get? found = some kept

theorem replace_stores (index : IndexCache) (now : Nat) (value : Value) (keys : List Keys) :
    (index.replace now value keys).Stores value keys index where
  column := (trim_within _).column
  buckets found kept present := by
    have untrimmed := (trim_within _).buckets found kept present
    by_cases same : found = value
    · subst same
      left
      simpa [get?, eq_comm] using untrimmed
    · right
      simpa [get?, Entries.get?_put_of_ne _ _ same] using untrimmed

theorem insert_stores (index : IndexCache) (now : Nat) (value : Value) (keys : List Keys) :
    (index.insert now value keys).2.Stores value keys index := by
  unfold insert
  split
  · exact ⟨rfl, fun _ _ present => .inr present⟩
  · exact index.replace_stores now value keys

end IndexCache

namespace TableCache

/-- Whether there is a bucket for a value in an index cache of a column, and the
keys it has. -/
def HasBucket (cache : TableCache) (column : Nat) (value : Value) (keys : List Keys) : Prop :=
  ∃ index ∈ cache.indices, index.column = column ∧ index.get? value = some keys

instance (cache : TableCache) (column : Nat) (value : Value) (keys : List Keys) :
    Decidable (cache.HasBucket column value keys) :=
  inferInstanceAs (Decidable (∃ index ∈ cache.indices, index.column = column ∧ index.get? value = some keys))

theorem hasBucket_congr {cache other : TableCache} (same : other.indices = cache.indices)
    {column : Nat} {value : Value} {keys : List Keys} :
    other.HasBucket column value keys ↔ cache.HasBucket column value keys := by
  rw [HasBucket, HasBucket, same]

/-- The index caches are for columns of lookups, have no bucket for null, and have
none at all where an earlier one is for the same column. -/
structure IndicesSound (cache : TableCache) : Prop where
  lookup : ∀ index ∈ cache.indices, index.column ∈ cache.table.lookupColumns
  noNull : ∀ index ∈ cache.indices, index.get? .null = none
  shadowed : cache.indices.Pairwise fun first later =>
    later.column = first.column → ∀ value, later.get? value = none

/-- The index caches of an empty cache are for columns of lookups and have no buckets. -/
theorem indices_new (table : Table) (settings : CacheSettings) :
    ∀ index ∈ (TableCache.new table settings).indices,
      index.column ∈ table.lookupColumns ∧ ∀ value, index.get? value = none := by
  intro index membership
  simp only [TableCache.new] at membership
  split at membership
  · unfold TableCache.indicesFor at membership
    split at membership
    · cases membership
    · obtain ⟨column, lookup, rfl⟩ := List.mem_map.mp membership
      exact ⟨lookup, fun _ => rfl⟩
    · obtain ⟨column, lookup, rfl⟩ := List.mem_map.mp membership
      exact ⟨lookup, fun _ => rfl⟩
  · cases membership

theorem not_hasBucket_new (table : Table) (settings : CacheSettings) (column : Nat) (value : Value)
    (keys : List Keys) : ¬ (TableCache.new table settings).HasBucket column value keys := by
  rintro ⟨index, membership, _, bucket⟩
  rw [(indices_new table settings index membership).2 value] at bucket
  cases bucket

/-- The index cache of a column stands somewhere in the list, and is the one that a
change of it exchanges. -/
theorem index?_split {cache : TableCache} {column : Nat} {index : IndexCache}
    (found : cache.index? column = some index) :
    ∃ before after, cache.indices = before ++ index :: after ∧ index.column = column ∧
      (∀ other ∈ before, other.column ≠ column) ∧
      ∀ change, (cache.modifyIndex column change).indices = before ++ change index :: after := by
  obtain ⟨here, before, after, split, earlier⟩ := List.find?_eq_some_iff_append.mp found
  have apart : ∀ other ∈ before, other.column ≠ column := by simpa using earlier
  have position : cache.indices.findIdx? (·.column == column) = some before.length := by
    have nowhere : before.findIdx? (·.column == column) = none :=
      List.findIdx?_eq_none_iff.mpr fun other membership => by simpa using apart other membership
    rw [split, List.findIdx?_append, nowhere, List.findIdx?_cons, here]
    simp
  refine ⟨before, after, split, by simpa using here, apart, fun change => ?_⟩
  simp only [modifyIndex, position]
  rw [split, List.modify_eq_take_cons_drop (by simp)]
  simp

theorem modifyIndex_of_none {cache : TableCache} {column : Nat}
    (absent : cache.index? column = none) (change : IndexCache → IndexCache) :
    (cache.modifyIndex column change).indices = cache.indices := by
  have nowhere : cache.indices.findIdx? (·.column == column) = none :=
    List.findIdx?_eq_none_iff.mpr fun index membership => by
      simpa using List.find?_eq_none.mp absent index membership
  simp only [modifyIndex, nowhere]

/-- A cache of the same table, each of whose index caches has some of the buckets of
its counterpart. -/
structure IndicesWithin (cache other : TableCache) : Prop where
  table : cache.table = other.table
  indices : List.Forall₂ IndexCache.Within cache.indices other.indices

namespace IndicesWithin

variable {cache other : TableCache}

theorem of_same (table : cache.table = other.table) (indices : cache.indices = other.indices) :
    cache.IndicesWithin other where
  table := table
  indices := by
    rw [indices]
    exact List.forall₂_same.mpr fun index _ => .refl index

theorem of_map {change : IndexCache → IndexCache} (table : cache.table = other.table)
    (indices : cache.indices = other.indices.map change)
    (within : ∀ index, (change index).Within index) : cache.IndicesWithin other where
  table := table
  indices := by
    rw [indices, List.forall₂_map_left_iff]
    exact List.forall₂_same.mpr fun index _ => within index

theorem trans {first second third : TableCache} (inner : first.IndicesWithin second)
    (outer : second.IndicesWithin third) : first.IndicesWithin third where
  table := inner.table.trans outer.table
  indices := IndexCache.within_trans inner.indices outer.indices

theorem counterpart (within : cache.IndicesWithin other) {index : IndexCache}
    (membership : index ∈ cache.indices) : ∃ whole ∈ other.indices, index.Within whole :=
  counterpart_right within.indices membership

theorem hasBucket (within : cache.IndicesWithin other) {column : Nat} {value : Value}
    {keys : List Keys} (bucket : cache.HasBucket column value keys) :
    other.HasBucket column value keys := by
  obtain ⟨index, membership, here, found⟩ := bucket
  obtain ⟨whole, counterpart, inside⟩ := within.counterpart membership
  exact ⟨whole, counterpart, inside.column ▸ here, inside.buckets value keys found⟩

private theorem pairwise_shadowed {left right : List IndexCache}
    (related : List.Forall₂ IndexCache.Within left right)
    (shadowed : right.Pairwise fun first later =>
      later.column = first.column → ∀ value, later.get? value = none) :
    left.Pairwise fun first later =>
      later.column = first.column → ∀ value, later.get? value = none := by
  induction related with
  | nil => exact .nil
  | @cons index whole others wholes head tail inductionHypothesis =>
    obtain ⟨first, rest⟩ := List.pairwise_cons.mp shadowed
    refine List.pairwise_cons.mpr ⟨fun later membership sameColumn value => ?_,
      inductionHypothesis rest⟩
    obtain ⟨wholeLater, counterpart, inside⟩ := counterpart_right tail membership
    refine inside.absent (first wholeLater counterpart ?_ value)
    rw [← inside.column, sameColumn, head.column]

theorem sound (within : cache.IndicesWithin other) (sound : other.IndicesSound) :
    cache.IndicesSound where
  lookup index membership := by
    obtain ⟨whole, counterpart, inside⟩ := within.counterpart membership
    rw [inside.column, within.table]
    exact sound.lookup whole counterpart
  noNull index membership := by
    obtain ⟨whole, counterpart, inside⟩ := within.counterpart membership
    exact inside.absent (sound.noNull whole counterpart)
  shadowed := pairwise_shadowed within.indices sound.shadowed

theorem modifyIndex (cache : TableCache) (column : Nat) {change : IndexCache → IndexCache}
    (within : ∀ index, (change index).Within index) :
    (cache.modifyIndex column change).IndicesWithin cache where
  table := rfl
  indices := by
    cases found : cache.index? column with
    | none =>
      rw [modifyIndex_of_none found]
      exact List.forall₂_same.mpr fun index _ => .refl index
    | some index =>
      obtain ⟨before, after, split, _, _, changed⟩ := index?_split found
      rw [changed, split]
      exact List.rel_append (List.forall₂_same.mpr fun other _ => .refl other)
        (.cons (within index) (List.forall₂_same.mpr fun other _ => .refl other))

theorem forgetKeys (cache : TableCache) (column : Nat) (value : Value) :
    (cache.forgetKeys column value).IndicesWithin cache :=
  modifyIndex cache column fun index => index.remove_within value

theorem forgetAll (cache : TableCache) (touched : List (Nat × Value)) :
    (cache.forgetAll touched).IndicesWithin cache := by
  induction touched generalizing cache with
  | nil => exact of_same rfl rfl
  | cons first others inductionHypothesis =>
    exact (inductionHypothesis _).trans (forgetKeys cache first.1 first.2)

end IndicesWithin

section

variable {cache : TableCache}

private theorem not_hasBucket_forgotten (sound : cache.IndicesSound) (column : Nat) (value : Value)
    (keys : List Keys) : ¬ (cache.forgetKeys column value).HasBucket column value keys := by
  rintro ⟨index, membership, here, bucket⟩
  cases found : cache.index? column with
  | none =>
    rw [forgetKeys, modifyIndex_of_none found] at membership
    have apart := List.find?_eq_none.mp found index membership
    simp [here] at apart
  | some first =>
    obtain ⟨before, after, split, firstHere, apart, changed⟩ := index?_split found
    rw [forgetKeys, changed, List.mem_append, List.mem_cons] at membership
    rcases membership with earlier | same | later
    · exact apart index earlier here
    · rw [same, IndexCache.get?_remove, if_pos rfl] at bucket
      cases bucket
    · have shadowed := sound.shadowed
      rw [split, List.pairwise_append, List.pairwise_cons] at shadowed
      rw [shadowed.2.1.1 index later (here.trans firstHere.symm) value] at bucket
      cases bucket

private theorem hasBucket_kept {column other : Nat} {value : Value} {removed : Value}
    {keys : List Keys} (bucket : cache.HasBucket column value keys)
    (differ : (column, value) ≠ (other, removed)) :
    (cache.forgetKeys other removed).HasBucket column value keys := by
  obtain ⟨index, membership, here, present⟩ := bucket
  cases found : cache.index? other with
  | none => exact ⟨index, by rwa [forgetKeys, modifyIndex_of_none found], here, present⟩
  | some first =>
    obtain ⟨before, after, split, firstHere, _, changed⟩ := index?_split found
    rw [split, List.mem_append, List.mem_cons] at membership
    rcases membership with earlier | same | later
    · exact ⟨index, by simp [forgetKeys, changed, earlier], here, present⟩
    · subst same
      have apart : value ≠ removed := fun same => differ (by rw [same, ← here, firstHere])
      refine ⟨index.remove removed, by simp [forgetKeys, changed], ?_, ?_⟩
      · rw [IndexCache.remove_column, here]
      · rw [IndexCache.get?_remove, if_neg apart, present]
    · exact ⟨index, by simp [forgetKeys, changed, later], here, present⟩

theorem hasBucket_forgetKeys (sound : cache.IndicesSound) {column other : Nat}
    {value removed : Value} {keys : List Keys} :
    (cache.forgetKeys other removed).HasBucket column value keys ↔
      cache.HasBucket column value keys ∧ (column, value) ≠ (other, removed) := by
  constructor
  · intro bucket
    refine ⟨(IndicesWithin.forgetKeys cache other removed).hasBucket bucket, fun same => ?_⟩
    cases same
    exact not_hasBucket_forgotten sound column value keys bucket
  · rintro ⟨bucket, differ⟩
    exact hasBucket_kept bucket differ

theorem hasBucket_forgetAll (sound : cache.IndicesSound) {touched : List (Nat × Value)}
    {column : Nat} {value : Value} {keys : List Keys} :
    (cache.forgetAll touched).HasBucket column value keys ↔
      cache.HasBucket column value keys ∧ (column, value) ∉ touched := by
  induction touched generalizing cache with
  | nil => simp [forgetAll]
  | cons first others inductionHypothesis =>
    have within := IndicesWithin.forgetKeys cache first.1 first.2
    show ((cache.forgetKeys first.1 first.2).forgetAll others).HasBucket column value keys ↔ _
    rw [inductionHypothesis (within.sound sound), hasBucket_forgetKeys sound, List.mem_cons, not_or,
      and_assoc]

end

private theorem withoutStale_indices (cache : TableCache) (before after : Option Row) :
    (cache.applyChange before after).2.indices = (cache.withoutStale before after).indices := by
  rw [applyChange_eq]
  cases after with
  | none => rfl
  | some new => exact (replaceRow_sameButRows _ new).indices

private theorem forget_within (cache : TableCache) (before after : Option Row) :
    ({ cache with generation := cache.generation + 1 }.forget before after).IndicesWithin cache :=
  have same := forget_sameButRows { cache with generation := cache.generation + 1 } before after
  .of_same same.table same.indices

/-- A change takes out the buckets of the values it touches and no others. -/
theorem hasBucket_applyChange {cache : TableCache} (sound : cache.IndicesSound)
    (before after : Option Row) {column : Nat} {value : Value} {keys : List Keys} :
    (cache.applyChange before after).2.HasBucket column value keys ↔
      cache.HasBucket column value keys ∧ (column, value) ∉ touched cache.table before after := by
  have forgotten : (cache.withoutStale before after).HasBucket column value keys ↔ _ :=
    hasBucket_forgetAll ((forget_within cache before after).sound sound)
  have same := forget_sameButRows { cache with generation := cache.generation + 1 } before after
  rw [hasBucket_congr same.indices] at forgotten
  rw [hasBucket_congr (withoutStale_indices cache before after)]
  exact forgotten

theorem applyChange_within (cache : TableCache) (before after : Option Row) :
    (cache.applyChange before after).2.IndicesWithin cache := by
  have inner := IndicesWithin.forgetAll
    ({ cache with generation := cache.generation + 1 }.forget before after)
    (touched cache.table before after)
  refine (IndicesWithin.of_same ?_ (withoutStale_indices cache before after)).trans
    (inner.trans (forget_within cache before after))
  rw [applyChange_table]
  exact (inner.trans (forget_within cache before after)).table.symm

theorem removeRow_within (cache : TableCache) (keys : Keys) :
    (cache.removeRow keys).IndicesWithin cache :=
  have same := cache.removeRow_sameButRows keys
  .of_same same.table same.indices

theorem clear_within (cache : TableCache) : cache.clear.IndicesWithin cache :=
  .of_map rfl rfl IndexCache.clear_within

theorem trim_within (cache : TableCache) : cache.trim.IndicesWithin cache :=
  .of_map rfl rfl IndexCache.trim_within

theorem evictBuckets_eq (cutoff : Nat) (indices : List IndexCache) :
    (evictBuckets cutoff indices).2 = indices.map fun index => (index.evictBefore cutoff).2 := by
  induction indices with
  | nil => rfl
  | cons index indices inductionHypothesis =>
    simp only [evictBuckets, List.map_cons, inductionHypothesis]

theorem evictBefore_within (cache : TableCache) (cutoff : Nat) :
    (cache.evictBefore cutoff).2.IndicesWithin cache := by
  have same := cache.removeRows_sameButRows (cache.staleKeys cutoff)
  refine .of_map same.table ?_ fun index => index.evictBefore_within cutoff
  show (evictBuckets cutoff ((cache.staleKeys cutoff).foldl removeRow cache).indices).2 = _
  rw [evictBuckets_eq, same.indices]

section

variable {cache : TableCache} {column : Nat} {stored : Value} {storedKeys : List Keys}
  {change : IndexCache → IndexCache}

/-- Where the index cache of a column stores keys for a value that is not null, the
index caches stay sound. -/
theorem modifyIndex_sound (sound : cache.IndicesSound) (notNull : stored ≠ .null)
    (stores : ∀ index, cache.index? column = some index →
      (change index).Stores stored storedKeys index) :
    (cache.modifyIndex column change).IndicesSound := by
  cases found : cache.index? column with
  | none =>
    have same : (cache.modifyIndex column change).IndicesWithin cache :=
      .of_same rfl (modifyIndex_of_none found change)
    exact same.sound sound
  | some index =>
    obtain ⟨before, after, split, here, apart, changed⟩ := index?_split found
    have storing := stores index found
    have unchanged : ∀ other, other ∈ before ∨ other ∈ after → other ∈ cache.indices := by
      intro other membership
      rw [split, List.mem_append, List.mem_cons]
      tauto
    have original : index ∈ cache.indices := by simp [split]
    have members : ∀ other ∈ (cache.modifyIndex column change).indices,
        other = change index ∨ other ∈ cache.indices := by
      intro other membership
      rw [changed, List.mem_append, List.mem_cons] at membership
      have := unchanged other
      tauto
    refine ⟨fun other membership => ?_, fun other membership => ?_, ?_⟩
    · rcases members other membership with same | old
      · rw [same, storing.column]
        exact sound.lookup index original
      · exact sound.lookup other old
    · rcases members other membership with same | old
      · subst same
        cases present : (change index).get? .null with
        | none => rfl
        | some kept =>
          rcases storing.buckets .null kept present with ⟨isNull, _⟩ | earlier
          · exact absurd isNull.symm notNull
          · rw [sound.noNull index original] at earlier
            cases earlier
      · exact sound.noNull other old
    · have shadowed := sound.shadowed
      rw [split, List.pairwise_append, List.pairwise_cons] at shadowed
      obtain ⟨inBefore, ⟨fromHere, inAfter⟩, across⟩ := shadowed
      rw [changed, List.pairwise_append, List.pairwise_cons]
      refine ⟨inBefore, ⟨fun later membership sameColumn => ?_, inAfter⟩,
        fun first early later membership => ?_⟩
      · exact fromHere later membership (sameColumn.trans storing.column)
      · rcases List.mem_cons.mp membership with same | late
        · intro sameColumn
          subst same
          exact absurd (sameColumn.symm.trans (storing.column.trans here)) (apart first early)
        · exact across first early later (List.mem_cons_of_mem _ late)

/-- Where the index cache of a column stores keys for a value, the buckets are some
of those before, but for the one of the value. -/
theorem hasBucket_modifyIndex
    (stores : ∀ index, cache.index? column = some index →
      (change index).Stores stored storedKeys index)
    {other : Nat} {value : Value} {keys : List Keys}
    (bucket : (cache.modifyIndex column change).HasBucket other value keys) :
    other = column ∧ value = stored ∧ keys = storedKeys ∨ cache.HasBucket other value keys := by
  cases found : cache.index? column with
  | none => exact .inr ((hasBucket_congr (modifyIndex_of_none found change)).mp bucket)
  | some index =>
    obtain ⟨before, after, split, here, _, changed⟩ := index?_split found
    have storing := stores index found
    obtain ⟨holder, membership, holderHere, present⟩ := bucket
    rw [changed, List.mem_append, List.mem_cons] at membership
    rcases membership with early | same | late
    · exact .inr ⟨holder, by simp [split, early], holderHere, present⟩
    · subst same
      rcases storing.buckets value keys present with ⟨sameValue, sameKeys⟩ | earlier
      · left
        exact ⟨by rw [← holderHere, storing.column, here], sameValue, sameKeys⟩
      · right
        exact ⟨index, by simp [split], storing.column ▸ holderHere, earlier⟩
    · exact .inr ⟨holder, by simp [split, late], holderHere, present⟩

end

end TableCache

end RelationalAccess
