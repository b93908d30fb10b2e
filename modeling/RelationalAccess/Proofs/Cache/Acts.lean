import RelationalAccess.Proofs.Cache.Upkeep

/-!
Everything that can be done to the cache of a table: acts on it, and reads through it whose
source may fail. The steps that reads consist of are acts too, so what all acts keep, reads
keep as well, as long as the source leaves the cache alone.
-/

namespace RelationalAccess

/-- What can be done to a cache at once. -/
inductive CacheAct where
  | insertRow (row : Row)
  | replaceRow (row : Row)
  | removeRow (keys : Keys)
  | count (hits misses : Nat)
  | storeRead (generation : Nat) (rows : List Row)
  | storeReadKeys (generation column : Nat) (value : Value) (keys : List Keys)
  | replaceKeys (generation column : Nat) (value : Value) (keys : List Keys)
  | applyChange (before after : Option Row)
  | invalidate (column : Nat) (value : Value)
  | evictBefore (cutoff : Nat)
  | trim
  | clear

/-- An act on a cache, or a read through it. -/
inductive CacheOperation where
  | act (act : CacheAct)
  | getRow (keys : Keys)
  | getRowsByKeys (keys : List Keys)
  | getRows (column : Nat) (value : Value)

def TableCache.perform (cache : TableCache) : CacheAct → TableCache
  | .insertRow row => (cache.insertRow row).2
  | .replaceRow row => cache.replaceRow row
  | .removeRow keys => cache.removeRow keys
  | .count hits misses => cache.count hits misses
  | .storeRead generation rows => (cache.storeRead generation rows).2
  | .storeReadKeys generation column value keys =>
    (cache.storeReadKeys generation column value keys).2
  | .replaceKeys generation column value keys => cache.replaceKeys generation column value keys
  | .applyChange before after => (cache.applyChange before after).2
  | .invalidate column value => (cache.invalidate column value).2
  | .evictBefore cutoff => (cache.evictBefore cutoff).2
  | .trim => cache.trim
  | .clear => cache.clear

/-- Every act keeps what holds of a cache. -/
def CacheAct.Keep (holds : TableCache → Prop) : Prop :=
  ∀ cache act, holds cache → holds (cache.perform act)

theorem CacheAct.Keep.upheld {holds : TableCache → Prop} (keep : CacheAct.Keep holds) :
    TableCache.Upheld holds (fun _ => True) fun _ _ _ => True where
  count cache hits misses := keep cache (.count hits misses)
  storeRead cache generation rows before _ := keep cache (.storeRead generation rows) before
  storeReadKeys cache generation column value keys before _ _ :=
    keep cache (.storeReadKeys generation column value keys) before
  replaceKeys cache generation column value keys before _ _ :=
    keep cache (.replaceKeys generation column value keys) before
  returned _ _ _ _ _ _ _ := trivial

namespace RowSource

variable {World : Type} (source : RowSource World)

/-- A source leaves the cache alone. What it returns, whether it fails and what becomes of the
world is up to it. -/
structure Detached : Prop where
  rowsByKeys : ∀ keys cache world, (source.rowsByKeys keys (cache, world)).2.1 = cache
  keysByValue : ∀ column value cache world,
    (source.keysByValue column value (cache, world)).2.1 = cache
  rowsByValue : ∀ column value cache world,
    (source.rowsByValue column value (cache, world)).2.1 = cache

/-- The cache and the world after an operation. A read that fails leaves what it has done. -/
def operate (state : TableCache × World) : CacheOperation → TableCache × World
  | .act act => (state.1.perform act, state.2)
  | .getRow keys => (TableCache.getRow source keys state).2
  | .getRowsByKeys keys => (TableCache.getRowsByKeys source keys state).2
  | .getRows column value => (TableCache.getRows source column value state).2

/-- Operations one at a time. -/
def operateAll (state : TableCache × World) (operations : List CacheOperation) :
    TableCache × World :=
  operations.foldl source.operate state

variable {source}

private theorem leads_of_detached {α : Type} {read : Loading World α}
    (detached : ∀ cache world, (read (cache, world)).2.1 = cache) (condition : TableCache → Prop) :
    Preserves (TableCache.Holding condition fun _ => True) read := by
  rintro ⟨cache, world⟩ ⟨holds, _⟩
  have same := detached cache world
  revert same
  rcases read (cache, world) with ⟨_ | result, after, left⟩
  · rintro rfl
    exact ⟨holds, trivial⟩
  · rintro rfl
    exact ⟨holds, trivial⟩

theorem Detached.supplies (detached : source.Detached) :
    source.Supplies (fun _ => True) (fun _ => True) (fun _ _ _ => True) fun condition =>
      TableCache.Holding condition fun _ => True where
  rowsByKeys condition keys :=
    (leads_of_detached (detached.rowsByKeys keys) condition).weaken (fun _ => id)
      (fun _ _ holds => ⟨holds, fun _ _ => trivial⟩) fun _ => id
  keysByValue condition column value _ :=
    (leads_of_detached (detached.keysByValue column value) condition).weaken (fun _ => id)
      (fun _ _ holds => ⟨holds, trivial⟩) fun _ => id
  rowsByValue condition column value _ :=
    (leads_of_detached (detached.rowsByValue column value) condition).weaken (fun _ => id)
      (fun _ _ holds => ⟨holds, fun _ _ => trivial, trivial⟩) fun _ => id

/-- What every act keeps, every operation keeps. -/
theorem Detached.operate_keeps (detached : source.Detached) {holds : TableCache → Prop}
    (keep : CacheAct.Keep holds) {state : TableCache × World} (before : holds state.1)
    (operation : CacheOperation) : holds (source.operate state operation).1 := by
  have read {α : Type} {read : Loading World α} (upholds : source.Upholds read) :
      holds (read state).2.1 :=
    (Leads.final (upholds keep.upheld detached.supplies) ⟨before, trivial⟩).1
  cases operation with
  | act act => exact keep state.1 act before
  | getRow keys => exact read (TableCache.getRow_upholds source keys)
  | getRowsByKeys keys => exact read (TableCache.getRowsByKeys_upholds source keys)
  | getRows column value => exact read (TableCache.getRows_upholds source column value)

theorem Detached.operateAll_keeps (detached : source.Detached) {holds : TableCache → Prop}
    (keep : CacheAct.Keep holds) {state : TableCache × World} (before : holds state.1)
    (operations : List CacheOperation) : holds (source.operateAll state operations).1 := by
  induction operations generalizing state with
  | nil => exact before
  | cons operation operations inductionHypothesis =>
    exact inductionHypothesis (detached.operate_keeps keep before operation)

end RowSource

end RelationalAccess
