import RelationalAccess.Proofs.Cache.Accounts
import RelationalAccess.Proofs.Cache.Contention

/-!
One instance for each key. From when a row is cached until its entry is taken out or
replaced, nobody is handed another row with its keys, even if it was loaded again in the
meantime and whatever changes are applied to other rows.
-/

namespace RelationalAccess

/-- An act leaves alone what is cached under some keys. -/
def CacheAct.Spares (keys : Keys) (cache : TableCache) : CacheAct → Prop
  | .replaceRow row => row.keys ≠ keys
  | .removeRow removed => removed ≠ keys
  | .applyChange before after =>
    before.map Row.keys ≠ some keys ∧ after.map Row.keys ≠ some keys
  | .evictBefore cutoff => keys ∉ cache.staleKeys cutoff
  | .clear => False
  | _ => True

/-- An operation leaves alone what is cached under some keys. Reads always do. -/
def CacheOperation.Spares (keys : Keys) (cache : TableCache) (operation : CacheOperation) : Prop :=
  ∀ act, operation = .act act → act.Spares keys cache

namespace TableCache

/-- A cache that is enabled has a row under some keys. -/
structure Caches (keys : Keys) (row : Row) (cache : TableCache) : Prop where
  enabled : cache.enabled = true
  counted : cache.Counted
  cached : cache.peek? keys = some row

/-- A row with the given keys is the given one. -/
def IsInstance (keys : Keys) (row found : Row) : Prop := found.keys = keys → found = row

namespace Caches

variable {keys : Keys} {row : Row} {cache : TableCache}

theorem isInstance (caches : cache.Caches keys row) {other : Keys} {found : Row}
    (isCached : cache.peek? other = some found) : IsInstance keys row found := by
  intro named
  have same : other = keys := (caches.counted.keyed other found isCached).symm.trans named
  rw [same, caches.cached] at isCached
  exact (Option.some.inj isCached).symm

theorem isThere (caches : cache.Caches keys row) : cache.peek? keys ≠ none := by
  rw [caches.cached]
  exact Option.some_ne_none row

/-- What is not cached has other keys. -/
theorem isInstance_of_absent (caches : cache.Caches keys row) {found : Row}
    (absent : cache.peek? found.keys = none) : IsInstance keys row found := by
  intro named
  rw [named] at absent
  exact absurd absent caches.isThere

private theorem peek?_perform (caches : cache.Caches keys row) {act : CacheAct}
    (spares : act.Spares keys cache) : (cache.perform act).peek? keys = some row := by
  cases act with
  | insertRow inserted =>
    rw [perform, peek?_insertRow caches.enabled, caches.cached]
    rfl
  | replaceRow replaced =>
    rw [perform, peek?_replaceRow caches.enabled, if_neg (Ne.symm spares)]
    exact caches.cached
  | removeRow removed =>
    rw [perform, peek?_removeRow, if_neg (Ne.symm spares)]
    exact caches.cached
  | storeRead generation rows =>
    unfold perform storeRead
    dsimp only
    split
    · rw [peek?_insertRows caches.enabled, caches.cached]
      rfl
    · exact caches.cached
  | storeReadKeys generation column value found =>
    unfold perform storeReadKeys
    dsimp only
    split
    · exact caches.cached
    · split
      · exact caches.cached
      · exact caches.cached
  | replaceKeys generation column value found =>
    unfold perform replaceKeys
    dsimp only
    split
    · exact caches.cached
    · exact caches.cached
  | applyChange before after =>
    rw [perform, peek?_applyChange caches.enabled, if_neg spares.2, if_neg spares.1]
    exact caches.cached
  | invalidate column value =>
    unfold perform invalidate
    dsimp only
    split
    · exact caches.cached
    · exact caches.cached
  | evictBefore cutoff =>
    show ((cache.staleKeys cutoff).foldl removeRow cache).peek? keys = some row
    rw [peek?_removeRows, if_neg spares]
    exact caches.cached
  | count hits misses => exact caches.cached
  | trim => exact caches.cached
  | clear => exact spares.elim

/-- A cached row stays, unless its entry is taken out or replaced. -/
theorem perform (caches : cache.Caches keys row) {act : CacheAct}
    (spares : act.Spares keys cache) : (cache.perform act).Caches keys row := by
  have adjusted := caches.counted.perform act
  exact ⟨adjusted.enabled.trans caches.enabled, Adjusted.counted adjusted caches.counted,
    caches.peek?_perform spares⟩

theorem insertRow_isInstance (caches : cache.Caches keys row) (inserted : Row) :
    IsInstance keys row (cache.insertRow inserted).1 := by
  unfold insertRow
  rw [if_pos caches.enabled]
  split
  · next present => exact caches.isInstance present
  · next absent => exact caches.isInstance_of_absent absent

private theorem insertRows_isInstance (caches : cache.Caches keys row) (rows : List Row) :
    ∀ found ∈ (cache.insertRows rows).1, IsInstance keys row found := by
  induction rows generalizing cache with
  | nil =>
    intro found membership
    cases membership
  | cons first others inductionHypothesis =>
    intro found membership
    rcases List.mem_cons.mp membership with rfl | later
    · exact caches.insertRow_isInstance first
    · have inserted : (cache.perform (.insertRow first)).Caches keys row := caches.perform trivial
      exact inductionHypothesis inserted found later

/-- The row is handed out for every one with its keys that was loaded, whether what was
loaded is stored or not. -/
theorem storeRead_isInstance (caches : cache.Caches keys row) (generation : Nat)
    (loaded : List Row) :
    ∀ found ∈ (cache.storeRead generation loaded).1, IsInstance keys row found := by
  unfold storeRead
  split
  · exact caches.insertRows_isInstance loaded
  · intro found membership
    obtain ⟨other, _, rfl⟩ := List.mem_map.mp membership
    cases isCached : cache.peek? other.keys with
    | none => exact caches.isInstance_of_absent isCached
    | some present => exact caches.isInstance isCached

end Caches

theorem guards_instance (keys : Keys) (row : Row) :
    Guards (fun cache act => act.Spares keys cache) (·.Caches keys row) (IsInstance keys row) where
  kept _ _ caches spares := caches.perform spares
  reading _ act isOfReads := by
    cases act with
    | count | storeRead | storeReadKeys | replaceKeys => trivial
    | _ => exact isOfReads.elim
  keyed _ caches := caches.counted.keyed
  cached _ _ _ caches isCached := caches.isInstance isCached
  returned _ generation loaded caches := caches.storeRead_isInstance generation loaded

private theorem guards_counted :
    Guards (fun _ _ => True) (fun cache => cache.enabled = true ∧ cache.Counted) fun _ => True where
  kept _ act holds _ :=
    have adjusted := holds.2.perform act
    ⟨adjusted.enabled.trans holds.1, Adjusted.counted adjusted holds.2⟩
  reading _ _ _ := trivial
  keyed _ holds := holds.2.keyed
  cached _ _ _ _ _ := trivial
  returned _ _ _ _ _ _ := trivial

/-- Nobody is handed another row than the given one for some keys, neither a load that ends
now nor a read that begins now. By its keys the row is found, unless they have a null, and
that does not depend on the source. -/
structure HandsOnly {World : Type} (source : RowSource World) (keys : Keys) (row : Row)
    (state : TableCache × World) : Prop where
  cached : state.1.peek? keys = some row
  stored : ∀ generation loaded,
    (state.1.storeRead generation loaded).1.map Row.keys = loaded.map Row.keys ∧
      ∀ found ∈ (state.1.storeRead generation loaded).1, found.keys = keys → found = row
  byKey : (getRow source keys state).1 = .ok (if keys.hasNull then none else some row)
  byKeys : ∀ asked rows after, getRowsByKeys source asked state = (.ok rows, after) →
    (∀ found ∈ rows, found.keys = keys → found = row) ∧
      (keys ∈ asked → keys.hasNull = false → row ∈ rows)
  byValue : ∀ column value rows after, getRows source column value state = (.ok rows, after) →
    ∀ found ∈ rows, found.keys = keys → found = row

theorem Caches.handsOnly {World : Type} {source : RowSource World} {keys : Keys} {row : Row}
    (contends : source.Contends fun cache act => act.Spares keys cache)
    {state : TableCache × World} (caches : state.1.Caches keys row) :
    HandsOnly source keys row state where
  cached := caches.cached
  stored generation loaded :=
    ⟨caches.counted.keyed.storeRead_keys generation loaded,
      caches.storeRead_isInstance generation loaded⟩
  byKey := getRow_of_cached source caches.cached
  byKeys asked rows after isFound := by
    have reached := getRowsByKeys_guarded (guards_instance keys row) contends asked caches state rfl
    rw [isFound] at reached
    obtain ⟨_, handsOut⟩ := reached
    refine ⟨handsOut.good, fun isAsked identified => ?_⟩
    obtain ⟨found, membership, named⟩ :=
      handsOut.complete keys (mem_askedKeys.mpr ⟨isAsked, identified⟩) caches.isThere
    rw [← handsOut.good found membership named]
    exact membership
  byValue column value rows after isFound := by
    have reached := getRows_guarded (guards_instance keys row) contends column value state caches
    rw [isFound] at reached
    exact reached.2

end TableCache

/-- From when a row is cached in any run, and as long as its entry is spared, nobody is handed
another row with its keys. Anything may happen while sources are read, but for what takes out
or replaces the entry. -/
theorem RowSource.Contends.handsOnly_throughout {World : Type} {earlier source : RowSource World}
    {table : Table} {settings : CacheSettings} {threshold : Float}
    (enabled : (TableCache.new table settings).enabled = true)
    (acting : earlier.Contends fun _ _ => True) {world : World} {history : List CacheOperation} :
    let start := earlier.operateAll
      ((TableCache.new table settings).withThreshold threshold, world) history
    ∀ {keys row}, start.1.peek? keys = some row →
      source.Contends (fun cache act => act.Spares keys cache) →
        ∀ {operations}, Throughout source.operate
            (fun now operation => operation.Spares keys now.1) start operations →
          TableCache.HandsOnly source keys row (source.operateAll start operations) := by
  intro start keys row cached contends operations spared
  have fresh := TableCache.counted_new table settings
  have isCounted : start.1.enabled = true ∧ start.1.Counted := by
    refine acting.operateAll_keeps TableCache.guards_counted ⟨enabled, ?_⟩ ?_
    · exact fresh.of_same rfl rfl rfl rfl
    · exact Throughout.of_forall (fun _ _ _ _ => trivial) _ _
  have caches : start.1.Caches keys row := ⟨isCounted.1, isCounted.2, cached⟩
  have kept := contends.operateAll_keeps (TableCache.guards_instance keys row) caches spared
  exact kept.handsOnly contends

end RelationalAccess
