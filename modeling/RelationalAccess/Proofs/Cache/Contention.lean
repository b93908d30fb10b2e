import RelationalAccess.Proofs.Cache.Acts
import RelationalAccess.Proofs.Cache.Gathering
import RelationalAccess.Proofs.Cache.Rows
import RelationalAccess.Proofs.Throughout

/-!
Reads while other things are done to the cache. Whatever the source of a read lets happen
meanwhile, the read hands out only rows that the cache hands out, and for what was cached
when it began it has a row. What everything done meanwhile keeps, the read keeps too.
-/

namespace RelationalAccess

/-- The steps that reads consist of. -/
def CacheAct.IsOfReads : CacheAct → Prop
  | .count .. | .storeRead .. | .storeReadKeys .. | .replaceKeys .. => True
  | _ => False

/-- While a source is read, any number of things are done to the cache, each of them allowed
as the cache stands then. The read may fail. -/
structure RowSource.Contends {World : Type} (source : RowSource World)
    (allowed : TableCache → CacheAct → Prop) : Prop where
  rowsByKeys : ∀ keys cache world, ∃ acts,
    Throughout TableCache.perform allowed cache acts ∧
      (source.rowsByKeys keys (cache, world)).2.1 = acts.foldl TableCache.perform cache
  keysByValue : ∀ column value cache world, ∃ acts,
    Throughout TableCache.perform allowed cache acts ∧
      (source.keysByValue column value (cache, world)).2.1 = acts.foldl TableCache.perform cache
  rowsByValue : ∀ column value cache world, ∃ acts,
    Throughout TableCache.perform allowed cache acts ∧
      (source.rowsByValue column value (cache, world)).2.1 = acts.foldl TableCache.perform cache

namespace TableCache

/-- As long as something holds of a cache, which everything that is allowed keeps, it hands
out good rows only. The steps of reads are allowed. -/
structure Guards (allowed : TableCache → CacheAct → Prop) (holds : TableCache → Prop)
    (good : Row → Prop) : Prop where
  kept : ∀ cache act, holds cache → allowed cache act → holds (cache.perform act)
  reading : ∀ cache (act : CacheAct), act.IsOfReads → allowed cache act
  keyed : ∀ cache, holds cache → cache.RowsKeyed
  cached : ∀ cache keys row, holds cache → cache.peek? keys = some row → good row
  returned : ∀ cache generation loaded, holds cache →
    ∀ row ∈ (cache.storeRead generation loaded).1, good row

/-- What a read by keys hands out: good rows, and one for all keys that were cached when it
began and can identify a row. -/
structure HandsOut (good : Row → Prop) (origin : TableCache) (keys : List Keys) (rows : List Row) :
    Prop where
  good : ∀ row ∈ rows, good row
  complete : ∀ key ∈ askedKeys keys, origin.peek? key ≠ none → ∃ row ∈ rows, row.keys = key

/-- While rows are collected: those found are good and under their own keys, and there is one
for each of some keys. -/
structure Collected (good : Row → Prop) (wanted : Keys → Prop) (found : Entries Keys Row) : Prop where
  good : ∀ key row, found.get? key = some row → good row ∧ row.keys = key
  complete : ∀ key, wanted key → found.get? key ≠ none

/-- What is found in the cache under the keys that are asked for. -/
theorem get?_cached (origin : TableCache) (asked : List Keys) (key : Keys) :
    (Entries.putAll {} (asked.filterMap fun key => (origin.peek? key).map (key, ·))).get? key =
      if key ∈ asked then origin.peek? key else none := by
  have isPut (row : Row) : (key, row) ∈ (asked.filterMap fun key => (origin.peek? key).map (key, ·)) ↔
      key ∈ asked ∧ origin.peek? key = some row := by
    simp
  cases found : (Entries.putAll {} (asked.filterMap fun key =>
    (origin.peek? key).map (key, ·))).get? key with
  | none =>
    have absent := (Entries.get?_putAll_eq_none.mp found).2
    split
    · next isAsked =>
      cases isThere : origin.peek? key with
      | none => rfl
      | some row => exact absurd (List.mem_map_of_mem ((isPut row).mpr ⟨isAsked, isThere⟩)) absent
    · rfl
  | some row =>
    rcases Entries.get?_putAll found with put | before
    · obtain ⟨isAsked, isThere⟩ := (isPut row).mp put
      rw [if_pos isAsked, isThere]
    · cases before

/-- Where all rows that are asked for are cached, the source is not read, and they are handed
out. -/
theorem getRowsByKeys_of_cached {World : Type} (source : RowSource World) {keys : List Keys}
    {state : TableCache × World} (all : ∀ key ∈ askedKeys keys, state.1.peek? key ≠ none) :
    (getRowsByKeys source keys state).1 = .ok ((askedKeys keys).filterMap state.1.peek?) := by
  have nothing : (askedKeys keys).filter (!state.1.contains ·) = [] := by
    apply List.filter_eq_nil_iff.mpr
    intro key isAsked
    obtain ⟨row, isCached⟩ := Option.ne_none_iff_exists'.mp (all key isAsked)
    simp [contains_eq, isCached]
  have taken : take (.putAll {} ((askedKeys keys).filterMap fun key =>
      (state.1.peek? key).map (key, ·))) keys = (askedKeys keys).filterMap state.1.peek? := by
    rw [take_eq_asked]
    · apply List.filterMap_congr
      intro key isAsked
      rw [get?_cached, if_pos isAsked]
    · intro key hasNull
      rw [get?_cached, if_neg]
      intro isAsked
      rw [(mem_askedKeys.mp isAsked).2] at hasNull
      cases hasNull
  have noChunks : chunks chunkSize ([] : List Keys) = [] := by simp [chunks]
  unfold getRowsByKeys
  rw [bind_apply]
  dsimp only [current]
  rw [nothing, noChunks, ← taken]
  rfl

/-- A cached row is handed out by its keys, unless they have a null. -/
theorem getRow_of_cached {World : Type} (source : RowSource World) {keys : Keys} {row : Row}
    {state : TableCache × World} (cached : state.1.peek? keys = some row) :
    (getRow source keys state).1 = .ok (if keys.hasNull then none else some row) := by
  have all : ∀ key ∈ askedKeys [keys], state.1.peek? key ≠ none := by
    intro key isAsked
    rw [List.mem_singleton.mp (mem_askedKeys.mp isAsked).1, cached]
    exact Option.some_ne_none row
  have asked : (askedKeys [keys]).filterMap state.1.peek? =
      if keys.hasNull then [] else [row] := by
    cases isNull : keys.hasNull with
    | true => simp [askedKeys, isNull]
    | false => simp [askedKeys, isNull, List.eraseDups_cons, cached]
  have read := getRowsByKeys_of_cached source all
  rw [asked] at read
  rw [getRow, bind_apply]
  revert read
  rcases getRowsByKeys source [keys] state with ⟨_ | rows, after⟩
  · rintro ⟨⟩
  · rintro ⟨⟩
    cases keys.hasNull with
    | true => rfl
    | false => rfl

namespace Collected

variable {good : Row → Prop} {wanted : Keys → Prop} {found : Entries Keys Row}

theorem putAll (collected : Collected good wanted found) {rows : List Row}
    (areGood : ∀ row ∈ rows, good row) :
    Collected good wanted (found.putAll (rows.map fun row => (row.keys, row))) where
  good key row isFound := by
    rcases Entries.get?_putAll isFound with now | before
    · obtain ⟨other, membership, same⟩ := List.mem_map.mp now
      cases same
      exact ⟨areGood row membership, rfl⟩
    · exact collected.good key row before
  complete key isWanted none :=
    collected.complete key isWanted (Entries.get?_putAll_eq_none.mp none).1

/-- At first the cached ones are found of the rows that are asked for. -/
theorem cached {origin : TableCache} (keyed : origin.RowsKeyed)
    (areGood : ∀ keys row, origin.peek? keys = some row → good row) (asked : List Keys) :
    Collected good (fun key => key ∈ asked ∧ origin.peek? key ≠ none)
      (.putAll {} (asked.filterMap fun key => (origin.peek? key).map (key, ·))) where
  good key row isFound := by
    rw [get?_cached] at isFound
    split at isFound
    · exact ⟨areGood key row isFound, keyed key row isFound⟩
    · cases isFound
  complete key isWanted := by
    rw [get?_cached, if_pos isWanted.1]
    exact isWanted.2

/-- What is taken of the rows that were collected. -/
theorem handsOut {origin : TableCache} {keys : List Keys}
    (collected : Collected good (fun key => key ∈ askedKeys keys ∧ origin.peek? key ≠ none) found) :
    HandsOut good origin keys (take found keys) := by
  have taken : ∀ row, row ∈ take found keys ↔ ∃ key ∈ keys, found.get? key = some row := by
    intro row
    rw [take_eq_filterMap, List.mem_filterMap]
    simp only [List.mem_eraseDups]
  constructor
  · intro row isTaken
    obtain ⟨key, _, isFound⟩ := (taken row).mp isTaken
    exact (collected.good key row isFound).1
  · intro key isAsked isCached
    obtain ⟨row, isFound⟩ :=
      Option.ne_none_iff_exists'.mp (collected.complete key ⟨isAsked, isCached⟩)
    exact ⟨row, (taken row).mpr ⟨key, (mem_askedKeys.mp isAsked).1, isFound⟩,
      (collected.good key row isFound).2⟩

end Collected

variable {World : Type} {source : RowSource World} {allowed : TableCache → CacheAct → Prop}
  {holds : TableCache → Prop} {good : Row → Prop}

/-- Something holds of the cache, whatever the world. -/
abbrev Under (holds : TableCache → Prop) (state : TableCache × World) : Prop := holds state.1

private theorem current_guarded : Preserves (Under holds) (current : Loading World TableCache) :=
  fun _ isHeld => isHeld

section

variable (guards : Guards allowed holds good)

include guards

private theorem contended_preserves {α : Type} {read : Loading World α}
    (contends : ∀ cache world, ∃ acts, Throughout perform allowed cache acts ∧
      (read (cache, world)).2.1 = acts.foldl perform cache) :
    Preserves (Under holds) read := by
  rintro ⟨cache, world⟩ isHeld
  obtain ⟨acts, areAllowed, left⟩ := contends cache world
  have kept : holds (acts.foldl perform cache) :=
    Throughout.keeps guards.kept isHeld areAllowed
  rw [← left] at kept
  revert kept
  rcases read (cache, world) with ⟨_ | result, after, world'⟩
  · exact id
  · exact id

private theorem step_kept {cache : TableCache} (isHeld : holds cache) (act : CacheAct)
    (isOfReads : act.IsOfReads) : holds (cache.perform act) :=
  guards.kept cache act isHeld (guards.reading cache act isOfReads)

private theorem countReads_guarded (hits misses : Nat) :
    Preserves (Under holds) (countReads hits misses : Loading World Unit) :=
  Leads.update _ fun _ isHeld => step_kept guards isHeld (.count hits misses) trivial

private theorem storeRead_guarded (generation : Nat) (loaded : List Row) :
    Leads (Under holds)
      (update fun cache => cache.storeRead generation loaded : Loading World (List Row))
      (fun rows state => Under holds state ∧ ∀ row ∈ rows, good row) (Under holds) :=
  Leads.update _ fun state isHeld =>
    ⟨step_kept guards isHeld (.storeRead generation loaded) trivial,
      guards.returned state.1 generation loaded isHeld⟩

variable (contends : source.Contends allowed)

include contends

private theorem loadChunk_guarded {wanted : Keys → Prop} (generation : Nat)
    {found : Entries Keys Row} (chunk : List Keys) :
    Leads (fun state => Under holds state ∧ Collected good wanted found)
      (loadChunk source generation found chunk)
      (fun found state => Under holds state ∧ Collected good wanted found) (Under holds) := by
  refine Leads.given fun collected => ?_
  refine Leads.bind (contended_preserves guards (contends.rowsByKeys chunk)) fun loaded => ?_
  refine (storeRead_guarded guards generation loaded).bind fun rows => Leads.given fun areGood => ?_
  exact Leads.returns fun _ isHeld => ⟨isHeld, collected.putAll areGood⟩

theorem getRowsByKeys_guarded (keys : List Keys) {origin : TableCache} (isHeld : holds origin) :
    Leads (fun state => state.1 = origin) (getRowsByKeys source keys)
      (fun rows state => Under holds state ∧ HandsOut good origin keys rows) (Under holds) := by
  have begins : Leads (fun state : TableCache × World => state.1 = origin) current
      (fun cache state => Under holds state ∧ cache = origin) (Under holds) :=
    Leads.current fun state same => ⟨by rwa [Under, same], same⟩
  refine begins.bind fun cache => Leads.given fun same => ?_
  subst same
  refine Leads.bind (countReads_guarded guards _ _) fun _ => ?_
  have collected := Collected.cached (guards.keyed cache isHeld)
    (fun keys row => guards.cached cache keys row isHeld) (askedKeys keys)
  refine Leads.bind (Leads.weaken (Leads.foldlM (fun _ found state =>
    Under holds state ∧ Collected good _ found) (fun chunk _ found =>
      loadChunk_guarded guards contends cache.generation chunk) _ _)
        (fun _ isHeld => ⟨isHeld, collected⟩) (fun _ _ => id) fun _ => id) fun found => ?_
  exact Leads.returns fun _ ⟨isHeld, collected⟩ => ⟨isHeld, collected.handsOut⟩

theorem getRowsByKeys_good (keys : List Keys) :
    Leads (Under holds) (getRowsByKeys source keys)
      (fun rows state => Under holds state ∧ ∀ row ∈ rows, good row) (Under holds) := by
  intro state isHeld
  have leads := getRowsByKeys_guarded guards contends keys isHeld
  exact leads.weaken (fun _ => id) (fun _ _ reached => ⟨reached.1, reached.2.good⟩) (fun _ => id)
    state rfl

theorem getRow_guarded (keys : Keys) : Preserves (Under holds) (getRow source keys) := by
  refine (getRowsByKeys_good guards contends [keys]).bind fun rows => Leads.given fun _ => ?_
  exact Leads.returns fun _ => id

private theorem getKeys_guarded (index : IndexCache) (value : Value) :
    Preserves (Under holds) (getKeys source index value) := by
  unfold getKeys
  split
  · exact Preserves.returns
  · refine Leads.bind current_guarded fun cache => ?_
    refine Leads.bind (contended_preserves guards (contends.keysByValue index.column value))
      fun keys => ?_
    exact Leads.update _ fun _ isHeld => step_kept guards isHeld (.storeReadKeys _ _ _ keys) trivial

private theorem getRowsDirectly_guarded (column : Nat) (value : Value) :
    Leads (Under holds) (getRowsDirectly source column value)
      (fun rows state => Under holds state ∧ ∀ row ∈ rows, good row) (Under holds) := by
  refine Leads.bind current_guarded fun cache => ?_
  refine Leads.bind (contended_preserves guards (contends.rowsByValue column value)) fun loaded => ?_
  exact Leads.bind (countReads_guarded guards _ _) fun _ => storeRead_guarded guards _ loaded

private theorem getRowsInBulk_guarded (column : Nat) (value : Value) (hits misses : Nat) :
    Leads (Under holds) (getRowsInBulk source column value hits misses)
      (fun rows state => Under holds state ∧ ∀ row ∈ rows, good row) (Under holds) := by
  refine Leads.bind current_guarded fun cache => ?_
  refine Leads.bind (contended_preserves guards (contends.rowsByValue column value)) fun loaded => ?_
  refine Leads.bind (countReads_guarded guards _ _) fun _ => ?_
  refine (storeRead_guarded guards _ loaded).bind fun rows => Leads.given fun areGood => ?_
  have replaced : Preserves (Under holds) (update fun cache' => ((), cache'.replaceKeys
      cache.generation column value (rows.map Row.keys)) : Loading World Unit) :=
    Leads.update _ fun _ isHeld => step_kept guards isHeld (.replaceKeys _ _ _ _) trivial
  exact Leads.bind replaced fun _ => Leads.returns fun _ isHeld => ⟨isHeld, areGood⟩

theorem getRows_guarded (column : Nat) (value : Value) :
    Leads (Under holds) (getRows source column value)
      (fun rows state => Under holds state ∧ ∀ row ∈ rows, good row) (Under holds) := by
  unfold getRows
  split
  · exact Leads.returns fun _ isHeld => ⟨isHeld, fun _ membership => by cases membership⟩
  · refine Leads.bind current_guarded fun cache => ?_
    split
    · exact getRowsDirectly_guarded guards contends column value
    · next index _ =>
      refine Leads.bind (getKeys_guarded guards contends index value) fun keys => ?_
      refine Leads.bind current_guarded fun now => ?_
      dsimp only
      split
      · exact getRowsByKeys_good guards contends keys
      · exact getRowsInBulk_guarded guards contends column value _ _

end

end TableCache

namespace RowSource.Contends

variable {World : Type} {source : RowSource World} {allowed : TableCache → CacheAct → Prop}
  {holds : TableCache → Prop} {good : Row → Prop} (contends : source.Contends allowed)
  (guards : TableCache.Guards allowed holds good)

include contends guards

/-- What everything that is allowed keeps, every operation keeps. -/
theorem operate_keeps {state : TableCache × World} (isHeld : holds state.1)
    {operation : CacheOperation} (isAllowed : ∀ act, operation = .act act → allowed state.1 act) :
    holds (source.operate state operation).1 := by
  have read {α : Type} {read : Loading World α} {handed : α → Prop}
      (leads : Leads (TableCache.Under holds) read
        (fun result now => TableCache.Under holds now ∧ handed result) (TableCache.Under holds)) :
      holds (read state).2.1 :=
    Leads.final (leads.weaken (fun _ => id) (fun _ _ reached => reached.1) fun _ => id) isHeld
  cases operation with
  | act act => exact guards.kept state.1 act isHeld (isAllowed act rfl)
  | getRow keys => exact Leads.final (TableCache.getRow_guarded guards contends keys) isHeld
  | getRowsByKeys keys => exact read (TableCache.getRowsByKeys_good guards contends keys)
  | getRows column value => exact read (TableCache.getRows_guarded guards contends column value)

theorem operateAll_keeps {state : TableCache × World} (isHeld : holds state.1)
    {operations : List CacheOperation}
    (areAllowed : Throughout source.operate
      (fun now operation => ∀ act, operation = .act act → allowed now.1 act) state operations) :
    holds (source.operateAll state operations).1 := by
  have held : TableCache.Under holds state := isHeld
  refine Throughout.keeps ?_ held areAllowed
  intro now operation isHeldNow isAllowed
  exact contends.operate_keeps guards isHeldNow isAllowed

end RowSource.Contends

end RelationalAccess
