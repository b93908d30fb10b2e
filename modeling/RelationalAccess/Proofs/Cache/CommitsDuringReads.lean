import RelationalAccess.Proofs.Cache.Gathering
import RelationalAccess.Proofs.Cache.LoadsInFlight
import RelationalAccess.Proofs.Cache.Mirror

/-!
Commits that land while the source of a cache is being read. A read by a value puts
together keys and rows that were seen at different moments, and rows that a commit has
cached since. So it may return a row that a commit has put, without the value, under keys
that had it when they were seen; and only where such a commit lands can it return a row
without the value.
-/

namespace RelationalAccess

namespace RowChange

variable {table : Table} {rows : List (List Value)} {changes : List RowChange}

theorem exchangeAll_append (table : Table) (rows : List (List Value)) (first last : List RowChange) :
    exchangeAll table rows (first ++ last) = exchangeAll table (exchangeAll table rows first) last :=
  List.foldl_append

end RowChange

namespace TableCache

/-- A cache that was told of some changes in order. -/
def applyAll (cache : TableCache) (changes : List RowChange) : TableCache :=
  changes.foldl (fun cache change => (cache.applyChange change.before change.after).2) cache

theorem applyAll_generation (cache : TableCache) (changes : List RowChange) :
    (cache.applyAll changes).generation = cache.generation + changes.length := by
  induction changes generalizing cache with
  | nil => rfl
  | cons change changes inductionHypothesis =>
    have rest := inductionHypothesis (cache.applyChange change.before change.after).2
    rw [applyChange_generation, Nat.add_right_comm] at rest
    exact rest

theorem RowsCurrent.applyAll {table : Table} {cache : TableCache} {rows : List (List Value)}
    (current : RowsCurrent table cache rows) {changes : List RowChange}
    (allTrue : RowChange.AllTrue table rows changes) :
    RowsCurrent table (cache.applyAll changes) (RowChange.exchangeAll table rows changes) := by
  induction changes generalizing cache rows with
  | nil => exact current
  | cons change changes inductionHypothesis =>
    exact inductionHypothesis (current.applyChange allTrue.1) allTrue.2

end TableCache

section

variable {World : Type} (table : Table) (rows : World → List (List Value))
  (landed : World → List RowChange)

/-- A read of a source during which changes land. It answers from the rows as they are after
the first of them, unless it fails, and the cache is told of all of them before it ends. -/
def Interrupted {α : Type} (read : Loading World α) (answers : List (List Value) → α → Prop) : Prop :=
  ∀ cache world, ∃ seen changes result world',
    read (cache, world) = (result, cache.applyAll changes, world') ∧ seen <+: changes ∧
      RowChange.AllTrue table (rows world) changes ∧ landed world' = landed world ++ changes ∧
      rows world' = RowChange.exchangeAll table (rows world) changes ∧
      ∀ answer, result = .ok answer →
        answers (RowChange.exchangeAll table (rows world) seen) answer

/-- A source during whose reads any number of changes land. -/
structure RowSource.Contended (source : RowSource World) : Prop where
  rowsByKeys : ∀ keys, Interrupted table rows landed (source.rowsByKeys keys) fun seen loaded =>
    table.Loaded loaded (seen.filter fun row => keys.contains (table.keysOf row))
  keysByValue : ∀ column value, Interrupted table rows landed (source.keysByValue column value)
    fun seen keys => keys.Perm (table.keysWith seen column value)
  rowsByValue : ∀ column value, Interrupted table rows landed (source.rowsByValue column value)
    fun seen loaded => table.Loaded loaded (seen.filter fun row => row.getD column .null = value)

end

namespace Table

/-- Keys under which a table has had a row with a value since a read began. -/
def HadValue (table : Table) (start : List (List Value)) (during : List RowChange) (column : Nat)
    (value : Value) (keys : Keys) : Prop :=
  ∃ earlier, earlier <+: during ∧
    keys ∈ table.keysWith (RowChange.exchangeAll table start earlier) column value

/-- Some changes divert a read by a value: under keys that had the value after some of them,
there is a row without it after some more. -/
def Diverts (table : Table) (start : List (List Value)) (changes : List RowChange) (column : Nat)
    (value : Value) : Prop :=
  ∃ earlier later, earlier <+: later ∧ later <+: changes ∧
    ∃ values ∈ RowChange.exchangeAll table start later, values.getD column .null ≠ value ∧
      table.keysOf values ∈ table.keysWith (RowChange.exchangeAll table start earlier) column value

/-- A row has the value that is read by, unless changes divert the read. -/
def Matches (table : Table) (start : List (List Value)) (during : List RowChange) (column : Nat)
    (value : Value) (row : Row) : Prop :=
  row.at? column = some value ∨ table.Diverts start during column value

variable {table : Table} {start : List (List Value)} {during changes : List RowChange} {column : Nat}
  {value : Value}

theorem HadValue.mono {keys : Keys} (had : table.HadValue start during column value keys)
    (short : during <+: changes) : table.HadValue start changes column value keys := by
  obtain ⟨earlier, within, isNamed⟩ := had
  exact ⟨earlier, within.trans short, isNamed⟩

theorem Diverts.mono (diverts : table.Diverts start during column value)
    (short : during <+: changes) : table.Diverts start changes column value := by
  obtain ⟨earlier, later, within, isBegun, divertedTo⟩ := diverts
  exact ⟨earlier, later, within, isBegun.trans short, divertedTo⟩

theorem Matches.mono {row : Row} (isMatch : table.Matches start during column value row)
    (short : during <+: changes) : table.Matches start changes column value row :=
  isMatch.imp_right fun diverts => diverts.mono short

/-- A row that the table has under keys that had the value still has it, or the changes
divert the read. -/
theorem HadValue.still {row : Row} (had : table.HadValue start during column value row.keys)
    (notNull : value ≠ .null) (has : table.Has (RowChange.exchangeAll table start during) row) :
    table.Matches start during column value row := by
  obtain ⟨earlier, within, isNamed⟩ := had
  rw [has.keys] at isNamed
  by_cases hasValue : row.values.getD column .null = value
  · exact .inl ((getD_eq_iff notNull).mp hasValue)
  · exact .inr ⟨earlier, during, within, List.prefix_rfl, row.values, has.stored, hasValue, isNamed⟩

end Table

namespace TableCache

variable {World : Type}

/-- A read that began in some state is under way, and some changes have landed since. -/
structure Underway (table : Table) (rows : World → List (List Value))
    (landed : World → List RowChange) (origin : TableCache × World) (during : List RowChange)
    (state : TableCache × World) : Prop where
  landed : landed state.2 = landed origin.2 ++ during
  stored : rows state.2 = RowChange.exchangeAll table (rows origin.2) during
  generation : state.1.generation = origin.1.generation + during.length
  current : RowsCurrent table state.1 (rows state.2)

/-- While rows are gathered by their keys: the generation was looked up before, those found
match, and the keys of those still to be loaded had the value. -/
structure Gathers (table : Table) (origin : TableCache) (start : List (List Value))
    (during : List RowChange) (column : Nat) (value : Value) (generation : Nat) (rest : List Keys)
    (found : Entries Keys Row) : Prop where
  captured : generation ≤ origin.generation + during.length
  matching : ∀ key row, found.get? key = some row → table.Matches start during column value row
  had : ∀ key ∈ rest, table.HadValue start during column value key

/-- Rows of the table were seen after some changes, under keys that had had the value then. -/
structure Seen (table : Table) (start : List (List Value)) (seen : List RowChange) (column : Nat)
    (value : Value) (loaded : List Row) : Prop where
  has : ∀ row ∈ loaded, table.Has (RowChange.exchangeAll table start seen) row
  had : ∀ row ∈ loaded, table.HadValue start seen column value row.keys

variable {table : Table} {rows : World → List (List Value)} {landed : World → List RowChange}
  {origin : TableCache × World} {during : List RowChange} {state : TableCache × World}
  {column : Nat} {value : Value}

namespace Underway

theorem start (current : RowsCurrent table origin.1 (rows origin.2)) :
    Underway table rows landed origin [] origin :=
  ⟨(List.append_nil _).symm, rfl, rfl, current⟩

theorem count (underway : Underway table rows landed origin during state) (hits misses : Nat) :
    Underway table rows landed origin during (state.1.count hits misses, state.2) :=
  ⟨underway.landed, underway.stored, underway.generation, underway.current.count hits misses⟩

/-- The generation is one from before whatever is seen later. -/
theorem captured (underway : Underway table rows landed origin during state) {seen : List RowChange}
    (before : during <+: seen) : state.1.generation ≤ origin.1.generation + seen.length := by
  rw [underway.generation]
  exact Nat.add_le_add_left before.length_le _

/-- Rows that were read are stored only if nothing has landed since the generation was
looked up, and so after the rows were seen. -/
theorem storeRead (underway : Underway table rows landed origin during state) {generation : Nat}
    {seen : List RowChange} (short : seen <+: during)
    (captured : generation ≤ origin.1.generation + seen.length) {loaded : List Row}
    (isSeen : Seen table (rows origin.2) seen column value loaded) :
    Underway table rows landed origin during
      ((state.1.storeRead generation loaded).2, state.2) := by
  have same := state.1.storeRead_sameButRows generation loaded
  refine ⟨underway.landed, underway.stored, same.generation.trans underway.generation,
    underway.current.storeRead fun still row isLoaded => ?_⟩
  have sameLength : seen.length = during.length := by
    have most := short.length_le
    have now := underway.generation
    omega
  rw [underway.stored, ← short.eq_of_length sameLength]
  exact isSeen.has row isLoaded

theorem storeReadKeys (underway : Underway table rows landed origin during state)
    (generation : Nat) (keys : List Keys) :
    Underway table rows landed origin during
      ((state.1.storeReadKeys generation column value keys).2, state.2) := by
  unfold TableCache.storeReadKeys
  split
  · exact underway
  · split
    · exact ⟨underway.landed, underway.stored, underway.generation,
        underway.current.sameRows rfl rfl rfl⟩
    · exact underway

theorem replaceKeys (underway : Underway table rows landed origin during state)
    (generation : Nat) (keys : List Keys) :
    Underway table rows landed origin during
      (state.1.replaceKeys generation column value keys, state.2) := by
  unfold TableCache.replaceKeys
  split
  · exact ⟨underway.landed, underway.stored, underway.generation,
      underway.current.sameRows rfl rfl rfl⟩
  · exact underway

/-- A row that is cached under keys that had the value has it, unless changes divert the read. -/
theorem cached (underway : Underway table rows landed origin during state)
    (notNull : value ≠ .null) {keys : Keys}
    (had : table.HadValue (rows origin.2) during column value keys) {row : Row}
    (found : state.1.peek? keys = some row) :
    table.Matches (rows origin.2) during column value row := by
  have sameKeys : row.keys = keys := underway.current.keyed keys row found
  rw [← sameKeys] at had
  exact had.still notNull (underway.stored ▸ underway.current.current keys row found)

/-- What is returned for rows that were seen under keys that had the value: a row that was
seen, or the one that is cached by now. -/
theorem returned (underway : Underway table rows landed origin during state)
    (notNull : value ≠ .null) {seen : List RowChange} (short : seen <+: during) {loaded : List Row}
    (isSeen : Seen table (rows origin.2) seen column value loaded) (generation : Nat) :
    ∀ row ∈ (state.1.storeRead generation loaded).1,
      table.Matches (rows origin.2) during column value row := by
  intro row returned
  rcases mem_storeRead returned with isLoaded | ⟨other, isLoaded, cached⟩
  · exact ((isSeen.had row isLoaded).still notNull (isSeen.has row isLoaded)).mono short
  · exact underway.cached notNull ((isSeen.had other isLoaded).mono short) cached

end Underway

section

variable {failed : TableCache × World → Prop}

/-- What a read of the source leads to: more changes have landed, the answer is from a
moment among them, and if there are none, the cache is as it was. -/
private theorem interrupted_leads {α : Type} {read : Loading World α}
    {answers : List (List Value) → α → Prop}
    (interrupted : Interrupted table rows landed read answers) (condition : TableCache → Prop) :
    Leads (fun state => Underway table rows landed origin during state ∧ condition state.1) read
      (fun answer state => ∃ seen longer,
        (Underway table rows landed origin longer state ∧ (longer = during → condition state.1)) ∧
          during <+: seen ∧ seen <+: longer ∧
          answers (RowChange.exchangeAll table (rows origin.2) seen) answer)
      (fun _ => True) := by
  rintro ⟨cache, world⟩ ⟨underway, holds⟩
  obtain ⟨seen, changes, result, world', run, short, allTrue, landedNow, stored, answered⟩ :=
    interrupted cache world
  have storedBefore : rows world = _ := underway.stored
  have current : RowsCurrent table cache (rows world) := underway.current
  rw [run]
  cases result with
  | error refusal => trivial
  | ok answer =>
    refine ⟨during ++ seen, during ++ changes, ⟨⟨?_, ?_, ?_, ?_⟩, ?_⟩, List.prefix_append _ _,
      (List.prefix_append_right_inj during).mpr short, ?_⟩
    · rw [landedNow, underway.landed, List.append_assoc]
    · rw [stored, RowChange.exchangeAll_append, storedBefore]
    · rw [applyAll_generation, underway.generation, List.length_append, Nat.add_assoc]
    · rw [stored]
      exact current.applyAll allTrue
    · intro nothing
      have noChanges : changes = [] := List.append_right_eq_self.mp nothing
      rw [noChanges]
      exact holds
    · rw [RowChange.exchangeAll_append, ← storedBefore]
      exact answered answer rfl

/-- What a read of rows leads to that only returns rows whose keys had the value. -/
private theorem seen_leads {read : Loading World (List Row)} {wanted : List Value → Bool}
    (interrupted : Interrupted table rows landed read fun seen loaded =>
      table.Loaded loaded (seen.filter wanted))
    (had : ∀ seen, during <+: seen →
      ∀ values ∈ RowChange.exchangeAll table (rows origin.2) seen, wanted values = true →
        table.HadValue (rows origin.2) seen column value (table.keysOf values)) :
    Leads (Underway table rows landed origin during) read
      (fun loaded state => ∃ seen longer, Underway table rows landed origin longer state ∧
        during <+: seen ∧ seen <+: longer ∧ Seen table (rows origin.2) seen column value loaded)
      (fun _ => True) := by
  refine (interrupted_leads interrupted fun _ => True).weaken
    (fun _ underway => ⟨underway, trivial⟩) ?_ fun _ => id
  rintro loaded state ⟨seen, longer, ⟨underway, _⟩, before, short, isLoaded⟩
  refine ⟨seen, longer, underway, before, short, fun row => isLoaded.has, ?_⟩
  intro row membership
  obtain ⟨isThere, isWanted⟩ := List.mem_filter.mp (isLoaded.mem membership)
  rw [(isLoaded.has membership).keys]
  exact had seen before _ isThere isWanted

private theorem current_leads :
    Leads (Underway table rows landed origin during) (current : Loading World TableCache)
      (fun now state => Underway table rows landed origin during state ∧
        ∃ world, Underway table rows landed origin during (now, world)) failed :=
  Leads.current fun state underway => ⟨underway, state.2, underway⟩

private theorem countReads_leads (hits misses : Nat) :
    Leads (Underway table rows landed origin during)
      (countReads hits misses : Loading World Unit)
      (fun _ => Underway table rows landed origin during) failed :=
  Leads.update _ fun _ underway => underway.count hits misses

private theorem storeRead_leads (notNull : value ≠ .null) {seen : List RowChange}
    (short : seen <+: during) {generation : Nat}
    (captured : generation ≤ origin.1.generation + seen.length) {loaded : List Row}
    (isSeen : Seen table (rows origin.2) seen column value loaded) :
    Leads (Underway table rows landed origin during)
      (update fun cache => cache.storeRead generation loaded : Loading World (List Row))
      (fun found state => Underway table rows landed origin during state ∧
        ∀ row ∈ found, table.Matches (rows origin.2) during column value row) failed :=
  Leads.update _ fun _ underway =>
    ⟨underway.storeRead short captured isSeen, underway.returned notNull short isSeen generation⟩

end

section

variable {source : RowSource World} (contended : source.Contended table rows landed)
include contended

private theorem rowsByValue_leads (column : Nat) (value : Value) :
    Leads (Underway table rows landed origin during) (source.rowsByValue column value)
      (fun loaded state => ∃ seen longer, Underway table rows landed origin longer state ∧
        during <+: seen ∧ seen <+: longer ∧ Seen table (rows origin.2) seen column value loaded)
      (fun _ => True) :=
  seen_leads (contended.rowsByValue column value) fun seen _ _ isThere hasValue =>
    ⟨seen, List.prefix_rfl, List.mem_map_of_mem (List.mem_filter.mpr ⟨isThere, hasValue⟩)⟩

private theorem getRowsDirectly_matching (notNull : value ≠ .null) :
    Leads (Underway table rows landed origin during) (getRowsDirectly source column value)
      (fun found state => ∃ longer, Underway table rows landed origin longer state ∧
        ∀ row ∈ found, table.Matches (rows origin.2) longer column value row)
      (fun _ => True) := by
  refine current_leads.bind fun now => Leads.given fun atStart => ?_
  obtain ⟨world, captured⟩ := atStart
  refine (rowsByValue_leads contended column value).bind fun loaded =>
    Leads.forSome fun seen => Leads.forSome fun longer => Leads.given fun reading => ?_
  obtain ⟨before, short, isSeen⟩ := reading
  have capturedBefore := captured.captured before
  refine (countReads_leads 0 loaded.length).bind fun _ => ?_
  exact (storeRead_leads notNull short capturedBefore isSeen).weaken (fun _ => id)
    (fun _ _ holds => ⟨longer, holds⟩) fun _ => id

private theorem getRowsInBulk_matching (notNull : value ≠ .null) (hits misses : Nat) :
    Leads (Underway table rows landed origin during) (getRowsInBulk source column value hits misses)
      (fun found state => ∃ longer, Underway table rows landed origin longer state ∧
        ∀ row ∈ found, table.Matches (rows origin.2) longer column value row)
      (fun _ => True) := by
  refine current_leads.bind fun now => Leads.given fun atStart => ?_
  obtain ⟨world, captured⟩ := atStart
  refine (rowsByValue_leads contended column value).bind fun loaded =>
    Leads.forSome fun seen => Leads.forSome fun longer => Leads.given fun reading => ?_
  obtain ⟨before, short, isSeen⟩ := reading
  have capturedBefore := captured.captured before
  refine (countReads_leads hits misses).bind fun _ => ?_
  refine (storeRead_leads notNull short capturedBefore isSeen).bind fun found =>
    Leads.given fun matching => ?_
  have replaces : Leads (Underway table rows landed origin longer)
      (update fun cache => ((), cache.replaceKeys now.generation column value (found.map Row.keys)) :
        Loading World Unit)
      (fun _ => Underway table rows landed origin longer) (fun _ => True) :=
    Leads.update _ fun _ underway => underway.replaceKeys now.generation _
  exact replaces.bind fun _ => Leads.returns fun _ underway => ⟨longer, underway, matching⟩

/-- The keys that are found for a value had it, when they were read or when the read began. -/
private theorem getKeys_hadValue (mirrors : Mirrors table origin.1 (rows origin.2))
    {index : IndexCache} (isIndex : origin.1.index? column = some index) (value : Value) :
    Leads (fun state => Underway table rows landed origin [] state ∧ state.1 = origin.1)
      (getKeys source index value)
      (fun keys state => ∃ longer, Underway table rows landed origin longer state ∧
        ∀ key ∈ keys, table.HadValue (rows origin.2) longer column value key)
      (fun _ => True) := by
  have inBucket {keys : List Keys} (bucket : origin.1.HasBucket column value keys)
      (longer : List RowChange) :
      ∀ key ∈ keys, table.HadValue (rows origin.2) longer column value key := by
    intro key membership
    have named := mirrors.exact column value keys bucket
    rw [mirrors.sameTable] at named
    exact ⟨[], List.nil_prefix, named.mem_iff.mp membership⟩
  obtain ⟨before, after, split, here, _⟩ := index?_split isIndex
  have isThere : index ∈ origin.1.indices := by simp [split]
  unfold getKeys
  split
  · next keys bucket =>
    exact Leads.returns fun _ holds =>
      ⟨[], holds.1, inBucket ⟨index, isThere, here, bucket⟩ []⟩
  · have looks : Leads
        (fun state => Underway table rows landed origin [] state ∧ state.1 = origin.1)
        (current : Loading World TableCache)
        (fun now state => (Underway table rows landed origin [] state ∧ state.1 = origin.1) ∧
          now.generation = origin.1.generation) (fun _ => True) :=
      Leads.current fun _ holds => ⟨holds, holds.1.generation⟩
    refine looks.bind fun now => Leads.given fun captured => ?_
    rw [here, captured]
    refine (interrupted_leads (contended.keysByValue column value) (· = origin.1)).bind fun keys =>
      Leads.forSome fun seen => Leads.forSome fun longer => Leads.given fun reading => ?_
    obtain ⟨_, short, named⟩ := reading
    refine Leads.update _ fun state holds => ?_
    obtain ⟨underway, unchanged⟩ := holds
    refine ⟨longer, underway.storeReadKeys origin.1.generation keys, ?_⟩
    rcases state.1.storeReadKeys_cases origin.1.generation column value keys with same | found
    · rw [same]
      intro key membership
      exact ⟨seen, short, named.mem_iff.mp membership⟩
    · obtain ⟨sameGeneration, bucket⟩ := found
      -- nothing has landed, so the bucket is one of those that were exact
      have noneLanded : longer = [] := by
        have now := underway.generation
        exact List.eq_nil_of_length_eq_zero (by omega)
      rw [unchanged noneLanded] at bucket ⊢
      exact inBucket bucket longer

private theorem rowsByKeys_leads {chunk : List Keys}
    (had : ∀ key ∈ chunk, table.HadValue (rows origin.2) during column value key) :
    Leads (Underway table rows landed origin during) (source.rowsByKeys chunk)
      (fun loaded state => ∃ seen longer, Underway table rows landed origin longer state ∧
        during <+: seen ∧ seen <+: longer ∧ Seen table (rows origin.2) seen column value loaded)
      (fun _ => True) :=
  seen_leads (contended.rowsByKeys chunk) fun _ before _ _ inChunk =>
    (had _ (List.contains_iff_mem.mp inChunk)).mono before

private theorem loadChunk_matching (notNull : value ≠ .null) {generation : Nat}
    {chunk rest : List Keys} {found : Entries Keys Row}
    (gathers : Gathers table origin.1 (rows origin.2) during column value generation
      (chunk ++ rest) found) :
    Leads (Underway table rows landed origin during) (loadChunk source generation found chunk)
      (fun found state => ∃ longer, Underway table rows landed origin longer state ∧
        Gathers table origin.1 (rows origin.2) longer column value generation rest found)
      (fun _ => True) := by
  have hadChunk : ∀ key ∈ chunk, table.HadValue (rows origin.2) during column value key :=
    fun key membership => gathers.had key (List.mem_append_left _ membership)
  refine (rowsByKeys_leads contended hadChunk).bind fun loaded => Leads.forSome fun seen =>
    Leads.forSome fun longer => Leads.given fun reading => ?_
  obtain ⟨before, short, isSeen⟩ := reading
  have captured : generation ≤ origin.1.generation + seen.length :=
    Nat.le_trans gathers.captured (Nat.add_le_add_left before.length_le _)
  refine (storeRead_leads notNull short captured isSeen).bind fun kept => Leads.given fun matching =>
    Leads.returns fun state underway => ⟨longer, underway, ?_, ?_, ?_⟩
  · exact Nat.le_trans captured (Nat.add_le_add_left short.length_le _)
  · intro key row isFound
    rcases Entries.get?_putAll isFound with put | earlier
    · obtain ⟨other, membership, same⟩ := List.mem_map.mp put
      cases same
      exact matching row membership
    · exact (gathers.matching key row earlier).mono (before.trans short)
  · intro key later
    exact (gathers.had key (List.mem_append_right _ later)).mono (before.trans short)

private theorem getRowsByKeys_matching (notNull : value ≠ .null) {keys : List Keys}
    (had : ∀ key ∈ keys, table.HadValue (rows origin.2) during column value key) :
    Leads (Underway table rows landed origin during) (getRowsByKeys source keys)
      (fun found state => ∃ longer, Underway table rows landed origin longer state ∧
        ∀ row ∈ found, table.Matches (rows origin.2) longer column value row)
      (fun _ => True) := by
  refine current_leads.bind fun now => Leads.given fun looked => ?_
  obtain ⟨world, atStart⟩ := looked
  dsimp only
  have hadAsked : ∀ key ∈ askedKeys keys, table.HadValue (rows origin.2) during column value key :=
    fun key isAsked => had key (mem_askedKeys.mp isAsked).1
  refine (countReads_leads _ _).bind fun _ => ?_
  have gathers : Gathers table origin.1 (rows origin.2) during column value now.generation
      (chunks chunkSize ((askedKeys keys).filter (!now.contains ·))).flatten
      (.putAll {} ((askedKeys keys).filterMap fun key => (now.peek? key).map (key, ·))) := by
    rw [flatten_chunks (by decide)]
    refine ⟨atStart.captured List.prefix_rfl, ?_, fun key isMissing => ?_⟩
    · intro key row isFound
      rcases Entries.get?_putAll isFound with put | nowhere
      · obtain ⟨other, isAsked, looked⟩ := List.mem_filterMap.mp put
        obtain ⟨present, peeked, same⟩ := Option.map_eq_some_iff.mp looked
        cases same
        exact atStart.cached notNull (hadAsked key isAsked) peeked
      · cases nowhere
    · exact hadAsked key (List.mem_filter.mp isMissing).1
  have loop := Leads.foldlM
    (fun (rest : List (List Keys)) found (state : TableCache × World) => ∃ longer,
      Underway table rows landed origin longer state ∧
        Gathers table origin.1 (rows origin.2) longer column value now.generation rest.flatten found)
    (fun chunk rest found => Leads.forSome fun longer => Leads.given fun gathers =>
      loadChunk_matching contended notNull gathers)
    (chunks chunkSize ((askedKeys keys).filter (!now.contains ·)))
    (.putAll {} ((askedKeys keys).filterMap fun key => (now.peek? key).map (key, ·)))
  refine (loop.weaken (fun _ underway => ⟨during, underway, gathers⟩) (fun _ _ holds => holds)
    fun _ => id).bind fun found => Leads.returns ?_
  rintro state ⟨longer, underway, gathered⟩
  refine ⟨longer, underway, fun row isTaken => ?_⟩
  rw [take_eq_filterMap] at isTaken
  obtain ⟨key, _, isFound⟩ := List.mem_filterMap.mp isTaken
  exact gathered.matching key row isFound

/-- A read by a value returns rows that have it, unless the changes that land divert it. -/
theorem getRows_matching (mirrors : Mirrors table origin.1 (rows origin.2)) (column : Nat)
    (notNull : value ≠ .null) :
    Leads (· = origin) (getRows source column value)
      (fun found state => ∃ during, Underway table rows landed origin during state ∧
        ∀ row ∈ found, table.Matches (rows origin.2) during column value row)
      (fun _ => True) := by
  have isValue : ¬ value.isNull = true := by
    rw [Value.isNull_iff]
    exact notNull
  have begins : Leads (· = origin) (current : Loading World TableCache)
      (fun now state => (Underway table rows landed origin [] state ∧ state.1 = origin.1) ∧
        now = origin.1)
      (fun _ => True) := by
    refine Leads.current fun state isOrigin => ?_
    subst isOrigin
    exact ⟨⟨.start mirrors.toRowsCurrent, rfl⟩, rfl⟩
  unfold getRows
  rw [if_neg isValue]
  refine begins.bind fun now => Leads.given fun isNow => ?_
  subst isNow
  split
  · exact (getRowsDirectly_matching contended notNull).weaken (fun _ holds => holds.1)
      (fun _ _ holds => holds) fun _ => id
  · next index isIndex =>
    refine (getKeys_hadValue contended mirrors isIndex value).bind fun keys =>
      Leads.forSome fun during => Leads.given fun had => ?_
    refine current_leads.bind fun later => Leads.given fun _ => ?_
    dsimp only
    split
    · exact getRowsByKeys_matching contended notNull had
    · exact getRowsInBulk_matching contended notNull _ _

end

end TableCache

end RelationalAccess
