import Mathlib.Data.List.Induction
import RelationalAccess.Proofs.Cache.CommitsDuringReads
import RelationalAccess.Proofs.Cache.History

/-!
Reads that commits divert. If under keys that had a value a change puts a row without it,
then there is a read that returns this row for the value: one that sees the keys before the
change lands, and what is cached when it has landed.
-/

namespace RelationalAccess

namespace RowChange

variable {table : Table} {rows : List (List Value)} {changes : List RowChange}

theorem allTrue_append {first last : List RowChange} :
    AllTrue table rows (first ++ last) ↔
      AllTrue table rows first ∧ AllTrue table (exchangeAll table rows first) last := by
  induction first generalizing rows with
  | nil => simp [AllTrue, exchangeAll]
  | cons change first inductionHypothesis =>
    show _ ∧ AllTrue table _ (first ++ last) ↔ (_ ∧ AllTrue table _ first) ∧ _
    rw [inductionHypothesis, and_assoc]
    rfl

theorem distinctKeys_exchangeAll (distinct : table.DistinctKeys rows)
    (allTrue : AllTrue table rows changes) : table.DistinctKeys (exchangeAll table rows changes) := by
  induction changes generalizing rows with
  | nil => exact distinct
  | cons change changes inductionHypothesis =>
    exact inductionHypothesis (distinct.exchange allTrue.1) allTrue.2

end RowChange

namespace TableCache

theorem applyAll_append (cache : TableCache) (first last : List RowChange) :
    cache.applyAll (first ++ last) = (cache.applyAll first).applyAll last :=
  List.foldl_append

theorem applyAll_enabled (cache : TableCache) (changes : List RowChange) :
    (cache.applyAll changes).enabled = cache.enabled := by
  induction changes generalizing cache with
  | nil => rfl
  | cons change changes inductionHypothesis =>
    exact (inductionHypothesis _).trans (applyChange_enabled cache change.before change.after)

/-- A row that some changes have brought is cached when the cache was told of them. -/
theorem peek?_applyAll {table : Table} {cache : TableCache} (enabled : cache.enabled = true)
    {rows : List (List Value)} {changes : List RowChange}
    (allTrue : RowChange.AllTrue table rows changes) {values : List Value}
    (isThere : values ∈ RowChange.exchangeAll table rows changes) (wasNot : values ∉ rows) :
    ∃ row, (cache.applyAll changes).peek? (table.keysOf values) = some row ∧
      row.values = values := by
  induction changes using List.reverseRecOn with
  | nil => exact absurd isThere wasNot
  | append_singleton changes change inductionHypothesis =>
    rw [RowChange.exchangeAll_append] at isThere
    obtain ⟨earlier, images, _⟩ := RowChange.allTrue_append.mp allTrue
    have stillEnabled := (cache.applyAll_enabled changes).trans enabled
    rw [applyAll_append]
    show ∃ row, ((cache.applyAll changes).applyChange change.before change.after).2.peek? _ =
      some row ∧ _
    rw [peek?_applyChange stillEnabled]
    rcases List.mem_append.mp isThere with kept | brought
    · obtain ⟨before, apart⟩ := List.mem_filter.mp kept
      have notBefore : some (table.keysOf values) ≠ change.before.map Row.keys :=
        of_decide_eq_true apart
      have notAfter : change.after.map Row.keys ≠ some (table.keysOf values) := by
        intro isAfter
        obtain ⟨new, isNew, sameKeys⟩ := Option.map_eq_some_iff.mp isAfter
        exact notBefore ((images.unused new isNew).2 values before sameKeys.symm)
      obtain ⟨row, cached, sameValues⟩ := inductionHypothesis earlier before
      exact ⟨row, by simp [notAfter, notBefore.symm, cached], sameValues⟩
    · obtain ⟨row, isAfter, sameValues⟩ := Option.map_eq_some_iff.mp (Option.mem_toList.mp brought)
      have sameKeys : row.keys = table.keysOf values := by
        rw [Row.keys, (images.unused row isAfter).1, sameValues]
      exact ⟨row, by simp [isAfter, sameKeys], sameValues⟩

end TableCache

/-- Every row that a read by a value returns has the value, whatever the cache and the source
and whichever of some changes land while it is read, in whatever reads of the source. -/
def Table.ReadsMatch (table : Table) (start : List (List Value)) (changes : List RowChange)
    (column : Nat) (value : Value) : Prop :=
  ∀ (World : Type) (source : RowSource World) (rows : World → List (List Value))
    (landed : World → List RowChange) (cache last : TableCache) (world world' : World)
    (during : List RowChange) (found : List Row),
    source.Contended table rows landed → cache.Mirrors table (rows world) → rows world = start →
      TableCache.getRows source column value (cache, world) = (.ok found, last, world') →
      landed world' = landed world ++ during → during <+: changes →
      ∀ row ∈ found, row.at? column = some value

section

variable (table : Table) (start : List (List Value)) (seen changes : List RowChange)

/-- A read of rows held in memory, with the changes that have landed. It answers from what
the first of some changes leave, and all of these land before it ends, if the rows are those
that the changes are of. -/
def readOvertaken {α : Type} (answer : List (List Value) → α) :
    Loading (List (List Value) × List RowChange) α := fun (cache, rows, landed) =>
  if rows = start then
    (.ok (answer (RowChange.exchangeAll table start seen)), cache.applyAll changes,
      RowChange.exchangeAll table start changes, landed ++ changes)
  else (.ok (answer rows), cache, rows, landed)

/-- A source whose reads are overtaken. -/
def RowSource.overtaken : RowSource (List (List Value) × List RowChange) where
  rowsByKeys keys := readOvertaken table start seen changes fun rows =>
    (rows.filter fun row => keys.contains (table.keysOf row)).map fun values =>
      { identity := 0, table, values }
  keysByValue column value := readOvertaken table start seen changes fun rows =>
    table.keysWith rows column value
  rowsByValue column value := readOvertaken table start seen changes fun rows =>
    (rows.filter fun row => row.getD column .null = value).map fun values =>
      { identity := 0, table, values }

variable {table start seen changes}

theorem readOvertaken_interrupted (short : seen <+: changes)
    (allTrue : RowChange.AllTrue table start changes) {α : Type} {answer : List (List Value) → α}
    {answers : List (List Value) → α → Prop} (answered : ∀ rows, answers rows (answer rows)) :
    Interrupted table Prod.fst Prod.snd (readOvertaken table start seen changes answer) answers := by
  rintro cache ⟨rows, landed⟩
  by_cases isStart : rows = start
  · subst isStart
    refine ⟨seen, changes, .ok (answer (RowChange.exchangeAll table rows seen)), _,
      by rw [readOvertaken, if_pos rfl], short, allTrue, rfl, rfl, ?_⟩
    rintro _ ⟨⟩
    exact answered _
  · refine ⟨[], [], .ok (answer rows), (rows, landed), ?_, List.prefix_rfl, trivial,
      (List.append_nil landed).symm, rfl, ?_⟩
    · rw [readOvertaken, if_neg isStart]
      rfl
    · rintro _ ⟨⟩
      exact answered rows

theorem RowSource.overtaken_contended (short : seen <+: changes)
    (allTrue : RowChange.AllTrue table start changes) :
    (RowSource.overtaken table start seen changes).Contended table Prod.fst Prod.snd := by
  have loaded (stored : List (List Value)) :
      table.Loaded (stored.map fun values => { identity := 0, table, values }) stored :=
    ⟨by simp, by simp [Function.comp_def]⟩
  refine ⟨fun keys => ?_, fun column value => ?_, fun column value => ?_⟩
  · dsimp only [RowSource.overtaken]
    apply readOvertaken_interrupted short allTrue
    exact fun rows => loaded _
  · dsimp only [RowSource.overtaken]
    apply readOvertaken_interrupted short allTrue
    exact fun rows => .refl _
  · dsimp only [RowSource.overtaken]
    apply readOvertaken_interrupted short allTrue
    exact fun rows => loaded _

/-- A read by a column without an index cache: the rows that the source returns stand for those
that are cached by then. -/
private theorem getRows_of_noIndex {World : Type} {source : RowSource World} {cache later : TableCache}
    {world world' : World} {column : Nat} {value : Value} {loaded : List Row}
    (notNull : value ≠ .null) (noIndex : cache.index? column = none)
    (read : source.rowsByValue column value (cache, world) = (.ok loaded, later, world')) :
    TableCache.getRows source column value (cache, world) =
      (.ok ((later.count 0 loaded.length).storeRead cache.generation loaded).1,
        ((later.count 0 loaded.length).storeRead cache.generation loaded).2, world') := by
  have isValue : ¬ value.isNull = true := by
    rw [Value.isNull_iff]
    exact notNull
  have looked : (TableCache.current : Loading World TableCache) (cache, world) =
      (.ok cache, cache, world) := rfl
  have counted : (TableCache.countReads 0 loaded.length : Loading World Unit) (later, world') =
      (.ok (), later.count 0 loaded.length, world') := rfl
  unfold TableCache.getRows TableCache.getRowsDirectly
  rw [if_neg isValue, bind_apply, looked]
  simp only [noIndex, bind_apply, looked, read, counted]
  rfl

/-- What changes divert is returned by a read that they overtake. -/
private theorem diverted_of_overtaken (distinct : table.DistinctKeys start)
    (allTrue : RowChange.AllTrue table start changes) (short : seen <+: changes) {column : Nat}
    {value : Value} (notNull : value ≠ .null) {values : List Value}
    (isThere : values ∈ RowChange.exchangeAll table start changes)
    (hasNot : values.getD column .null ≠ value)
    (isNamed : table.keysOf values ∈
      table.keysWith (RowChange.exchangeAll table start seen) column value) :
    ∃ found last, TableCache.getRows (.overtaken table start seen changes) column value
        ({ table, enabled := true }, start, []) =
          (.ok found, last, RowChange.exchangeAll table start changes, changes) ∧
      ∃ row ∈ found, row.values = values := by
  obtain ⟨rest, rfl⟩ := short
  obtain ⟨earlier, later⟩ := RowChange.allTrue_append.mp allTrue
  obtain ⟨others, matching, sameKeys⟩ := List.mem_map.mp isNamed
  -- the row with the value had the same keys, so the other has come since
  have wasNot : values ∉ RowChange.exchangeAll table start seen := by
    intro wasThere
    have stillDistinct := RowChange.distinctKeys_exchangeAll distinct earlier
    obtain ⟨isOther, hasValue⟩ := List.mem_filter.mp matching
    have same := stillDistinct.eq_of_keysOf isOther wasThere sameKeys
    exact hasNot (same ▸ of_decide_eq_true hasValue)
  have someLand : rest ≠ [] := by
    rintro rfl
    rw [List.append_nil] at isThere
    exact wasNot isThere
  let cache : TableCache := { table, enabled := true }
  let loaded : List Row := ((RowChange.exchangeAll table start seen).filter fun row =>
    row.getD column .null = value).map fun values => { identity := 0, table, values }
  have read : (RowSource.overtaken table start seen (seen ++ rest)).rowsByValue column value
      (cache, start, []) = (.ok loaded, cache.applyAll (seen ++ rest),
        RowChange.exchangeAll table start (seen ++ rest), seen ++ rest) := if_pos rfl
  have answered := getRows_of_noIndex notNull rfl read
  refine ⟨_, _, answered, ?_⟩
  have enabled : (cache.applyAll seen).enabled = true := cache.applyAll_enabled seen
  rw [RowChange.exchangeAll_append] at isThere
  obtain ⟨row, cached, sameValues⟩ := TableCache.peek?_applyAll enabled later isThere wasNot
  rw [← TableCache.applyAll_append] at cached
  have changed : ((cache.applyAll (seen ++ rest)).count 0 loaded.length).generation ≠
      cache.generation := by
    show (cache.applyAll (seen ++ rest)).generation ≠ 0
    rw [TableCache.applyAll_generation, List.length_append]
    have := List.length_pos_of_ne_nil someLand
    omega
  refine ⟨row, ?_, sameValues⟩
  rw [TableCache.storeRead, if_neg changed]
  refine List.mem_map.mpr ⟨{ identity := 0, table, values := others },
    List.mem_map_of_mem matching, ?_⟩
  show ((cache.applyAll (seen ++ rest)).peek? (table.keysOf others)).getD _ = row
  rw [sameKeys, cached]
  rfl

end

/-- Every row that is returned by a read by a value has it, whatever the cache, the source
and the moments at which some changes land, if and only if these changes do not divert the read. -/
theorem reads_match_iff {table : Table} {start : List (List Value)} {changes : List RowChange}
    (distinct : table.DistinctKeys start) (allTrue : RowChange.AllTrue table start changes)
    (column : Nat) {value : Value} (notNull : value ≠ .null) :
    table.ReadsMatch start changes column value ↔ ¬ table.Diverts start changes column value := by
  constructor
  · intro readsMatch diverts
    obtain ⟨earlier, later, within, short, values, isThere, hasNot, isNamed⟩ := diverts
    obtain ⟨rest, rfl⟩ := short
    have laterTrue := (RowChange.allTrue_append.mp allTrue).1
    obtain ⟨found, last, answered, row, isFound, rfl⟩ :=
      diverted_of_overtaken distinct laterTrue within notNull isThere hasNot isNamed
    have mirrors : TableCache.Mirrors table { table, enabled := true } start := by
      have noRows (keys : Keys) : ({ table, enabled := true } : TableCache).peek? keys = none := rfl
      refine .ofNothing rfl noRows ?_ start
      rintro column value keys ⟨index, nowhere, _⟩
      cases nowhere
    have hasValue := readsMatch _ _ _ _ _ _ _ _ _ _
      (RowSource.overtaken_contended within laterTrue) mirrors rfl answered
      (List.nil_append _).symm (List.prefix_append _ _) row isFound
    exact hasNot ((Table.getD_eq_iff notNull).mpr hasValue)
  · intro notDiverted World source rows landed cache last world world' during found contended mirrors
      isStart answered landedNow short row isFound
    subst isStart
    have leads : Leads (· = (cache, world)) (TableCache.getRows source column value) _ _ :=
      TableCache.getRows_matching contended mirrors column notNull
    have reached := leads (cache, world) rfl
    rw [answered] at reached
    obtain ⟨landedChanges, underway, matching⟩ := reached
    have same : landedChanges = during :=
      List.append_cancel_left (underway.landed.symm.trans landedNow)
    subst same
    exact (matching row isFound).resolve_right fun diverts => notDiverted (diverts.mono short)

/-- An item moves to another group. -/
def movedItem : RowChange := { before := groupedItem 1 7, after := groupedItem 1 8 }

private theorem movedItem_allTrue :
    RowChange.AllTrue groupedItems [[.int 1, .int 7]] [movedItem] := by
  refine ⟨⟨?_, ?_⟩, trivial⟩
  · rintro old ⟨⟩
    exact ⟨rfl, by decide +kernel⟩
  · rintro new ⟨⟩
    exact ⟨rfl, by decide +kernel⟩

/-- An item that moves to another group while the keys of its old group are read is returned
as one of the old group. -/
theorem movedItem_not_matching :
    let source := RowSource.overtaken groupedItems [[.int 1, .int 7]] [] [movedItem]
    let cache := TableCache.new groupedItems {}
    source.Contended groupedItems Prod.fst Prod.snd ∧
      cache.Mirrors groupedItems [[.int 1, .int 7]] ∧
      (TableCache.getRows source 1 (.int 7) (cache, [[.int 1, .int 7]], [])).1.toOption.map
        (·.map Row.values) = some [[.int 1, .int 8]] :=
  ⟨RowSource.overtaken_contended List.nil_prefix movedItem_allTrue, .new groupedItems {} _,
    by decide +kernel⟩

/-- The equivalence at the item that moves to another group, where both sides fail. -/
theorem reads_match_iff_movedItem :
    groupedItems.DistinctKeys [[.int 1, .int 7]] ∧
      RowChange.AllTrue groupedItems [[.int 1, .int 7]] [movedItem] ∧ Value.int 7 ≠ .null ∧
      groupedItems.Diverts [[.int 1, .int 7]] [movedItem] 1 (.int 7) ∧
      ¬ groupedItems.ReadsMatch [[.int 1, .int 7]] [movedItem] 1 (.int 7) := by
  have distinct : groupedItems.DistinctKeys [[.int 1, .int 7]] := by
    unfold Table.DistinctKeys
    decide +kernel
  have diverts : groupedItems.Diverts [[.int 1, .int 7]] [movedItem] 1 (.int 7) :=
    ⟨[], [movedItem], List.nil_prefix, List.prefix_rfl, [.int 1, .int 8], by decide +kernel,
      by decide +kernel, by decide +kernel⟩
  refine ⟨distinct, movedItem_allTrue, by decide, diverts, fun readsMatch => ?_⟩
  exact (reads_match_iff distinct movedItem_allTrue 1 (by decide)).mp readsMatch diverts

end RelationalAccess
