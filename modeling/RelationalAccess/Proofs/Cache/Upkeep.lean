import RelationalAccess.Proofs.Cache.Loading

/-!
What reads through a cache keep of it, whatever they find. They consist of a few steps:
reads are counted, rows that were read are stored, and so are the keys that were found for
a value. What each of these steps keeps, all reads keep.
-/

namespace RelationalAccess

/-- Something holds of a cache still when reads are counted, when good rows are stored that
were read, and when keys are that rightly name the rows of a value. The rows that are returned
for those that were read are named alike. -/
structure TableCache.Upheld (holds : TableCache → Prop) (good : Row → Prop)
    (named : Nat → Value → List Keys → Prop) : Prop where
  count : ∀ cache hits misses, holds cache → holds (cache.count hits misses)
  storeRead : ∀ cache generation rows, holds cache → (∀ row ∈ rows, good row) →
    holds (cache.storeRead generation rows).2
  storeReadKeys : ∀ cache generation column value keys, holds cache → value ≠ .null →
    named column value keys → holds (cache.storeReadKeys generation column value keys).2
  replaceKeys : ∀ cache generation column value keys, holds cache → value ≠ .null →
    named column value keys → holds (cache.replaceKeys generation column value keys)
  returned : ∀ cache generation column value rows, holds cache →
    named column value (rows.map Row.keys) →
      named column value ((cache.storeRead generation rows).1.map Row.keys)

/-- Something holds of a cache, in a steady world. -/
abbrev TableCache.Holding {World : Type} (holds : TableCache → Prop) (steady : World → Prop)
    (state : TableCache × World) : Prop :=
  holds state.1 ∧ steady state.2

/-- A source leaves the cache alone and the world steady. The rows that it supplies are good,
and their keys rightly name the rows of a value. -/
structure RowSource.Supplies {World : Type} (source : RowSource World) (steady : World → Prop)
    (good : Row → Prop) (named : Nat → Value → List Keys → Prop)
    (failed : (TableCache → Prop) → TableCache × World → Prop) : Prop where
  rowsByKeys : ∀ (condition : TableCache → Prop) (keys : List Keys),
    Leads (TableCache.Holding condition steady) (source.rowsByKeys keys)
      (fun rows state => TableCache.Holding condition steady state ∧ ∀ row ∈ rows, good row)
      (failed condition)
  keysByValue : ∀ (condition : TableCache → Prop) (column : Nat) (value : Value), value ≠ .null →
    Leads (TableCache.Holding condition steady) (source.keysByValue column value)
      (fun keys state => TableCache.Holding condition steady state ∧ named column value keys)
      (failed condition)
  rowsByValue : ∀ (condition : TableCache → Prop) (column : Nat) (value : Value), value ≠ .null →
    Leads (TableCache.Holding condition steady) (source.rowsByValue column value)
      (fun rows state => TableCache.Holding condition steady state ∧
        (∀ row ∈ rows, good row) ∧ named column value (rows.map Row.keys))
      (failed condition)

/-- A read through a cache upholds whatever its steps do. -/
def RowSource.Upholds {World α : Type} (source : RowSource World) (read : Loading World α) : Prop :=
  ∀ {holds good named steady failed}, TableCache.Upheld holds good named →
    source.Supplies steady good named failed →
      Leads (TableCache.Holding holds steady) read (fun _ => TableCache.Holding holds steady)
        (failed holds)

namespace TableCache

variable {World : Type} {holds : TableCache → Prop} {steady : World → Prop} {good : Row → Prop}
  {named : Nat → Value → List Keys → Prop} {failed : TableCache × World → Prop}

theorem current_upheld :
    Leads (Holding holds steady) (current : Loading World TableCache)
      (fun _ => Holding holds steady) failed :=
  Leads.current fun _ => id

private theorem countReads_upheld (upheld : Upheld holds good named) (hits misses : Nat) :
    Leads (Holding holds steady) (countReads hits misses : Loading World Unit)
      (fun _ => Holding holds steady) failed :=
  Leads.update _ fun state holding => ⟨upheld.count state.1 hits misses holding.1, holding.2⟩

theorem storeRead_upheld (upheld : Upheld holds good named) (generation : Nat) {rows : List Row}
    (areGood : ∀ row ∈ rows, good row) :
    Leads (Holding holds steady)
      (update fun cache => cache.storeRead generation rows : Loading World (List Row))
      (fun _ => Holding holds steady) failed :=
  Leads.update _ fun state holding =>
    ⟨upheld.storeRead state.1 generation rows holding.1 areGood, holding.2⟩

private theorem storeNamed_upheld (upheld : Upheld holds good named) (generation : Nat)
    {rows : List Row} (areGood : ∀ row ∈ rows, good row) {column : Nat} {value : Value}
    (areNamed : named column value (rows.map Row.keys)) :
    Leads (Holding holds steady)
      (update fun cache => cache.storeRead generation rows : Loading World (List Row))
      (fun found state => Holding holds steady state ∧ named column value (found.map Row.keys))
      failed :=
  Leads.update _ fun state holding =>
    ⟨⟨upheld.storeRead state.1 generation rows holding.1 areGood, holding.2⟩,
      upheld.returned state.1 generation column value rows holding.1 areNamed⟩

private theorem replaceKeys_upheld (upheld : Upheld holds good named) (generation : Nat)
    {column : Nat} {value : Value} (notNull : value ≠ .null) {keys : List Keys}
    (areNamed : named column value keys) :
    Leads (Holding holds steady)
      (update fun cache => ((), cache.replaceKeys generation column value keys) : Loading World Unit)
      (fun _ => Holding holds steady) failed :=
  Leads.update _ fun state holding =>
    ⟨upheld.replaceKeys state.1 generation column value keys holding.1 notNull areNamed, holding.2⟩

variable (source : RowSource World)

private theorem loadChunk_upholds (generation : Nat) (found : Entries Keys Row)
    (chunk : List Keys) : source.Upholds (loadChunk source generation found chunk) := by
  intro holds good named steady failed upheld supplies
  refine (supplies.rowsByKeys holds chunk).bind fun loaded => Leads.given fun areGood => ?_
  exact (storeRead_upheld upheld generation areGood).bind fun _ => Leads.returns fun _ => id

theorem getRowsByKeys_upholds (keys : List Keys) : source.Upholds (getRowsByKeys source keys) := by
  intro holds good named steady failed upheld supplies
  refine current_upheld.bind fun cache => (countReads_upheld upheld _ _).bind fun _ => ?_
  refine (Leads.foldlM (fun _ _ => Holding holds steady) (fun chunk _ found => ?_) _ _).bind
    fun _ => Leads.returns fun _ => id
  exact loadChunk_upholds source cache.generation found chunk upheld supplies

theorem getRow_upholds (keys : Keys) : source.Upholds (getRow source keys) :=
  fun upheld supplies =>
    (getRowsByKeys_upholds source [keys] upheld supplies).bind fun _ => Leads.returns fun _ => id

variable (column : Nat) {value : Value} (notNull : value ≠ .null)

include notNull

private theorem getRowsDirectly_upholds :
    source.Upholds (getRowsDirectly source column value) := by
  intro holds good named steady failed upheld supplies
  refine current_upheld.bind fun cache => ?_
  refine (supplies.rowsByValue holds column value notNull).bind fun loaded =>
    Leads.given fun ⟨areGood, _⟩ => ?_
  exact (countReads_upheld upheld _ _).bind fun _ => storeRead_upheld upheld _ areGood

private theorem getKeys_upholds (index : IndexCache) :
    source.Upholds (getKeys source index value) := by
  intro holds good named steady failed upheld supplies
  unfold getKeys
  split
  · exact Leads.returns fun _ => id
  · refine current_upheld.bind fun cache => ?_
    refine (supplies.keysByValue holds index.column value notNull).bind fun keys =>
      Leads.given fun areNamed => ?_
    exact Leads.update _ fun state holding =>
      ⟨upheld.storeReadKeys state.1 _ _ _ _ holding.1 notNull areNamed, holding.2⟩

private theorem getRowsInBulk_upholds (hits misses : Nat) :
    source.Upholds (getRowsInBulk source column value hits misses) := by
  intro holds good named steady failed upheld supplies
  refine current_upheld.bind fun cache => ?_
  refine (supplies.rowsByValue holds column value notNull).bind fun loaded =>
    Leads.given fun ⟨areGood, areNamed⟩ => ?_
  refine (countReads_upheld upheld _ _).bind fun _ => ?_
  refine (storeNamed_upheld upheld _ areGood areNamed).bind fun found => Leads.given fun areNamed => ?_
  exact (replaceKeys_upheld upheld _ notNull areNamed).bind fun _ => Leads.returns fun _ => id

omit notNull

theorem getRows_upholds (value : Value) : source.Upholds (getRows source column value) := by
  intro holds good named steady failed upheld supplies
  unfold getRows
  split
  · exact Leads.returns fun _ => id
  · next isNull =>
    have notNull : value ≠ .null := fun same => isNull (same ▸ rfl)
    refine current_upheld.bind fun cache => ?_
    split
    · exact getRowsDirectly_upholds source column notNull upheld supplies
    · next index _ =>
      refine (getKeys_upholds source notNull index upheld supplies).bind fun keys => ?_
      refine current_upheld.bind fun now => ?_
      dsimp only
      split
      · exact getRowsByKeys_upholds source keys upheld supplies
      · exact getRowsInBulk_upholds source column notNull _ _ upheld supplies

end TableCache

end RelationalAccess
